import SchemaGraph.Registry.Basic
/-!
# Declaring the contents of a file

Every message, enum, service and method of a file becomes an entity. A nested declaration is
qualified by its parent. Of two declarations of one qualified name the first wins; what a rejected
message or service declares inside is rejected with it.
-/

namespace SchemaGraph

/-- A registry, with the duplicates rejected so far. -/
structure Declarations where
  registry : Registry
  duplicates : List Duplicate

/-- Where a declaration stands: its unit, the scope that qualifies it and the entity around it. -/
structure DeclarationSite where
  source : String
  scope : String
  parent : Option String

namespace DeclarationSite

/-- The place inside the entity `qualifiedName`. -/
def inside (site : DeclarationSite) (qualifiedName : String) : DeclarationSite :=
  { site with scope := qualifiedName, parent := some qualifiedName }

end DeclarationSite

namespace Declarations

/-- Declares one entity, and answers its qualified name if the declaration wins. -/
def declare (d : Declarations) (site : DeclarationSite) (name : String) (kind : EntityKind)
    (rpc : Option RpcSignature) : Option String × Declarations :=
  let qualifiedName := Name.qualify site.scope name
  let (nodeId, registry) := d.registry.nodeIdFor name qualifiedName
  let entity : Entity :=
    { qualifiedName, name, kind, nodeId, source := site.source, parent := site.parent,
      artifact := none, rpc }
  match registry.declare entity with
  | .ok registry => (some qualifiedName, { d with registry })
  | .error duplicate => (none, { registry, duplicates := d.duplicates ++ [duplicate] })

mutual

/-- Declares what an element of a message body declares. -/
def declareElement (site : DeclarationSite) : MessageElement → Declarations → Declarations
  | .message name elements _, d =>
    match d.declare site name .message none with
    | (some qualifiedName, d) => declareElements (site.inside qualifiedName) elements d
    | (none, d) => d
  | .enum decl, d => (d.declare site decl.name .enum none).2
  | _, d => d

/-- Declares what the elements of a message body declare, in their order. -/
def declareElements (site : DeclarationSite) : List MessageElement → Declarations → Declarations
  | [], d => d
  | e :: es, d => declareElements site es (declareElement site e d)

end

/-- Declares a service and its methods. -/
def declareService (site : DeclarationSite) (service : Service) (d : Declarations) :
    Declarations :=
  match d.declare site service.name .service none with
  | (none, d) => d
  | (some qualifiedName, d) =>
    service.rpcs.foldl (fun d rpc =>
      let signature : RpcSignature :=
        ⟨qualifiedName, rpc.requestType, rpc.responseType, rpc.clientStreaming,
          rpc.serverStreaming⟩
      (d.declare (site.inside qualifiedName) rpc.name .rpc (some signature)).2) d

/-- Declares what an element of a file declares. -/
def declareFileElement (site : DeclarationSite) (d : Declarations) : FileElement → Declarations
  | .message decl => declareElement site (.message decl.name decl.elements decl.line) d
  | .enum decl => (d.declare site decl.name .enum none).2
  | .service decl => declareService site decl d
  | .extend _ | .option _ | .comment _ => d

end Declarations

/-- Declares the contents of a file, and answers the rejected duplicates. -/
def Registry.declareFile (r : Registry) (source : String) (file : SchemaFile) :
    List Duplicate × Registry :=
  let d := file.elements.foldl (Declarations.declareFileElement ⟨source, file.packageName, none⟩)
    ⟨r, []⟩
  (d.duplicates, d.registry)

end SchemaGraph
