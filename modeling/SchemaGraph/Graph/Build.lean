import SchemaGraph.Binding
import SchemaGraph.Graph.Body
import SchemaGraph.Graph.Inclusion
/-!
# Building the inclusion graph

A `Build` goes through the bodies of the declared entities, binds every reference, records the edges
and gives each entity its drawn fragment. A reference that binds to nothing is reported, and the
build goes on, so that one build reports all of them. A declaration that lost its qualified name to
another one has no body.
-/

namespace SchemaGraph

/-- What a build reports. -/
structure BuildReport where
  /-- The references that bind to nothing, in the order in which they were met. -/
  errors : List BindingError
  /-- The constructs that are not drawn, in the order in which they were met. -/
  unsupported : List Unsupported
  /-- How many declarations were rejected as duplicates. -/
  duplicates : Nat
  deriving DecidableEq, Repr

/-- The report of a build that has met nothing. -/
def BuildReport.empty : BuildReport :=
  ⟨[], [], 0⟩

/-- The state of a build. -/
structure Build where
  symbols : Symbols
  graph : InclusionGraph
  report : BuildReport
  /-- The qualified names whose bodies have been processed. -/
  built : List String

/-- What does not change during a build. -/
structure BuildContext where
  renderer : Renderer
  /-- Whether a reference that nothing answers becomes a placeholder. -/
  showMissing : Bool

namespace Build

/-- A step of a build. -/
abbrev Step (α : Type) : Type :=
  StateM Build α

/-- Reports a construct that is not drawn. -/
def unsupported (construct : Construct) (scope : String) : Step Unit :=
  modify fun b =>
    { b with report := { b.report with
        unsupported := b.report.unsupported ++ [⟨construct, scope⟩] } }

/-- The entity whose body is the declaration of the given kind in the given unit; none when another
declaration holds the name, or when its body has been processed. -/
def claimBody (source qualifiedName : String) (kind : EntityKind) : Step (Option Entity) := do
  let b ← get
  match b.symbols.registry.get? qualifiedName with
  | none => return none
  | some entity =>
    if entity.source = source ∧ entity.kind = kind ∧ qualifiedName ∉ b.built then
      set { b with built := qualifiedName :: b.built }
      return some entity
    else
      return none

/-- Binds a reference of a field of the owner and records the edge. -/
def link (context : BuildContext) (owner : Entity) (field reference : String) :
    Step FieldKind := do
  let b ← get
  let (outcome, symbols) := b.symbols.resolve context.showMissing owner.qualifiedName reference
  match outcome with
  | .ok .scalar =>
    set { b with symbols }
    return .scalar
  | .ok (.entity qualifiedName) =>
    match symbols.registry.get? qualifiedName with
    | some target =>
      set { b with symbols, graph := b.graph.record owner.nodeId field target.nodeId }
      return .ofEntityKind target.kind
    | none =>
      set { b with symbols }
      return .unresolved
  | .error e =>
    set { b with symbols, report := { b.report with errors := b.report.errors ++ [e] } }
    return .unresolved

/-- Gives an entity the fragment drawn for its rows. -/
def attach (context : BuildContext) (entity : Entity) (rows : List BodyRow) : Step Unit :=
  modify fun b =>
    { b with symbols := { b.symbols with
        registry := b.symbols.registry.setArtifact entity.qualifiedName
          (context.renderer entity rows) } }

/-- The row of a field. -/
def fieldRow (context : BuildContext) (owner : Entity) (oneof : Option String) (field : Field) :
    Step BodyRow := do
  let kind ← link context owner field.name field.typeName
  return .field field.label.text field.typeName field.name field.number kind oneof

/-- The rows of the members of a oneof. -/
def oneofRows (context : BuildContext) (owner : Entity) (oneof : String) :
    List OneofElement → Step (List BodyRow)
  | [] => return []
  | .field field :: rest => do
    let row ← fieldRow context owner (some oneof) field
    let rows ← oneofRows context owner oneof rest
    return row :: rows
  | .group _ name _ _ _ :: rest => do
    unsupported (.group name) owner.qualifiedName
    oneofRows context owner oneof rest
  | .option _ :: rest => oneofRows context owner oneof rest
  | .comment _ :: rest => oneofRows context owner oneof rest

/-- Processes an enum declared in the given scope. -/
def buildEnum (context : BuildContext) (source scope : String) (decl : EnumDecl) : Step Unit := do
  match ← claimBody source (Name.qualify scope decl.name) .enum with
  | none => return ()
  | some entity =>
    attach context entity <| decl.elements.filterMap fun
      | .value v => some (.value v.name v.number)
      | _ => none

mutual

/-- The rows of an element of the owner's body; a nested declaration is processed and has none. -/
def elementRows (context : BuildContext) (source : String) (owner : Entity) :
    MessageElement → Step (List BodyRow)
  | .field field => do return [← fieldRow context owner none field]
  | .map m => do
    let kind ← link context owner m.name m.valueType
    return [.map m.keyType m.valueType m.name m.number kind]
  | .oneof name members => oneofRows context owner name members
  | .message name elements _ => do
    match ← claimBody source (Name.qualify owner.qualifiedName name) .message with
    | none => return []
    | some entity =>
      let rows ← bodyRows context source entity elements
      attach context entity rows
      return []
  | .enum decl => do
    buildEnum context source owner.qualifiedName decl
    return []
  | .group _ name _ _ _ => do
    unsupported (.group name) owner.qualifiedName
    return []
  | .extend target _ _ => do
    unsupported (.extend target) owner.qualifiedName
    return []
  | .reserved _ => return []
  | .extensions _ => return []
  | .option _ => return []
  | .comment _ => return []

/-- The rows of the owner's body. -/
def bodyRows (context : BuildContext) (source : String) (owner : Entity) :
    List MessageElement → Step (List BodyRow)
  | [] => return []
  | e :: es => do
    let first ← elementRows context source owner e
    let rest ← bodyRows context source owner es
    return first ++ rest

end

/-- Processes a message declared in the given scope. -/
def buildMessage (context : BuildContext) (source scope : String) (decl : Message) :
    Step Unit := do
  match ← claimBody source (Name.qualify scope decl.name) .message with
  | none => return ()
  | some entity =>
    let rows ← bodyRows context source entity decl.elements
    attach context entity rows

/-- The field of the edge to the request type of a method. -/
def requestField (rpc : String) : String :=
  rpc ++ "_request"

/-- The field of the edge to the response type of a method. -/
def responseField (rpc : String) : String :=
  rpc ++ "_response"

/-- The row of a method. -/
def rpcRow (context : BuildContext) (owner : Entity) (rpc : Rpc) : Step BodyRow := do
  let requestKind ← link context owner (requestField rpc.name) rpc.requestType
  let responseKind ← link context owner (responseField rpc.name) rpc.responseType
  return .rpc rpc.name rpc.requestType rpc.responseType rpc.clientStreaming rpc.serverStreaming
    requestKind responseKind

/-- Processes a service declared in the given scope. -/
def buildService (context : BuildContext) (source scope : String) (decl : Service) :
    Step Unit := do
  match ← claimBody source (Name.qualify scope decl.name) .service with
  | none => return ()
  | some entity =>
    let rows ← decl.rpcs.mapM (rpcRow context entity)
    attach context entity rows

/-- Processes an element of a file in the given package. -/
def buildFileElement (context : BuildContext) (source package : String) :
    FileElement → Step Unit
  | .message decl => buildMessage context source package decl
  | .enum decl => buildEnum context source package decl
  | .service decl => buildService context source package decl
  | .extend decl => unsupported (.extend decl.target) package
  | .option _ | .comment _ => return ()

/-- Processes the declarations of a file. -/
def buildFile (context : BuildContext) (source : String) (file : SchemaFile) : Step Unit :=
  file.elements.forM (buildFileElement context source file.packageName)

/-- Draws the placeholders that have no fragment yet. -/
def drawPlaceholders (context : BuildContext) : Step Unit := do
  let placeholders := (← get).symbols.registry.all.filter fun e =>
    e.kind = .missing ∧ e.artifact = none
  placeholders.forM fun e => attach context e []

/-- Processes the given files one after the other, then the placeholders they lead to. -/
def buildAll (context : BuildContext) (files : List (String × SchemaFile)) : Step Unit := do
  files.forM fun f => buildFile context f.1 f.2
  drawPlaceholders context

/-- A build that starts from the given symbols and edges. -/
def start (symbols : Symbols) (graph : InclusionGraph) : Build :=
  ⟨symbols, graph, .empty, []⟩

end Build
end SchemaGraph
