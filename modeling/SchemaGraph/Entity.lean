import SchemaGraph.Name
/-!
# Entities

What a schema declares under a qualified name: messages, enums, services and their methods, and the
placeholders that stand for references nothing answers.
-/

namespace SchemaGraph

/-- The kinds of entities. -/
inductive EntityKind where
  | message | enum | service | rpc
  /-- A placeholder for a reference that nothing answers. -/
  | missing
  deriving DecidableEq, Repr

namespace EntityKind

/-- Every kind. -/
def all : List EntityKind :=
  [message, enum, service, rpc, missing]

/-- The name of a kind. -/
def text : EntityKind → String
  | message => "message"
  | enum => "enum"
  | service => "service"
  | rpc => "rpc"
  | missing => "missing"

/-- The kind of a name. -/
def ofText? (s : String) : Option EntityKind :=
  all.find? (·.text = s)

/-- Whether entities of the kind can be the type of a field. -/
def isType : EntityKind → Bool
  | message | enum => true
  | _ => false

end EntityKind

/-- The signature of a method, its types as written, with the service that owns it. -/
structure RpcSignature where
  service : String
  request : String
  response : String
  clientStreaming : Bool
  serverStreaming : Bool
  deriving DecidableEq, Repr

/-- A declared entity or a placeholder. -/
structure Entity where
  qualifiedName : String
  /-- The last part of the qualified name; for a placeholder the reference as written. -/
  name : String
  kind : EntityKind
  /-- The identifier of the entity's node in diagrams. -/
  nodeId : String
  /-- The unit that declares the entity. -/
  source : String
  /-- The qualified name of the message or service that encloses the entity. -/
  parent : Option String
  /-- The drawn fragment, once the body has been processed. -/
  artifact : Option String
  rpc : Option RpcSignature
  deriving DecidableEq, Repr

/-- The qualified name without the short name. -/
def Entity.namespace (e : Entity) : String :=
  Name.namespaceOf e.qualifiedName e.name

end SchemaGraph
