import SchemaGraph.Schema.Basic
import SchemaGraph.Entity
/-!
# Bodies of entities

The rows of an entity as a renderer sees them: each one shows a field, a map, an enum value or a
method, with the kind of what its type stands for.
-/

namespace SchemaGraph

/-- What the type of a row stands for. -/
inductive FieldKind where
  | scalar | message | enum | missing
  /-- Neither a type nor a placeholder. -/
  | unresolved
  deriving DecidableEq, Repr

/-- The field kind of a target. -/
def FieldKind.ofEntityKind : EntityKind → FieldKind
  | .message => message
  | .enum => enum
  | .missing => missing
  | .service | .rpc => unresolved

/-- One row of a body. -/
inductive BodyRow where
  /-- A field; `oneof` names the oneof it belongs to. -/
  | field (label typeName name : String) (number : UInt32) (kind : FieldKind)
      (oneof : Option String)
  | map (keyType valueType name : String) (number : UInt32) (kind : FieldKind)
  | value (name : String) (number : Int)
  | rpc (name request response : String) (clientStreaming serverStreaming : Bool)
      (requestKind responseKind : FieldKind)
  deriving DecidableEq, Repr

/-- The fragment that is drawn for an entity with the given rows. -/
abbrev Renderer : Type :=
  Entity → List BodyRow → String

end SchemaGraph
