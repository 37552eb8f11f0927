import SchemaGraph.Entity
import SchemaGraph.Error
import SchemaGraph.Table
/-!
# The registry of entities

A `Registry` holds the entities of one run by qualified name, the qualified names that share a
short name, and the node identifiers. A node identifier belongs to a pair of a short name and a
qualified name: it is the short name made fit for a diagram, with a number that no other one has.
-/

namespace SchemaGraph

/-- The entities of one run. -/
structure Registry where
  entities : Table String Entity
  /-- The qualified names declared under each short name, in declaration order. Placeholders are
  not listed. -/
  shortNames : Table String (List String)
  /-- The node identifier of each pair of a short name and a qualified name. -/
  nodeIds : List ((String × String) × String)
  /-- The qualified name of each node identifier. -/
  nodeTargets : List (String × String)
  /-- The number of the next node identifier. -/
  nextNumber : Nat

namespace Registry

/-- The number of the first node identifier. -/
def firstNumber : Nat := 100

/-- The registry without entities. -/
def empty : Registry :=
  ⟨.empty, .empty, [], [], firstNumber⟩

/-- The entity of a qualified name. -/
def get? (r : Registry) (qualifiedName : String) : Option Entity :=
  r.entities.get? qualifiedName

/-- The qualified names declared under a short name, in declaration order. -/
def candidates (r : Registry) (shortName : String) : List String :=
  (r.shortNames.get? shortName).getD []

/-- The qualified name of a node identifier. -/
def nodeTarget? (r : Registry) (nodeId : String) : Option String :=
  r.nodeTargets.lookup nodeId

/-- The entity of a node identifier. -/
def byNodeId? (r : Registry) (nodeId : String) : Option Entity :=
  (r.nodeTarget? nodeId).bind r.get?

/-- All entities, sorted by qualified name. -/
def all (r : Registry) : List Entity :=
  r.entities.values

/-- The number of entities. -/
def size (r : Registry) : Nat :=
  r.entities.size

/-- Adds an entity, unless its qualified name is taken. -/
def declare (r : Registry) (entity : Entity) : Except Duplicate Registry :=
  match r.get? entity.qualifiedName with
  | some present => .error ⟨entity.qualifiedName, present.source⟩
  | none =>
    let shortNames :=
      if entity.kind = .missing then r.shortNames
      else r.shortNames.alter entity.name fun names => names.getD [] ++ [entity.qualifiedName]
    .ok { r with entities := r.entities.insert entity.qualifiedName entity, shortNames }

/-- Whether a character may stand in the name of a node. -/
def isNodeChar (c : Char) : Bool :=
  c.isAlphanum || c == '_'

/-- A short name with every other character than those of node names replaced. -/
def nodeName (shortName : String) : String :=
  String.ofList (shortName.toList.map fun c => if isNodeChar c then c else '_')

/-- The node identifier of a pair, which gets one at its first request. -/
def nodeIdFor (r : Registry) (shortName qualifiedName : String) : String × Registry :=
  match r.nodeIds.lookup (shortName, qualifiedName) with
  | some nodeId => (nodeId, r)
  | none =>
    let nodeId := nodeName shortName ++ "_" ++ toString r.nextNumber
    (nodeId, { r with
      nodeIds := ((shortName, qualifiedName), nodeId) :: r.nodeIds
      nodeTargets := (nodeId, qualifiedName) :: r.nodeTargets
      nextNumber := r.nextNumber + 1 })

/-- The qualified name of the placeholder for a reference inside an owner. -/
def placeholderName (ownerId reference : String) : String :=
  "missing." ++ ownerId ++ "." ++ reference

/-- The placeholder for a reference inside an owner, which is created at its first request. -/
def placeholder (r : Registry) (ownerId reference source : String) : Entity × Registry :=
  let qualifiedName := placeholderName ownerId reference
  match r.get? qualifiedName with
  | some present => (present, r)
  | none =>
    let (nodeId, r) := r.nodeIdFor reference qualifiedName
    let entity : Entity :=
      { qualifiedName, name := reference, kind := .missing, nodeId, source, parent := none,
        artifact := none, rpc := none }
    (entity, { r with entities := r.entities.insert qualifiedName entity })

/-- Gives an entity its drawn fragment. -/
def setArtifact (r : Registry) (qualifiedName artifact : String) : Registry :=
  { r with
    entities := r.entities.modify qualifiedName fun e => { e with artifact := some artifact } }

end Registry
end SchemaGraph
