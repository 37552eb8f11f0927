import SchemaGraph.Graph.Build
import SchemaGraph.Import.Unit
/-!
# Statistics

What a finished run counts.
-/

namespace SchemaGraph

/-- The numbers that describe a run. -/
structure Statistics where
  entityCount : Nat
  edgeCount : Nat
  fileCount : Nat
  missingFileCount : Nat
  /-- The number of entities of each kind that has some, by the name of the kind. -/
  entitiesByKind : Table String Nat
  unresolvedCount : Nat
  unsupportedCount : Nat
  /-- The messages and enums that no edge leads to, sorted by qualified name. -/
  unreferencedTypes : List String

/-- The messages and enums that no edge leads to, sorted by qualified name. -/
def Registry.unreferencedTypes (r : Registry) (graph : InclusionGraph) : List String :=
  let referenced := graph.edges.values.flatMap Table.keys
  (r.all.filter fun e => e.kind.isType ∧ e.nodeId ∉ referenced).map (·.qualifiedName)

/-- The number of entities of each kind that has some. -/
def Registry.countByKind (r : Registry) : Table String Nat :=
  r.all.foldl (fun counts e => counts.alter e.kind.text fun count? => count?.getD 0 + 1) .empty

/-- The statistics of a run. -/
def Statistics.of (r : Registry) (graph : InclusionGraph) (units : UnitTable)
    (report : BuildReport) : Statistics where
  entityCount := r.size
  edgeCount := graph.edgeCount
  fileCount := units.values.countP (!·.missing)
  missingFileCount := units.values.countP (·.missing)
  entitiesByKind := r.countByKind
  unresolvedCount := (r.countByKind.get? EntityKind.missing.text).getD 0
  unsupportedCount := report.unsupported.length
  unreferencedTypes := r.unreferencedTypes graph

end SchemaGraph
