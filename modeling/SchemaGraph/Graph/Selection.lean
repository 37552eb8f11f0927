import SchemaGraph.Binding
import SchemaGraph.Graph.Build
import SchemaGraph.Text.Blank
/-!
# Selections

A selection is a list of fragments. Each one seeds an entity, or every declaration of the root
unit, and the selected subgraph is what inclusion edges reach from the seeds. A method as a seed
brings its service along with the edges of that one method.
-/

namespace SchemaGraph

/-- The fragment that seeds every declaration of the root unit. -/
def selectRootUnit : String := "*"

/-- The selection that asks for the import tree instead of entities. -/
def selectImports : String := "imports"

/-- The fragments of a selection: its pieces between semicolons, trimmed and not empty. -/
def splitSelection (selection : String) : List String :=
  ((Text.split (· == ';') selection).map Text.trim).filter (· ≠ "")

/-- A part of the graph. -/
structure Subgraph where
  /-- The entities, sorted by qualified name. -/
  entities : List Entity
  edges : EdgeTable
  /-- The qualified names of the seeds. -/
  roots : List String

/-- Whether an entity of that qualified name is part of the subgraph. -/
def Subgraph.contains (s : Subgraph) (qualifiedName : String) : Bool :=
  s.entities.any (·.qualifiedName = qualifiedName)

/-- What `next` reaches from the members of `queue`, apart from what has been seen, in at most
`fuel` steps. -/
def reachWithin (next : String → List String) :
    (fuel : Nat) → (queue seen : List String) → List String
  | 0, _, seen => seen
  | _, [], seen => seen
  | fuel + 1, x :: queue, seen =>
    if x ∈ seen then reachWithin next fuel queue seen
    else reachWithin next fuel (queue ++ next x) (x :: seen)

/-- The entities of the given qualified names, each once and sorted. -/
def Registry.sortedEntities (r : Registry) (names : List String) : List Entity :=
  (sortDistinct names).filterMap r.get?

namespace Registry

/-- The declared entities that a fragment matches: those whose qualified names end with it, and if
there are none those whose qualified names contain it. Placeholders match nothing. -/
def matching (r : Registry) (fragment : String) : List String :=
  let declared := (r.all.filter (·.kind ≠ .missing)).map (·.qualifiedName)
  match declared.filter fun name => Name.hasComponentSuffix name fragment with
  | [] => declared.filter fun name => Name.occursIn fragment name
  | found => found

/-- The one entity that a fragment matches. -/
def matchFragment (r : Registry) (fragment : String) : Except SelectionError String :=
  match r.matching fragment with
  | [only] => .ok only
  | candidates => .error ⟨fragment, candidates⟩

/-- The seeds of one fragment. -/
def seedsOfFragment (r : Registry) (root fragment : String) :
    Except SelectionError (List String) :=
  if fragment = selectRootUnit then
    .ok <| (r.all.filter fun e =>
      e.source = root ∧ (e.kind = .message ∨ e.kind = .enum ∨ e.kind = .service)).map
      (·.qualifiedName)
  else
    match r.matchFragment fragment with
    | .ok name => .ok [name]
    | .error e => .error e

/-- The seeds of a list of fragments. -/
def seedsOf (r : Registry) (root : String) : List String → Except SelectionError (List String)
  | [] => .ok []
  | fragment :: rest =>
    match r.seedsOfFragment root fragment with
    | .error e => .error e
    | .ok seeds =>
      match seedsOf r root rest with
      | .error e => .error e
      | .ok others => .ok (seeds ++ others)

/-- The edge table with only the targets whose node identifiers are known; a key without such
targets is left out. -/
def knownTargets (r : Registry) (targets : EdgeTargets) : EdgeTargets :=
  ⟨targets.entries.filter fun e => (r.nodeTarget? e.1).isSome, targets.sorted.filter _⟩

/-- The edges of an entity that lead to known targets. -/
def edgesOf (r : Registry) (graph : InclusionGraph) (qualifiedName : String) :
    List (EdgeKey × EdgeTargets) :=
  match r.get? qualifiedName with
  | none => []
  | some entity =>
    ((graph.edgesFrom entity.nodeId).map fun e => (e.1, r.knownTargets e.2)).filter
      fun e => !e.2.entries.isEmpty

/-- The qualified names that the edges of an entity lead to. -/
def successors (r : Registry) (graph : InclusionGraph) (qualifiedName : String) : List String :=
  (r.edgesOf graph qualifiedName).flatMap fun e => e.2.keys.filterMap r.nodeTarget?

/-- What edges reach from the given names, these included. -/
def reachable (r : Registry) (graph : InclusionGraph) (names : List String) : List String :=
  let steps := r.entities.keys.flatMap (r.successors graph)
  reachWithin (r.successors graph) (names.length + steps.length) names []

end Registry

/-- The state in which the seeds of a selection are gone through. -/
structure Seeding where
  symbols : Symbols
  /-- The edges of the methods among the seeds. -/
  edges : EdgeTable
  /-- The names from which edges are followed. -/
  starts : List String
  /-- The services of the methods among the seeds. -/
  services : List String

namespace Seeding

/-- The seeding after one of the two types of a method: the recorded edges of that field, and the
entity that the type is bound to. -/
def addRpcType (showMissing : Bool) (graph : InclusionGraph) (serviceId service field : String)
    (reference : String) (s : Seeding) : Seeding :=
  let key : EdgeKey := ⟨serviceId, field⟩
  let edges :=
    match graph.edges.get? key with
    | some recorded => s.edges.insert key recorded
    | none => s.edges
  match s.symbols.resolve showMissing service reference with
  | (.ok (.entity qualifiedName), symbols) =>
    let edges :=
      match symbols.registry.get? qualifiedName with
      | some target => edges.alter key fun targets? =>
          (targets?.getD .empty).alter target.nodeId fun count? => count?.getD 1
      | none => edges
    { s with symbols, edges, starts := s.starts ++ [qualifiedName] }
  | (_, symbols) => { s with symbols, edges }

/-- The seeding after a method. -/
def addRpc (showMissing : Bool) (graph : InclusionGraph) (rpc : Entity) (signature : RpcSignature)
    (s : Seeding) : Seeding :=
  let s :=
    match s.symbols.registry.get? signature.service with
    | none => s
    | some service =>
      (s.addRpcType showMissing graph service.nodeId signature.service
        (Build.requestField rpc.name) signature.request).addRpcType showMissing graph
        service.nodeId signature.service (Build.responseField rpc.name) signature.response
  { s with services := s.services ++ [signature.service] }

/-- The seeding after one seed; a name without an entity seeds nothing. -/
def addSeed (showMissing : Bool) (graph : InclusionGraph) (s : Seeding) (seed : String) :
    Seeding :=
  match s.symbols.registry.get? seed with
  | none => s
  | some entity =>
    let s :=
      match entity.kind, entity.rpc with
      | .rpc, some signature => s.addRpc showMissing graph entity signature
      | _, _ => s
    { s with starts := s.starts ++ [seed] }

end Seeding

namespace Symbols

/-- The subgraph that edges reach from the seeds, with the services of the methods among them. -/
def expand (symbols : Symbols) (showMissing : Bool) (graph : InclusionGraph)
    (seeds : List String) : Subgraph × Symbols :=
  let s := seeds.foldl (Seeding.addSeed showMissing graph) ⟨symbols, .empty, [], []⟩
  let registry := s.symbols.registry
  let reached := registry.reachable graph s.starts
  let edges := (reached.flatMap (registry.edgesOf graph)).foldl
    (fun edges e => edges.insert e.1 e.2) s.edges
  (⟨registry.sortedEntities (reached ++ s.services), edges, seeds⟩, s.symbols)

/-- The subgraph of a selection. -/
def select (symbols : Symbols) (showMissing : Bool) (graph : InclusionGraph)
    (selection root : String) : Except SelectionError Subgraph × Symbols :=
  match symbols.registry.seedsOf root (splitSelection selection) with
  | .error e => (.error e, symbols)
  | .ok seeds =>
    let (subgraph, symbols) := symbols.expand showMissing graph seeds
    (.ok subgraph, symbols)

end Symbols
end SchemaGraph
