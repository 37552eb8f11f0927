import SchemaGraph.Proofs.Binding.LexicalScope
import SchemaGraph.Proofs.Dot.Nodes
import SchemaGraph.Proofs.Graph.Placeholders
import SchemaGraph.Proofs.Registry.Labels
/-!
# The document of a whole graph

Rows give their cells the names of fields, edges keep the fields of references, and nodes are
regrouped by units. `LoadedGraph.renderWhole_drawnAs` says that all of this fits together: every
entity but the methods has its node in the block of its unit, and every edge has its arrow, which
runs from a cell of one of these nodes to another one.
-/

namespace SchemaGraph

namespace LoadedGraph

variable {loader : Loader} {options : RunOptions} {root : String} {g : LoadedGraph} {walk : Walk}
  {entered : List (String × SchemaFile)}

/-! ## Nodes -/

/-- The symbols of a loaded graph tell entities by their names and by their identifiers. -/
theorem coherent_registry {renderer : Renderer} (h : load loader options renderer root = .ok g) :
    g.registry.Coherent := by
  obtain ⟨r, winners, hsettled⟩ := load_settled h
  exact hsettled.symbols.coherent

end LoadedGraph
end SchemaGraph
