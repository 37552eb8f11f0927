import SchemaGraph.Dot.Document
import SchemaGraph.Graph.Selection
import SchemaGraph.Graph.Statistics
import SchemaGraph.Import.Walk
/-!
# Loaded graphs

`LoadedGraph.load` walks the imports of a root, builds the inclusion graph of all files reached and
keeps what drawings and statistics need. A loaded graph answers any number of selections.
-/

namespace SchemaGraph

/-- The graph of a root with all it reaches. -/
structure LoadedGraph where
  /-- The identifier of the root unit. -/
  root : String
  options : RunOptions
  symbols : Symbols
  graph : InclusionGraph
  units : UnitTable
  report : BuildReport

namespace LoadedGraph

/-- The build over the files of a walk. -/
def buildOf (renderer : Renderer) (options : RunOptions) (walk : Walk) : Build :=
  let start := Build.start (.ofRegistry walk.registry) .empty
  (Build.buildAll ⟨renderer, options.showMissingTypes⟩ walk.files start).2

/-- Loads the graph of a root, which is the name of a text or itself a text. It fails with the
first reference that binds to nothing. -/
def load (loader : Loader) (options : RunOptions) (renderer : Renderer) (root : String) :
    Except LoadError LoadedGraph :=
  match Walk.run loader options root .empty with
  | (.error e, _) => .error (.walk e)
  | (.ok (), walk) =>
    let build := buildOf renderer options walk
    match build.report.errors with
    | e :: _ => .error (.binding e)
    | [] =>
      .ok
        { root := unitIdentifier root
          options
          symbols := build.symbols
          graph := build.graph
          units := walk.units
          report := { build.report with duplicates := walk.duplicates.length } }

/-- The registry of the graph. -/
def registry (g : LoadedGraph) : Registry :=
  g.symbols.registry

/-- The package of the root unit. -/
def package (g : LoadedGraph) : String :=
  ((g.units.get? g.root).map (·.package)).getD ""

/-- The statistics of the graph. -/
def statistics (g : LoadedGraph) : Statistics :=
  .of g.registry g.graph g.units g.report

/-- The subgraph of a selection, and the graph to go on with. -/
def select (g : LoadedGraph) (selection : String) :
    Except SelectionError Subgraph × LoadedGraph :=
  let (outcome, symbols) := g.symbols.select g.options.showMissingTypes g.graph selection g.root
  (outcome, { g with symbols })

/-- The header of a document of the graph. -/
def header (g : LoadedGraph) (selection : Option String) : Dot.Header :=
  ⟨g.root, g.package, selection⟩

/-- The document of the whole graph, with a cluster for each unit but the root. -/
def renderWhole (g : LoadedGraph) : String :=
  Dot.renderGraph (g.header none) g.registry.all g.graph.edges g.registry
    (.bySource (some g.root))

/-- The document of a selection, and the graph to go on with. -/
def renderSelection (g : LoadedGraph) (selection : String) :
    Except SelectionError String × LoadedGraph :=
  match g.select selection with
  | (.error e, g) => (.error e, g)
  | (.ok subgraph, g) =>
    (.ok (Dot.renderGraph (g.header (some selection)) subgraph.entities subgraph.edges g.registry
      .flat), g)

/-- The document of the import tree. -/
def renderImports (g : LoadedGraph) : String :=
  Dot.renderImports (g.header (some selectImports)) g.units

/-- The document that a selection asks for: that of the whole graph when it is absent or blank, that
of the imports for its keyword, and otherwise that of the selected part. -/
def render (g : LoadedGraph) (selection : Option String) :
    Except SelectionError String × LoadedGraph :=
  let selection := Text.trim (selection.getD "")
  if selection = "" then (.ok g.renderWhole, g)
  else if selection = selectImports then (.ok g.renderImports, g)
  else g.renderSelection selection

end LoadedGraph
end SchemaGraph
