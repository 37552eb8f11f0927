import SchemaGraph.Dot.Node
import SchemaGraph.Graph.Inclusion
import SchemaGraph.Import.Unit
import SchemaGraph.Registry.Basic
import SchemaGraph.Text.Blank
/-!
# DOT documents

A document has a comment that says what it shows, settings for the drawing, its nodes and its
arrows. `renderGraph` shows entities and inclusion edges, `renderImports` shows units and imports.
-/

namespace SchemaGraph.Dot

/-- The version named in documents. -/
def version : String := "0.3.0"

/-- What the comment at the top of a document says. -/
structure Header where
  source : String
  package : String
  selection : Option String

/-- How the nodes of a document are arranged. -/
inductive Grouping where
  /-- All nodes at top level. -/
  | flat
  /-- The nodes of each unit in a cluster; those of the unwrapped unit at top level. -/
  | bySource (unwrapped : Option String)

/-- The lines of a document up to its nodes. -/
def headerLines (header : Header) : List String :=
  ["/*\n",
    "    generated by protograph " ++ version ++ "\n",
    "    source:    " ++ escapeComment header.source ++ "\n",
    "    package:   " ++ escapeComment header.package ++ "\n"] ++
  (match header.selection with
    | some selection => ["    selection: " ++ escapeComment selection ++ "\n"]
    | none => []) ++
  ["*/\n",
    "digraph protograph \x7b\n",
    "    graph [rankdir=LR, fontname=\"Helvetica\", fontsize=10, nodesep=0.4];\n",
    "    node [fontname=\"Helvetica\", fontsize=10];\n",
    "    edge [fontname=\"Helvetica\", fontsize=9];\n"]

/-- A document of the given nodes and arrows, the latter under a title. -/
def document (header : Header) (nodes : List String) (title : String) (arrows : List String) :
    String :=
  String.join (headerLines header ++ ["\n    // nodes\n"] ++ nodes ++
    ["\n    // " ++ title ++ "\n"] ++ arrows ++ ["\x7d\n"])

/-! ## Entities -/

/-- The style of an arrow to an entity of a kind. -/
def edgeStyle : EntityKind → String
  | .enum => "[style=dashed, color=\"#4f8a3c\", arrowhead=diamond]"
  | .missing => "[style=dotted, color=\"#cc0000\", arrowhead=odot]"
  | _ => "[style=solid, color=\"#3b6ea5\"]"

/-- The last part of a path written with slashes or backslashes. -/
def shortSource (source : String) : String :=
  (Text.split (fun c => c == '/' || c == '\\') source).getLast?.getD source

/-- The entities that have a node, by their units. -/
def bySource (entities : List Entity) : Table String (List String) :=
  entities.foldl (fun groups e =>
    match e.artifact with
    | some artifact => groups.alter e.source fun present? => present?.getD [] ++ [artifact]
    | none => groups) .empty

/-- The nodes of one unit, in a cluster unless it is the unwrapped one. -/
def cluster (unwrapped : Option String) (source : String) (artifacts : List String) :
    List String :=
  if unwrapped = some source then
    ("    // " ++ oneLine source ++ "\n") :: artifacts
  else
    ["    subgraph " ++ clusterId source ++ " \x7b\n",
      "        label=\"" ++ escapeQuoted (shortSource source) ++ "\"; tooltip=\"" ++
        escapeQuoted source ++
        "\"; style=dashed; color=\"#999999\"; fontcolor=\"#666666\";\n"] ++
    artifacts ++ ["    \x7d\n"]

/-- The nodes of the entities that have one. -/
def graphNodes (entities : List Entity) : Grouping → List String
  | .flat => entities.filterMap (·.artifact)
  | .bySource unwrapped =>
    (bySource entities).entries.flatMap fun group => cluster unwrapped group.1 group.2

/-- The arrow of one edge. A target without entity is drawn as a placeholder would be. -/
def arrow (registry : Registry) (key : EdgeKey) (target : String) : String :=
  let kind := ((registry.byNodeId? target).map (·.kind)).getD .missing
  "    " ++ key.owner ++ ":" ++ anchor key.field ++ ":e -> " ++ target ++ " " ++
    edgeStyle kind ++ ";\n"

/-- The arrows of the edges. -/
def graphArrows (registry : Registry) (edges : EdgeTable) : List String :=
  edges.entries.flatMap fun e => e.2.keys.map (arrow registry e.1)

/-- The document of entities and inclusion edges. -/
def renderGraph (header : Header) (entities : List Entity) (edges : EdgeTable)
    (registry : Registry) (grouping : Grouping) : String :=
  document header (graphNodes entities grouping) "connections" (graphArrows registry edges)

/-! ## Imports -/

/-- The node of a unit. -/
def unitNode (unit : SourceUnit) : String :=
  let label := escapeQuoted (oneLine unit.identifier)
  if unit.missing then
    "    " ++ stableId unit.identifier ++ " [shape=box, style=dashed, color=\"" ++ missingColor ++
    "\", fontcolor=\"" ++ missingColor ++ "\", label=\"" ++ label ++ " (missing)\"];\n"
  else
    let package := if unit.package = "" then "" else "\\n" ++ escapeQuoted unit.package
    "    " ++ stableId unit.identifier ++ " [shape=box, style=rounded, label=\"" ++ label ++
    package ++ "\"];\n"

/-- The arrow of one import, dashed when it leads to a weak unit. -/
def importArrow (units : UnitTable) (unit : SourceUnit) (name : String) : String :=
  let style :=
    match units.get? name with
    | some target => if target.weak then " [style=dashed]" else ""
    | none => ""
  "    " ++ stableId unit.identifier ++ " -> " ++ stableId name ++ style ++ ";\n"

/-- The document of units and imports. -/
def renderImports (header : Header) (units : UnitTable) : String :=
  document header (units.values.map unitNode) "imports"
    (units.values.flatMap fun unit => unit.imports.map (importArrow units unit))

end SchemaGraph.Dot
