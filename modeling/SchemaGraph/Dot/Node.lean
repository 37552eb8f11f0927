import SchemaGraph.Dot.Escape
import SchemaGraph.Graph.Body
/-!
# Nodes of entities

An entity is drawn as a table with one row per row of its body. A cell to which an edge can attach
has a name, its anchor: `po_` and the field. A placeholder is a dashed box; a method is drawn as a
row of its service and has no node.
-/

namespace SchemaGraph.Dot

def messageColor : String := "#3b6ea5"
def enumColor : String := "#4f8a3c"
def serviceColor : String := "#8a5a9c"
def missingColor : String := "#cc0000"
def missingFill : String := "#ffecec"

/-- The colour of a type name. -/
def kindColor : FieldKind → String
  | .message => messageColor
  | .enum => enumColor
  | .missing | .unresolved => missingColor
  | .scalar => "#000000"

/-- A type name in the colour of its kind. -/
def typeCell (typeName : String) (kind : FieldKind) : String :=
  "<font color=\"" ++ kindColor kind ++ "\">" ++ escapeHtml typeName ++ "</font>"

/-- The name of the cell of a field, to which its edges attach. -/
def anchor (field : String) : String :=
  "po_" ++ field

/-- The table of an entity under a header of the given colour and title. -/
def table (entity : Entity) (color title : String) (columns : Nat) (rows : List String) : String :=
  "    " ++ entity.nodeId ++ " [shape=plaintext, label=<\n" ++
  "      <table border=\"0\" cellborder=\"1\" cellspacing=\"0\" cellpadding=\"3\">\n" ++
  "        <tr><td colspan=\"" ++ toString columns ++ "\" port=\"header\" bgcolor=\"" ++ color ++
  "\"><font color=\"#ffffff\"><b>" ++ escapeHtml title ++ "</b><br/>" ++
  escapeHtml entity.qualifiedName ++ "</font></td></tr>\n" ++
  String.join rows ++ "      </table>>];\n"

/-- The row of a field of a message: a label, a type, a name in an anchored cell and a number. -/
def fieldRow (label type name : String) (number : UInt32) : String :=
  "        <tr><td align=\"left\">" ++ label ++ "</td><td align=\"left\">" ++ type ++
  "</td><td align=\"left\" port=\"" ++ anchor name ++ "\">" ++ escapeHtml name ++
  "</td><td align=\"right\">" ++ toString number.toNat ++ "</td></tr>\n"

/-- The row of a message for a row of its body, if it is one of a message. -/
def messageRow? : BodyRow → Option String
  | .field label typeName name number kind oneof =>
    let label :=
      match oneof with
      | some group => "oneof " ++ group
      | none => label
    some (fieldRow (escapeHtml label) (typeCell typeName kind) name number)
  | .map keyType valueType name number kind =>
    some (fieldRow "map" (escapeHtml keyType ++ ", " ++ typeCell valueType kind) name number)
  | .value _ _ => none
  | .rpc _ _ _ _ _ _ _ => none

/-- The row of an enum for a row of its body, if it is one of an enum. -/
def enumRow? : BodyRow → Option String
  | .value name number =>
    some ("        <tr><td align=\"left\">" ++ escapeHtml name ++ "</td><td align=\"right\">" ++
      toString number ++ "</td></tr>\n")
  | _ => none

/-- The word before a streamed type. -/
def streamWord (streaming : Bool) : String :=
  if streaming then "stream " else ""

/-- The row of a service for a row of its body, if it is one of a service. -/
def serviceRow? : BodyRow → Option String
  | .rpc name request response clientStreaming serverStreaming requestKind responseKind =>
    some ("        <tr><td align=\"left\" port=\"" ++ anchor (name ++ "_request") ++ "\">" ++
      streamWord clientStreaming ++ typeCell request requestKind ++ "</td><td>" ++
      escapeHtml name ++ "</td><td align=\"left\" port=\"" ++ anchor (name ++ "_response") ++
      "\">" ++ streamWord serverStreaming ++ typeCell response responseKind ++ "</td></tr>\n")
  | _ => none

/-- The box of a placeholder. -/
def missingBox (entity : Entity) : String :=
  "    " ++ entity.nodeId ++ " [shape=box, style=\"dashed,filled\", color=\"" ++ missingColor ++
  "\", fillcolor=\"" ++ missingFill ++ "\", fontcolor=\"" ++ missingColor ++ "\", label=\"" ++
  escapeQuoted entity.name ++ " (missing)\"];\n"

/-- The node of an entity. -/
def renderEntity : Renderer := fun entity rows =>
  match entity.kind with
  | .message => table entity messageColor entity.name 4 (rows.filterMap messageRow?)
  | .enum => table entity enumColor ("enum " ++ entity.name) 2 (rows.filterMap enumRow?)
  | .service => table entity serviceColor ("service " ++ entity.name) 3 (rows.filterMap serviceRow?)
  | .missing => missingBox entity
  | .rpc => ""

end SchemaGraph.Dot
