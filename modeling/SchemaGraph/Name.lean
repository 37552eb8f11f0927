import SchemaGraph.Text.Blank
/-!
# Dotted names

Tests on qualified names as texts. A *component* is a piece between dots; the tests compare whole
components, so that `b.C` ends `a.b.C` but not `ab.C`.
-/

namespace SchemaGraph.Name

/-- The names of the built-in scalar types. -/
def scalarTypes : List String :=
  ["double", "float", "int32", "int64", "uint32", "uint64", "sint32", "sint64", "fixed32",
    "fixed64", "sfixed32", "sfixed64", "bool", "string", "bytes"]

/-- Whether a name is that of a built-in scalar type. -/
def isScalar (name : String) : Bool :=
  scalarTypes.contains name

/-- The name `short` inside `parent`; the empty `parent` encloses everything. -/
def qualify (parent short : String) : String :=
  if parent = "" then short else parent ++ "." ++ short

/-- What stands before `short` and the dot before it at the end of `qualified`; empty when
`qualified` does not end with `short`. -/
def namespaceOf (qualified short : String) : String :=
  match short.toList.isSuffixOf? qualified.toList with
  | none => ""
  | some before =>
    String.ofList (if before.getLast? = some '.' then before.dropLast else before)

/-- Whether `parent` is made of the first components of `scope`. The empty `parent` always is. -/
def isScopePrefix (parent scope : String) : Bool :=
  parent = "" || parent = scope ||
    match parent.toList.isPrefixOf? scope.toList with
    | some rest => rest.head? = some '.'
    | none => false

/-- Whether `suffix` is made of the last components of `qualified`. -/
def hasComponentSuffix (qualified suffix : String) : Bool :=
  qualified = suffix ||
    match suffix.toList.isSuffixOf? qualified.toList with
    | some before => before.getLast? = some '.'
    | none => false

/-- The last component of a name. -/
def lastComponent (name : String) : String :=
  String.ofList ((Text.splitAt (· == '.') name.toList).getLast?.getD [])

/-- A name without the dot at its start; none when there is no such dot. -/
def absolute? (name : String) : Option String :=
  match name.toList with
  | '.' :: rest => some (String.ofList rest)
  | _ => none

/-- Whether the characters `part` stand one after the other somewhere in a list. -/
def isInfix (part : List Char) : List Char → Bool
  | [] => part.isEmpty
  | c :: cs => part.isPrefixOf (c :: cs) || isInfix part cs

/-- Whether `part` occurs in `text`. -/
def occursIn (part text : String) : Bool :=
  isInfix part.toList text.toList

end SchemaGraph.Name
