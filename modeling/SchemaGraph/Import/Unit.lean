import SchemaGraph.Schema.Basic
import SchemaGraph.Digest.Sha256
import SchemaGraph.Error
import SchemaGraph.Table
/-!
# Loaders and source units

A `Loader` gives the text of a name. It also bounds the texts it can give, which bounds every walk
through their imports. A unit is one schema text that an import walk reached. It is identified by
the name under which it was imported, or by a digest when the import is itself a schema text.
-/

namespace SchemaGraph

/-! ## Loaders -/

/-- A source of schema texts by name. -/
structure Loader where
  load : String → Except FileError String
  /-- A bound on the number of names that imports can lead to one below the other. -/
  nameBound : Nat
  /-- A bound on the number of characters of a text. -/
  lengthBound : Nat

/-- The loader that keeps its texts by name. -/
def Loader.ofTable (texts : Table String String) : Loader where
  load name :=
    match texts.get? name with
    | some text => .ok text
    | none => .error ⟨.unknownName, name⟩
  nameBound := texts.size
  lengthBound := (texts.values.map String.length).foldl max 0

/-! ## Units -/

/-- Whether a name is a schema text rather than the name of a file: it has several lines. -/
def isInlineText (name : String) : Bool :=
  1 < name.toList.count '\n'

/-- The identifier of a schema text. -/
def inlineIdentifier (content : String) : String :=
  String.ofList ("blob_".toList ++ (Digest.sha256 content).take 16)

/-- The identifier of the unit that a name stands for. -/
def unitIdentifier (name : String) : String :=
  if isInlineText name then inlineIdentifier name else name

/-- A schema text reached by an import walk. -/
structure SourceUnit where
  identifier : String
  package : String
  dialect : Dialect
  /-- The names in the import statements, as written and in their order. -/
  imports : List String
  /-- Whether the text could not be loaded. -/
  missing : Bool
  /-- Whether a weak import leads to the unit. -/
  weak : Bool
  deriving DecidableEq, Repr

namespace SourceUnit

/-- The unit of a name that could not be loaded. -/
def absent (identifier : String) : SourceUnit :=
  ⟨identifier, "", .proto2, [], true, false⟩

/-- The unit of a file. -/
def ofFile (identifier : String) (file : SchemaFile) : SourceUnit :=
  ⟨identifier, file.packageName, file.dialect, file.imports.map (·.path), false, false⟩

end SourceUnit

/-- Units by their identifiers. -/
abbrev UnitTable : Type :=
  Table String SourceUnit

end SchemaGraph
