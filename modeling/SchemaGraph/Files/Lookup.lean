import SchemaGraph.Files.Tree
import SchemaGraph.Import.Unit
/-!
# Looking up imports in a file tree

A name is looked up under the root directory, then as it is, then under each import path. A mapping
replaces names before that; a name may be mapped to a schema text instead of another name.
-/

namespace SchemaGraph

/-- Where imports are looked up. -/
structure ImportLookup where
  rootDirectory : String
  importPaths : List String
  mapping : Table String String

namespace ImportLookup

/-- The paths at which a name is looked up, in their order. -/
def candidates (lookup : ImportLookup) (name : String) : List String :=
  if Path.isAbsolute name then [name]
  else
    Path.join lookup.rootDirectory name :: name ::
      lookup.importPaths.map fun directory => Path.join directory name

/-- The text of the first candidate that is a file. -/
def loadFirst (t : FileTree) (name : String) : List String → Except FileError String
  | [] => .error ⟨.noCandidate, name⟩
  | path :: rest =>
    if t.isFile path then
      match t.readText path with
      | .ok text => .ok text
      | .error e => .error ⟨.unreadable e, path⟩
    else loadFirst t name rest

/-- The text of a name in a file tree. -/
def load (lookup : ImportLookup) (t : FileTree) (name : String) : Except FileError String :=
  let name' := (lookup.mapping.get? name).getD name
  if lookup.mapping.contains name ∧ isInlineText name' then .ok name'
  else loadFirst t name' (lookup.candidates name')

/-- The loader of a file tree. -/
def loader (lookup : ImportLookup) (t : FileTree) : Loader where
  load := lookup.load t
  nameBound := t.textSize + lookup.mapping.total String.length + 1
  lengthBound := t.textSize + lookup.mapping.total String.length

end ImportLookup
end SchemaGraph
