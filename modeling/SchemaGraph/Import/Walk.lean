import SchemaGraph.Import.Unit
import SchemaGraph.Registry.Declare
/-!
# The import walk

Starting from a root, the walk loads, reads and declares each text it meets, then follows its
imports in their order. A unit is entered before its imports are followed, so that cycles end. What
cannot be loaded becomes a missing unit if that is tolerated.
-/

namespace SchemaGraph

/-- What a run tolerates. -/
structure RunOptions where
  /-- Imports of other texts than the root may be missing. -/
  allowMissingImports : Bool
  /-- References that nothing answers become placeholders. -/
  showMissingTypes : Bool
  deriving DecidableEq, Repr

/-- The state of a walk. -/
structure Walk where
  registry : Registry
  units : UnitTable
  /-- The files read, in the order in which their imports were completed. -/
  files : List (String × SchemaFile)
  /-- The declarations rejected because their qualified names were taken. -/
  duplicates : List Duplicate

namespace Walk

/-- A walk that has met nothing. -/
def start (registry : Registry) : Walk :=
  ⟨registry, .empty, [], []⟩

/-- The walk with the file of a unit entered and its contents declared. -/
def enter (w : Walk) (identifier : String) (file : SchemaFile) : Walk :=
  let (duplicates, registry) := w.registry.declareFile identifier file
  { w with
    registry
    units := w.units.insert identifier (.ofFile identifier file)
    duplicates := w.duplicates ++ duplicates }

/-- The walk with a unit that could not be loaded. -/
def enterAbsent (w : Walk) (identifier : String) : Walk :=
  { w with units := w.units.insert identifier (.absent identifier) }

/-- The walk with the file of a unit completed. -/
def complete (w : Walk) (identifier : String) (file : SchemaFile) : Walk :=
  { w with files := w.files ++ [(identifier, file)] }

/-- The walk after an import statement has been followed: a weak one marks the unit of that name. -/
def markWeak (w : Walk) (statement : Import) : Walk :=
  if statement.modifier = .weak then
    { w with units := w.units.modify statement.path fun unit => { unit with weak := true } }
  else w

/-- Follows import statements one after the other, each with `visit`, up to the first failure. -/
def followWith (visit : String → Walk → Except WalkError Unit × Walk) :
    List Import → Walk → Except WalkError Unit × Walk
  | [], w => (.ok (), w)
  | statement :: rest, w =>
    match visit statement.path w with
    | (.error e, w) => (.error e, w)
    | (.ok (), w) => followWith visit rest (w.markWeak statement)

/-- The text of a name, which may be the text itself. -/
def textOf (loader : Loader) (name : String) : Except FileError String :=
  if isInlineText name then .ok name else loader.load name

/--
Visits a name that `importer` imports; the root has no importer. At most `depth` visits are nested,
and `Walk.depthBound` is more than any walk needs.
-/
def visit (loader : Loader) (options : RunOptions) :
    (depth : Nat) → (importer : Option String) → String → Walk → Except WalkError Unit × Walk
  | 0, _, _, w => (.ok (), w)
  | depth + 1, importer, name, w =>
    let identifier := unitIdentifier name
    if w.units.contains identifier then (.ok (), w)
    else
      match textOf loader name with
      | .error e =>
        if importer.isSome ∧ options.allowMissingImports then (.ok (), w.enterAbsent identifier)
        else (.error (.missingImport name importer e), w)
      | .ok text =>
        match parseSchema identifier text with
        | .error e => (.error (.parse e), w)
        | .ok file =>
          match followWith (visit loader options depth (some identifier)) file.imports
              (w.enter identifier file) with
          | (.error e, w) => (.error e, w)
          | (.ok (), w) => (.ok (), w.complete identifier file)

/-- A bound on how deep visits nest: each visit that reads a text either takes a new name of the
loader or reads an inline text that is shorter than the text around it. -/
def depthBound (loader : Loader) (root : String) : Nat :=
  (loader.nameBound + 1) * (max loader.lengthBound root.length + 1) + 1

/-- Walks from a root, which is the name of a text or itself a text. -/
def run (loader : Loader) (options : RunOptions) (root : String) (registry : Registry) :
    Except WalkError Unit × Walk :=
  visit loader options (depthBound loader root) none root (start registry)

end Walk
end SchemaGraph
