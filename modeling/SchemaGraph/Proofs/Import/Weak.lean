import SchemaGraph.Proofs.Import.Flags
/-!
# Weakly imported units

A weak import statement marks the unit that has the statement's path as its identifier. It does so
when the import has been followed, whatever the unit was then: missing, completed or still being
visited. The path of a schema text is no identifier, so that a weak import of such a text marks
nothing.
-/

namespace SchemaGraph

/-- Some weak import statement of the files imports the unit. -/
def WeaklyImported (files : List (String × SchemaFile)) (id : String) : Prop :=
  ∃ file ∈ files, ∃ s ∈ file.2.imports, s.modifier = .weak ∧ unitIdentifier s.path = id

/-- Some weak import statement of the files imports the unit by its name. -/
def WeaklyImportedByName (files : List (String × SchemaFile)) (id : String) : Prop :=
  ∃ file ∈ files, ∃ s ∈ file.2.imports,
    s.modifier = .weak ∧ isInlineText s.path = false ∧ unitIdentifier s.path = id

/-- Among identifiers of units, a statement names the unit just when its path does. -/
theorem weaklyImportedByName_iff {files : List (String × SchemaFile)} {id : String}
    (hid : isInlineText id = false) :
    WeaklyImportedByName files id ↔ ∃ file ∈ files, WeaklyNamed file.2.imports id := by
  constructor
  · rintro ⟨file, hfile, s, hs, hweak, hname, hunit⟩
    rw [unitIdentifier_eq_self hname] at hunit
    exact ⟨file, hfile, s, hs, hweak, hunit⟩
  · rintro ⟨file, hfile, s, hs, hweak, hpath⟩
    have hname : isInlineText s.path = false := by rw [hpath, hid]
    refine ⟨file, hfile, s, hs, hweak, hname, ?_⟩
    rw [unitIdentifier_eq_self hname, hpath]

namespace Walk

variable {loader : Loader} {options : RunOptions} {root : String} {registry : Registry} {w : Walk}

/-- The units of a walk stand under identifiers, not under schema texts. -/
theorem isInlineText_of_get? (h : run loader options root registry = (.ok (), w)) {id : String}
    {unit : SourceUnit} (hget : w.units.get? id = some unit) : isInlineText id = false := by
  have haccounted : Accounted loader options root w :=
    visit_accounted .root h ⟨fun hget => (by cases hget), fun hfile => (by cases hfile)⟩
  obtain ⟨name, -, rfl, -⟩ := haccounted.unit hget
  exact isInlineText_unitIdentifier name

/-- **Weak imports mark the units that they name.** When a walk has succeeded, a unit is weak just
when some file that has been read imports it weakly by its name, in whatever order weak and plain
imports of the unit were followed, and whether the unit was missing, completed or being visited. -/
theorem run_weak {texts : Table String String}
    (h : run (.ofTable texts) options root registry = (.ok (), w)) {id : String}
    {unit : SourceUnit} (hget : w.units.get? id = some unit) :
    unit.weak = true ↔ WeaklyImportedByName w.files id := by
  have hsuffices := (Loader.lists_ofTable texts).suffices root
  have hid := isInlineText_of_get? h hget
  exact (run_flags hsuffices h hget).2.trans (weaklyImportedByName_iff hid).symm

/-- A walk that succeeds ends in its second part. -/
theorem eq_ok_of_isOk {x : Except WalkError Unit × Walk} (h : x.1.isOk = true) :
    x = (.ok (), x.2) := by
  obtain ⟨outcome, w⟩ := x
  cases outcome with
  | error e => cases h
  | ok u => rfl

/-- Weak imports of the importing file itself, of a file that is being visited, of one that has been
completed and of a name without a text. -/
def weakTexts : Table String String :=
  .ofList [
    ("a", "import weak \"a\";import \"b\";import weak \"c\";import weak \"m\";import \"n\";"),
    ("b", "import weak \"a\";import \"c\";import \"m\";"), ("c", "import \"b\";")]

theorem run_weakTexts : ∃ w unit, run (.ofTable weakTexts) ⟨true, true⟩ "a" .empty = (.ok (), w) ∧
    w.units.values.map (fun u => (u.identifier, u.missing, u.weak)) =
      [("a", false, true), ("b", false, false), ("c", false, true), ("m", true, true),
        ("n", true, false)] ∧
    w.units.get? "m" = some unit ∧ (unit.weak = true ↔ WeaklyImportedByName w.files "m") := by
  have hwalk : (run (.ofTable weakTexts) ⟨true, true⟩ "a" .empty).1.isOk = true ∧
      (run (.ofTable weakTexts) ⟨true, true⟩ "a" .empty).2.units.values.map
          (fun u => (u.identifier, u.missing, u.weak)) =
        [("a", false, true), ("b", false, false), ("c", false, true), ("m", true, true),
          ("n", true, false)] ∧
      (run (.ofTable weakTexts) ⟨true, true⟩ "a" .empty).2.units.get? "m" =
        some { SourceUnit.absent "m" with weak := true } := by decide +kernel
  obtain ⟨hok, hvalues, hget⟩ := hwalk
  have hrun := eq_ok_of_isOk hok
  exact ⟨_, _, hrun, hvalues, hget, run_weak hrun hget⟩

/-- A weak import of a schema text, which is read as a unit of its own. -/
def weakInlineTexts : Table String String :=
  .ofList [("a", "import weak \"message A\x7b\x7d\\n\\n\";")]

/-- The unit of a schema text stays unmarked. -/
theorem run_weakInlineTexts : ∃ w id unit,
    run (.ofTable weakInlineTexts) ⟨true, true⟩ "a" .empty = (.ok (), w) ∧
      w.units.get? id = some unit ∧ ¬ (unit.weak = true ↔ WeaklyImported w.files id) := by
  let id := unitIdentifier "message A\x7b\x7d\n\n"
  have hwalk : (run (.ofTable weakInlineTexts) ⟨true, true⟩ "a" .empty).1.isOk = true ∧
      ((run (.ofTable weakInlineTexts) ⟨true, true⟩ "a" .empty).2.units.get? id).map (·.weak) =
        some false ∧
      WeaklyImported (run (.ofTable weakInlineTexts) ⟨true, true⟩ "a" .empty).2.files id := by
    unfold WeaklyImported
    decide +kernel
  obtain ⟨hok, hget, himported⟩ := hwalk
  obtain ⟨unit, hunit, hweak⟩ := Option.map_eq_some_iff.1 hget
  refine ⟨_, id, unit, eq_ok_of_isOk hok, hunit, fun h => ?_⟩
  rw [h.2 himported] at hweak
  cases hweak

end Walk
end SchemaGraph
