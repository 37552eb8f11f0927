import SchemaGraph.Proofs.Import.Closure
import SchemaGraph.Proofs.Text.Quoted
/-!
# The flags of the units of a walk

Whether a unit is missing or weakly imported is settled when the walk ends, and does not depend on
the order of the visits: a unit is missing unless its file has been completed, and weak if some file
imports its name weakly (`run_flags`). `Walk.Flags` is what a part of a walk does to the flags. It
needs that no visit is cut off, so that the unit of an import is there when the import marks it.
-/

namespace SchemaGraph

/-! ## Identifiers -/

theorem mem_hexDigits_of_mem_sha256 {s : String} {c : Char} (h : c ∈ Digest.sha256 s) :
    c ∈ hexDigits := by
  unfold Digest.sha256 Digest.sha256OfBytes at h
  obtain ⟨word, -, hmem⟩ := List.mem_flatMap.1 h
  rcases List.mem_append.1 hmem with hmem | hmem
  · exact List.eq_of_mem_replicate hmem ▸ by decide
  · exact mem_hexDigits_of_mem_toDigits hmem

/-- What is neither in the prefix nor a digit is not in the identifier of a schema text. -/
theorem not_mem_inlineIdentifier {c : Char} (hmark : c ∉ "blob_".toList) (hdigit : c ∉ hexDigits)
    (content : String) : c ∉ (inlineIdentifier content).toList := by
  unfold inlineIdentifier
  rw [String.toList_ofList, List.mem_append, not_or]
  exact ⟨hmark, fun hmem => hdigit (mem_hexDigits_of_mem_sha256 (List.mem_of_mem_take hmem))⟩

/-- The identifier of a unit is not itself a schema text. -/
theorem isInlineText_unitIdentifier (name : String) :
    isInlineText (unitIdentifier name) = false := by
  unfold unitIdentifier
  split
  · have hnone := not_mem_inlineIdentifier (c := '\n') (by decide) (by decide) name
    unfold isInlineText
    rw [List.count_eq_zero.2 hnone]
    rfl
  · rename_i hname
    simpa using hname

theorem unitIdentifier_eq_self {name : String} (h : isInlineText name = false) :
    unitIdentifier name = name := by
  unfold unitIdentifier
  rw [h]
  rfl

/-- Some weak import statement has the path. -/
def WeaklyNamed (statements : List Import) (path : String) : Prop :=
  ∃ s ∈ statements, s.modifier = .weak ∧ s.path = path

theorem weaklyNamed_append {ss ss' : List Import} {path : String} :
    WeaklyNamed (ss ++ ss') path ↔ WeaklyNamed ss path ∨ WeaklyNamed ss' path := by
  unfold WeaklyNamed
  simp only [List.mem_append, or_and_right, exists_or]

namespace Walk

/-! ## Part of a walk -/

/-- What a part of a walk does to flags, where it follows the given import statements and completes
the given files: a unit that is there before gets marks only, and one that is entered is missing
unless its file is completed. -/
structure Flags (w w' : Walk) (followed : List Import) (completed : List (String × SchemaFile)) :
    Prop where
  files : w'.files = w.files ++ completed
  fresh : ∀ file ∈ completed, isInlineText file.1 = false ∧ w.units.contains file.1 = false ∧
    w'.units.contains file.1
  reached : ∀ s ∈ followed, w'.units.contains (unitIdentifier s.path)
  kept : ∀ {id unit}, isInlineText id = false → w.units.get? id = some unit →
    ∃ unit', w'.units.get? id = some unit' ∧ unit'.missing = unit.missing ∧
      (unit'.weak = true ↔ unit.weak = true ∨ WeaklyNamed followed id)
  entered : ∀ {id unit}, isInlineText id = false → w.units.contains id = false →
    w'.units.get? id = some unit → (unit.missing = false ↔ id ∈ completed.map (·.1)) ∧
      (unit.weak = true ↔ WeaklyNamed followed id)

theorem contains_eq_false {units : UnitTable} {id : String} :
    units.contains id = false ↔ units.get? id = none := by
  rw [Table.contains, Option.isSome_eq_false_iff, Option.isNone_iff_eq_none]

theorem Flags.refl (w : Walk) : Flags w w [] [] := by
  refine ⟨by simp, by simp, by simp, fun {_ unit} _ hget => ⟨unit, hget, rfl, ?_⟩,
    fun _ hnew hget => ?_⟩
  · simp [WeaklyNamed]
  · rw [contains_eq_false.1 hnew] at hget
    cases hget

/-- Units are never removed. -/
theorem Flags.contains {w w' : Walk} {followed : List Import}
    {completed : List (String × SchemaFile)} (h : Flags w w' followed completed) {id : String}
    (hinline : isInlineText id = false) (hid : w.units.contains id) : w'.units.contains id := by
  obtain ⟨unit, hunit⟩ := Option.isSome_iff_exists.1 hid
  obtain ⟨unit', hunit', -⟩ := h.kept hinline hunit
  exact Option.isSome_iff_exists.2 ⟨unit', hunit'⟩

variable {w w' w'' : Walk} {followed followed' : List Import}
  {completed completed' : List (String × SchemaFile)}

theorem Flags.trans (h : Flags w w' followed completed) (h' : Flags w' w'' followed' completed') :
    Flags w w'' (followed ++ followed') (completed ++ completed') := by
  refine ⟨?_, fun file hfile => ?_, fun s hs => ?_, fun {id unit} hinline hget => ?_,
    fun {id unit} hinline hnew hget => ?_⟩
  · rw [h'.files, h.files, List.append_assoc]
  · rcases List.mem_append.1 hfile with hfile | hfile
    · obtain ⟨hinline, hnew, hentered⟩ := h.fresh file hfile
      exact ⟨hinline, hnew, h'.contains hinline hentered⟩
    · obtain ⟨hinline, hnew, hentered⟩ := h'.fresh file hfile
      refine ⟨hinline, Bool.eq_false_iff.2 fun hold => ?_, hentered⟩
      rw [h.contains hinline hold] at hnew
      cases hnew
  · rcases List.mem_append.1 hs with hs | hs
    · exact h'.contains (isInlineText_unitIdentifier _) (h.reached s hs)
    · exact h'.reached s hs
  · obtain ⟨unit', hget', hmissing, hweak⟩ := h.kept hinline hget
    obtain ⟨unit'', hget'', hmissing', hweak'⟩ := h'.kept hinline hget'
    refine ⟨unit'', hget'', hmissing'.trans hmissing, ?_⟩
    rw [hweak', hweak, weaklyNamed_append, or_assoc]
  · rw [List.map_append, List.mem_append, weaklyNamed_append]
    cases hget' : w'.units.get? id with
    -- The unit is entered in the second part: the first one has neither completed nor marked it.
    | none =>
      have hnew' := contains_eq_false.2 hget'
      obtain ⟨hmissing, hweak⟩ := h'.entered hinline hnew' hget
      have hcompleted : id ∉ completed.map (·.1) := fun hmem => by
        obtain ⟨file, hfile, rfl⟩ := List.mem_map.1 hmem
        rw [(h.fresh file hfile).2.2] at hnew'
        cases hnew'
      have hmarked : ¬ WeaklyNamed followed id := fun ⟨s, hs, _, hpath⟩ => by
        have hreached := h.reached s hs
        rw [hpath, unitIdentifier_eq_self hinline, hnew'] at hreached
        cases hreached
      simp only [hmissing, hweak, hcompleted, hmarked, false_or, and_self]
    -- The unit is entered in the first part, and the second one marks it.
    | some unit' =>
      obtain ⟨hmissing, hweak⟩ := h.entered hinline hnew hget'
      obtain ⟨unit'', hget'', hmissing', hweak'⟩ := h'.kept hinline hget'
      obtain rfl := Option.some.inj (hget.symm.trans hget'')
      have hcompleted : id ∉ completed'.map (·.1) := fun hmem => by
        obtain ⟨file, hfile, rfl⟩ := List.mem_map.1 hmem
        rw [contains_eq_false.1 (h'.fresh file hfile).2.1] at hget'
        cases hget'
      simp only [hmissing', hmissing, hweak', hweak, hcompleted, or_false, and_self]

theorem Flags.enterAbsent (identifier : String) (hnew : w.units.contains identifier = false) :
    Flags w (w.enterAbsent identifier) [] [] := by
  have hget (id : String) : (w.enterAbsent identifier).units.get? id =
      if id = identifier then some (.absent identifier) else w.units.get? id :=
    Table.get?_insert ..
  refine ⟨(List.append_nil _).symm, by simp, by simp, fun {id unit} _ hold => ?_,
    fun {id unit} _ hnew' hunit => ?_⟩
  · have hne : id ≠ identifier := by
      rintro rfl
      rw [contains_eq_false.1 hnew] at hold
      cases hold
    exact ⟨unit, by rw [hget, if_neg hne, hold], rfl, by simp [WeaklyNamed]⟩
  · rw [hget] at hunit
    split at hunit
    · cases hunit
      simp [SourceUnit.absent, WeaklyNamed]
    · rw [contains_eq_false.1 hnew'] at hunit
      cases hunit

theorem units_markWeak (w : Walk) (statement : Import) (id : String) :
    (w.markWeak statement).units.get? id = (w.units.get? id).map fun unit =>
      { unit with
        weak := unit.weak || decide (statement.modifier = .weak ∧ statement.path = id) } := by
  unfold markWeak
  split
  · rename_i hweak
    rw [Table.get?_modify]
    by_cases hid : id = statement.path
    · simp [hid, hweak]
    · have hne : ¬ statement.path = id := fun heq => hid heq.symm
      simp [hid, hne]
  · rename_i hplain
    simp [hplain]

/-- The unit of an import statement that has been followed is marked if the statement is weak. -/
theorem Flags.markWeak (statement : Import)
    (hreached : w.units.contains (unitIdentifier statement.path)) :
    Flags w (w.markWeak statement) [statement] [] := by
  have hunits := w.units_markWeak statement
  refine ⟨by simp [files_markWeak], by simp, fun s hs => ?_, fun {id unit} _ hget => ?_,
    fun {id unit} _ hnew hget => ?_⟩
  · rw [contains_markWeak, List.mem_singleton.1 hs]
    exact hreached
  · rw [hunits, hget]
    exact ⟨_, rfl, rfl, by simp [WeaklyNamed]⟩
  · rw [hunits, contains_eq_false.1 hnew] at hget
    cases hget

/-- Imports are followed one after the other. -/
theorem Follows.flags {imports : List Import}
    (h : Follows (fun name w w' => (∃ followed completed, Flags w w' followed completed ∧
        ∀ s, s ∈ followed ↔ ∃ file ∈ completed, s ∈ file.2.imports) ∧
      w'.units.contains (unitIdentifier name)) imports w w') :
    ∃ followed completed, Flags w w' followed completed ∧
      ∀ s, s ∈ followed ↔ s ∈ imports ∨ ∃ file ∈ completed, s ∈ file.2.imports := by
  induction h with
  | nil => exact ⟨[], [], .refl _, by simp⟩
  | @cons statement rest w w₁ w' hfirst _ ih =>
    obtain ⟨⟨followed, completed, hflags, hmem⟩, hreached⟩ := hfirst
    obtain ⟨followed', completed', hflags', hmem'⟩ := ih
    refine ⟨_, _, (hflags.trans (.markWeak statement hreached)).trans hflags', fun s => ?_⟩
    simp only [List.mem_append, List.mem_cons, List.not_mem_nil, or_false, List.append_nil, hmem,
      hmem', or_and_right, exists_or]
    constructor
    · rintro ((h | h) | h | h) <;> simp [h]
    · rintro ((h | h) | h | h) <;> simp [h]

/-- The imports of a file that is entered are followed before it is completed. -/
theorem Flags.file {identifier : String} {file : SchemaFile}
    (hinline : isInlineText identifier = false) (hnew : w.units.contains identifier = false)
    (h : Flags (w.enter identifier file) w' followed completed) :
    Flags w (w'.complete identifier file) followed (completed ++ [(identifier, file)]) := by
  have hget (id : String) : (w.enter identifier file).units.get? id =
      if id = identifier then some (.ofFile identifier file) else w.units.get? id :=
    Table.get?_insert ..
  have hself : (w.enter identifier file).units.get? identifier =
      some (.ofFile identifier file) := by
    rw [hget, if_pos rfl]
  refine ⟨?_, fun file' hfile => ?_, h.reached, fun {id unit} hid hold => ?_,
    fun {id unit} hid hnew' hunit => ?_⟩
  · show w'.files ++ [(identifier, file)] = _
    rw [h.files, List.append_assoc]
    rfl
  · rcases List.mem_append.1 hfile with hfile | hfile
    · obtain ⟨hplain, hfresh, hentered⟩ := h.fresh file' hfile
      refine ⟨hplain, ?_, hentered⟩
      rw [contains_eq_false, hget] at hfresh
      split at hfresh
      · cases hfresh
      · exact contains_eq_false.2 hfresh
    · rw [List.mem_singleton.1 hfile]
      exact ⟨hinline, hnew, h.contains hinline (Option.isSome_iff_exists.2 ⟨_, hself⟩)⟩
  · have hne : id ≠ identifier := by
      rintro rfl
      rw [contains_eq_false.1 hnew] at hold
      cases hold
    exact h.kept hid (by rw [hget, if_neg hne, hold])
  · rw [List.map_append, List.mem_append]
    by_cases heq : id = identifier
    · obtain ⟨unit', hunit', hmissing, hweak⟩ := h.kept hinline hself
      subst heq
      obtain rfl := Option.some.inj (hunit'.symm.trans hunit)
      simp [hmissing, hweak, SourceUnit.ofFile]
    -- Any other unit was entered while the imports were followed.
    · have hnew'' : (w.enter identifier file).units.contains id = false := by
        rw [contains_eq_false, hget, if_neg heq]
        exact contains_eq_false.1 hnew'
      obtain ⟨hmissing, hweak⟩ := h.entered hid hnew'' hunit
      simp [hmissing, hweak, heq]

/-! ## The whole walk -/

theorem visit_flags {loader : Loader} {options : RunOptions} {rank : UnitTable → String → Nat}
    (hranks : Ranks loader rank) {depth : Nat} {importer : Option String} {name : String}
    {w w' : Walk} (hdepth : rank w.units name ≤ depth)
    (h : visit loader options depth importer name w = (.ok (), w')) :
    ∃ followed completed, Flags w w' followed completed ∧
      ∀ s, s ∈ followed ↔ ∃ file ∈ completed, s ∈ file.2.imports := by
  refine (visit_induct (M := fun name w w' =>
    (∃ followed completed, Flags w w' followed completed ∧
      ∀ s, s ∈ followed ↔ ∃ file ∈ completed, s ∈ file.2.imports) ∧
    w'.units.contains (unitIdentifier name)) hranks ?_ ?_ ?_ hdepth h).1
  · exact fun hold => ⟨⟨[], [], .refl _, by simp⟩, hold⟩
  · intro name w e hnew _
    refine ⟨⟨[], [], .enterAbsent _ hnew, by simp⟩, ?_⟩
    exact (contains_insert ..).trans (by simp)
  · intro name text file w w' hnew _ _ hfollow
    obtain ⟨followed, completed, hflags, hmem⟩ := hfollow.flags
    have hfile := hflags.file (isInlineText_unitIdentifier name) hnew
    refine ⟨⟨_, _, hfile, fun s => ?_⟩, (hfile.fresh (unitIdentifier name, file) (by simp)).2.2⟩
    simp only [hmem, List.mem_append, List.mem_singleton, or_and_right, exists_or, exists_eq_left]
    exact or_comm

/-- **The files of a walk settle the flags of its units.** A unit is missing unless its file has
been read, and weak if a file that has been read imports its name weakly. -/
theorem run_flags {loader : Loader} {options : RunOptions} {root : String}
    (hsuffices : loader.Suffices root) {registry : Registry} {w : Walk}
    (h : run loader options root registry = (.ok (), w)) {id : String} {unit : SourceUnit}
    (hget : w.units.get? id = some unit) :
    (unit.missing = false ↔ id ∈ w.files.map (·.1)) ∧
      (unit.weak = true ↔ ∃ file ∈ w.files, WeaklyNamed file.2.imports id) := by
  obtain ⟨rank, hranks, hdepth⟩ := hsuffices
  obtain ⟨followed, completed, hflags, hmem⟩ := visit_flags hranks (hdepth _) h
  have haccounted : Accounted loader options root w :=
    visit_accounted .root h ⟨fun hget => (by cases hget), fun hfile => (by cases hfile)⟩
  obtain ⟨name, -, rfl, -⟩ := haccounted.unit hget
  have hfiles : w.files = completed := hflags.files
  obtain ⟨hmissing, hweak⟩ := hflags.entered (isInlineText_unitIdentifier name) rfl hget
  refine ⟨hfiles ▸ hmissing, hweak.trans ?_⟩
  rw [hfiles]
  unfold WeaklyNamed
  simp only [hmem]
  constructor
  · rintro ⟨s, ⟨file, hfile, hs⟩, hs'⟩
    exact ⟨file, hfile, s, hs, hs'⟩
  · rintro ⟨file, hfile, s, hs, hs'⟩
    exact ⟨s, ⟨file, hfile, hs⟩, hs'⟩

end Walk
end SchemaGraph
