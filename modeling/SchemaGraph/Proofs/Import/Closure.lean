import SchemaGraph.Proofs.Import.Depth
/-!
# An import walk computes a closure

`Walk.Reach` is the least set of names that holds the root and, with each name whose text loads and
parses, the names in its import statements. A walk succeeds unless one of these names stands in its
way, and then its units are those of these names (`Walk.IsClosure`), in whatever order the imports
led to them. The first two parts go through a walk as it is; the third needs that no visit is cut
off.
-/

namespace SchemaGraph.Walk

/-- There is a text for the name. -/
def Loads (loader : Loader) (name : String) : Prop :=
  ∃ text, textOf loader name = .ok text

/-- The text of the name declares the file. -/
def Reads (loader : Loader) (name : String) (file : SchemaFile) : Prop :=
  ∃ text, textOf loader name = .ok text ∧ parseSchema (unitIdentifier name) text = .ok file

/-- The names that imports lead to from the root. -/
inductive Reach (loader : Loader) (root : String) : String → Prop
  | root : Reach loader root root
  | imports {name : String} {file : SchemaFile} {statement : Import} : Reach loader root name →
      Reads loader name file → statement ∈ file.imports → Reach loader root statement.path

/-- What keeps a walk from success: a name without a text, unless that is tolerated, or a text that
does not parse. -/
structure Hinders (loader : Loader) (options : RunOptions) (root name : String) : Prop where
  reached : Reach loader root name
  cause : (¬ Loads loader name ∧ (name = root ∨ options.allowMissingImports = false)) ∨
    (Loads loader name ∧ ∀ file, ¬ Reads loader name file)

/-- The unit is the one of the name: that of its file, or a missing one where this is tolerated. -/
def UnitOf (loader : Loader) (options : RunOptions) (name : String) (unit : SourceUnit) : Prop :=
  (∃ file, Reads loader name file ∧ unit.missing = false ∧
      unit.imports = file.imports.map (·.path)) ∨
    (¬ Loads loader name ∧ unit.missing = true ∧ options.allowMissingImports = true)

theorem Reads.loads {loader : Loader} {name : String} {file : SchemaFile}
    (h : Reads loader name file) : Loads loader name :=
  ⟨h.choose, h.choose_spec.1⟩

theorem not_loads {loader : Loader} {name : String} {e : FileError}
    (h : textOf loader name = .error e) : ¬ Loads loader name := by
  rintro ⟨text, htext⟩
  rw [h] at htext
  cases htext

theorem Reads.eq {loader : Loader} {name : String} {file file' : SchemaFile}
    (h : Reads loader name file) (h' : Reads loader name file') : file = file' := by
  obtain ⟨text, htext, hparse⟩ := h
  obtain ⟨text', htext', hparse'⟩ := h'
  rw [htext] at htext'
  cases htext'
  rw [hparse] at hparse'
  exact Except.ok.inj hparse'

/-! ## Failures -/

theorem followWith_error {visit : String → Walk → Except WalkError Unit × Walk}
    {imports : List Import} {w w' : Walk} {e : WalkError}
    (h : followWith visit imports w = (.error e, w')) :
    ∃ statement ∈ imports, ∃ w₁ w₂, visit statement.path w₁ = (.error e, w₂) := by
  induction imports generalizing w with
  | nil => cases h
  | cons statement rest ih =>
    rw [followWith] at h
    split at h
    · rename_i e' w₂ hfirst
      simp only [Prod.mk.injEq, Except.error.injEq] at h
      exact ⟨statement, by simp, w, w₂, h.1 ▸ hfirst⟩
    · obtain ⟨s, hs, hfails⟩ := ih h
      exact ⟨s, by simp [hs], hfails⟩

/-- A visit that fails has come across a name that hinders the walk. -/
theorem visit_error {loader : Loader} {options : RunOptions} {root : String} {depth : Nat}
    {importer : Option String} {name : String} {w w' : Walk} {e : WalkError}
    (hname : Reach loader root name) (hroot : importer = none → name = root)
    (h : visit loader options depth importer name w = (.error e, w')) :
    ∃ p, Hinders loader options root p := by
  induction depth generalizing importer name w w' with
  | zero => cases h
  | succ depth ih =>
    rw [visit] at h
    split at h
    · cases h
    · split at h
      · rename_i e' htext
        split at h
        · cases h
        · rename_i hfatal
          refine ⟨name, hname, .inl ⟨not_loads htext, ?_⟩⟩
          cases importer with
          | none => exact .inl (hroot rfl)
          | some importer => exact .inr (by simpa using hfatal)
      · rename_i text htext
        split at h
        · rename_i e' hparse
          refine ⟨name, hname, .inr ⟨⟨text, htext⟩, ?_⟩⟩
          rintro file ⟨text', htext', hparse'⟩
          rw [htext] at htext'
          cases htext'
          rw [hparse] at hparse'
          cases hparse'
        · rename_i file hparse
          split at h
          · rename_i e' w₁ hfollow
            cases h
            -- The failure comes from one of the imports, which is reached as well.
            obtain ⟨s, hs, w₂, w₃, hvisit⟩ := followWith_error hfollow
            refine ih (hname.imports ⟨text, htext, hparse⟩ hs) (fun hnone => ?_) hvisit
            cases hnone
          · cases h

/-! ## What the units and files stand for -/

/-- All units and all files of a walk are those of names reached. -/
structure Accounted (loader : Loader) (options : RunOptions) (root : String) (w : Walk) : Prop where
  unit : ∀ {identifier unit}, w.units.get? identifier = some unit →
    ∃ name, Reach loader root name ∧ unitIdentifier name = identifier ∧
      UnitOf loader options name unit
  file : ∀ {identifier file}, (identifier, file) ∈ w.files →
    ∃ name, Reach loader root name ∧ unitIdentifier name = identifier ∧ Reads loader name file

variable {loader : Loader} {options : RunOptions} {root : String}

theorem get?_markWeak {w : Walk} {statement : Import} {identifier : String} {unit : SourceUnit}
    (h : (w.markWeak statement).units.get? identifier = some unit) :
    ∃ old weak, w.units.get? identifier = some old ∧ unit = { old with weak } := by
  unfold markWeak at h
  split at h
  · rw [Table.get?_modify] at h
    split at h
    · rename_i heq
      obtain ⟨old, hold, rfl⟩ := Option.map_eq_some_iff.1 h
      exact ⟨old, true, heq ▸ hold, rfl⟩
    · exact ⟨unit, unit.weak, h, rfl⟩
  · exact ⟨unit, unit.weak, h, rfl⟩

theorem Accounted.markWeak {w : Walk} (h : Accounted loader options root w) (statement : Import) :
    Accounted loader options root (w.markWeak statement) := by
  refine ⟨fun hget => ?_, fun hfile => h.file (files_markWeak w statement ▸ hfile)⟩
  obtain ⟨old, weak, hold, rfl⟩ := get?_markWeak hget
  obtain ⟨name, hname, heq, hunit⟩ := h.unit hold
  exact ⟨name, hname, heq, hunit⟩

/-- A unit is entered for a name reached. -/
theorem Accounted.insert {w w' : Walk} (h : Accounted loader options root w) {name : String}
    (hname : Reach loader root name) {unit : SourceUnit} (hunit : UnitOf loader options name unit)
    (hunits : w'.units = w.units.insert (unitIdentifier name) unit) (hfiles : w'.files = w.files) :
    Accounted loader options root w' := by
  refine ⟨fun {identifier unit'} hget => ?_, fun hfile => h.file (hfiles ▸ hfile)⟩
  rw [hunits, Table.get?_insert] at hget
  split at hget
  · rename_i heq
    cases hget
    exact ⟨name, hname, heq.symm, hunit⟩
  · exact h.unit hget

theorem visit_accounted {depth : Nat} {importer : Option String} {name : String} {w w' : Walk}
    (hname : Reach loader root name)
    (h : visit loader options depth importer name w = (.ok (), w'))
    (hw : Accounted loader options root w) : Accounted loader options root w' := by
  refine visit_rel (P := Reach loader root)
    (R := fun w w' => Accounted loader options root w → Accounted loader options root w')
    (fun _ hw => hw) (fun h h' hw => h' (h hw)) (fun _ statement hw => hw.markWeak statement)
    (fun hname htext hparse s hs => hname.imports ⟨_, htext, hparse⟩ hs) ?_ ?_ hname h hw
  · intro name w e hname _ htext htolerated hw
    exact hw.insert hname (.inr ⟨not_loads htext, rfl, htolerated⟩) rfl rfl
  · intro name text file w w' hname _ htext hparse hinside hw
    have hunit : UnitOf loader options name (.ofFile (unitIdentifier name) file) :=
      .inl ⟨file, ⟨text, htext, hparse⟩, rfl, rfl⟩
    have hentered := hinside (hw.insert hname hunit rfl rfl)
    refine ⟨hentered.unit, fun {identifier file'} hfile => ?_⟩
    rcases List.mem_append.1 hfile with hfile | hfile
    · exact hentered.file hfile
    · cases List.mem_singleton.1 hfile
      exact ⟨name, hname, rfl, text, htext, hparse⟩

/-! ## Files that are read are completed -/

/-- From `w` to `w'` the walk has kept its files, and completed those of all units that it has
entered and that are not missing. -/
structure Completes (w w' : Walk) : Prop where
  kept : ∀ file ∈ w.files, file ∈ w'.files
  completed : ∀ {identifier unit}, w'.units.get? identifier = some unit → unit.missing = false →
    (∃ old, w.units.get? identifier = some old ∧ old.missing = false) ∨
      identifier ∈ w'.files.map (·.1)

theorem Completes.refl (w : Walk) : Completes w w :=
  ⟨fun _ hfile => hfile, fun hget hmissing => .inl ⟨_, hget, hmissing⟩⟩

theorem Completes.trans {w w' w'' : Walk} (h : Completes w w') (h' : Completes w' w'') :
    Completes w w'' := by
  refine ⟨fun file hfile => h'.kept file (h.kept file hfile), fun hget hmissing => ?_⟩
  rcases h'.completed hget hmissing with ⟨old, hold, hmissing⟩ | hdone
  · refine (h.completed hold hmissing).imp_right fun hdone => ?_
    obtain ⟨file, hfile, heq⟩ := List.mem_map.1 hdone
    exact List.mem_map.2 ⟨file, h'.kept file hfile, heq⟩
  · exact .inr hdone

theorem Completes.markWeak (w : Walk) (statement : Import) :
    Completes w (w.markWeak statement) := by
  refine ⟨fun file hfile => files_markWeak w statement ▸ hfile, fun hget hmissing => .inl ?_⟩
  obtain ⟨old, weak, hold, rfl⟩ := get?_markWeak hget
  exact ⟨old, hold, hmissing⟩

theorem visit_completes {depth : Nat} {importer : Option String} {name : String} {w w' : Walk}
    (h : visit loader options depth importer name w = (.ok (), w')) : Completes w w' := by
  refine visit_rel (P := fun _ => True) (R := Completes) .refl .trans .markWeak
    (fun _ _ _ _ _ => trivial) ?_ ?_ trivial h
  · intro name w e _ _ _ _
    refine ⟨fun file hfile => hfile, fun {identifier unit} hget hmissing => .inl ?_⟩
    change (w.units.insert _ _).get? identifier = some unit at hget
    rw [Table.get?_insert] at hget
    split at hget
    · cases hget
      cases hmissing
    · exact ⟨unit, hget, hmissing⟩
  · intro name text file w w' _ _ _ _ h
    refine ⟨fun file' hfile => List.mem_append_left _ (h.kept file' hfile),
      fun {identifier unit} hget hmissing => ?_⟩
    change _ ∨ identifier ∈ (w'.files ++ [(unitIdentifier name, file)]).map (·.1)
    rw [List.map_append, List.mem_append]
    rcases h.completed hget hmissing with ⟨old, hold, hmissing⟩ | hdone
    · change (w.units.insert _ _).get? identifier = some old at hold
      rw [Table.get?_insert] at hold
      split at hold
      · rename_i heq
        exact .inr (.inr (by simp [heq]))
      · exact .inl ⟨old, hold, hmissing⟩
    · exact .inr (.inl hdone)

/-! ## Imports are followed to the end -/

/-- From `w` to `w'` the walk has kept its units, apart from weak marks, and for the units that it
has entered also those that they import. -/
structure Saturates (w w' : Walk) : Prop where
  kept : ∀ {identifier unit}, w.units.get? identifier = some unit →
    ∃ weak, w'.units.get? identifier = some { unit with weak }
  closed : ∀ {identifier unit}, w'.units.get? identifier = some unit →
    w.units.contains identifier = false →
    ∀ path ∈ unit.imports, w'.units.contains (unitIdentifier path)

theorem Saturates.refl (w : Walk) : Saturates w w := by
  refine ⟨fun {_ unit} hget => ⟨unit.weak, hget⟩, fun hget hnew => ?_⟩
  simp [Table.contains, hget] at hnew

theorem Saturates.contains {w w' : Walk} (h : Saturates w w') {identifier : String}
    (hw : w.units.contains identifier) : w'.units.contains identifier := by
  obtain ⟨unit, hunit⟩ := Option.isSome_iff_exists.1 hw
  obtain ⟨weak, hkept⟩ := h.kept hunit
  exact Option.isSome_iff_exists.2 ⟨_, hkept⟩

theorem Saturates.trans {w w' w'' : Walk} (h : Saturates w w') (h' : Saturates w' w'') :
    Saturates w w'' := by
  refine ⟨fun hget => ?_, fun {identifier unit} hget hnew => ?_⟩
  · obtain ⟨weak, hweak⟩ := h.kept hget
    obtain ⟨weak', hweak'⟩ := h'.kept hweak
    exact ⟨weak', hweak'⟩
  · cases hold : w'.units.get? identifier with
    | none => exact h'.closed hget (by simp [Table.contains, hold])
    | some old =>
      obtain ⟨weak, hkept⟩ := h'.kept hold
      rw [hget] at hkept
      cases hkept
      exact fun path hpath => h'.contains (h.closed hold hnew path hpath)

theorem Saturates.markWeak (w : Walk) (statement : Import) :
    Saturates w (w.markWeak statement) := by
  refine ⟨fun {identifier unit} hget => ?_, fun {identifier unit} hget hnew => ?_⟩
  · unfold Walk.markWeak
    split
    · rw [Table.get?_modify]
      split
      · rw [hget]
        exact ⟨true, rfl⟩
      · exact ⟨unit.weak, hget⟩
    · exact ⟨unit.weak, hget⟩
  · obtain ⟨old, weak, hold, -⟩ := get?_markWeak hget
    simp [Table.contains, hold] at hnew

theorem Follows.saturates {imports : List Import} {w w' : Walk}
    (h : Follows (fun name w w' => Saturates w w' ∧ w'.units.contains (unitIdentifier name))
      imports w w') :
    Saturates w w' ∧ ∀ statement ∈ imports, w'.units.contains (unitIdentifier statement.path) := by
  induction h with
  | nil => exact ⟨.refl _, by simp⟩
  | @cons statement rest w w₁ w' hfirst _ ih =>
    obtain ⟨hrest, hall⟩ := ih
    have hmarked := (Saturates.markWeak w₁ statement).trans hrest
    refine ⟨hfirst.1.trans hmarked, fun s hs => ?_⟩
    rcases List.mem_cons.1 hs with rfl | hs
    · exact hmarked.contains hfirst.2
    · exact hall s hs

/-- Entering a unit whose imports are followed in the end. -/
theorem Saturates.insert {w w₁ w' : Walk} {identifier : String} {unit : SourceUnit}
    (hnew : w.units.contains identifier = false)
    (hunits : w₁.units = w.units.insert identifier unit) (h : Saturates w₁ w')
    (himports : ∀ path ∈ unit.imports, w'.units.contains (unitIdentifier path)) :
    Saturates w w' ∧ w'.units.contains identifier := by
  have hget (id : String) :
      w₁.units.get? id = if id = identifier then some unit else w.units.get? id := by
    rw [hunits, Table.get?_insert]
  have hentered : w₁.units.get? identifier = some unit := by rw [hget, if_pos rfl]
  refine ⟨⟨fun {id old} hold => ?_, fun {id unit'} hunit' hnew' => ?_⟩, ?_⟩
  · have hne : id ≠ identifier := by
      rintro rfl
      simp [Table.contains, hold] at hnew
    exact h.kept (by rw [hget, if_neg hne, hold])
  · by_cases heq : id = identifier
    · obtain ⟨weak, hkept⟩ := h.kept hentered
      rw [heq, hkept] at hunit'
      cases hunit'
      exact himports
    -- Any other unit was entered while the imports were followed.
    · refine h.closed hunit' ?_
      rw [Table.contains, hget, if_neg heq]
      exact hnew'
  · exact h.contains (Option.isSome_iff_exists.2 ⟨unit, hentered⟩)

/-- A visit that is not cut off enters its name and follows all imports. -/
theorem visit_saturates {rank : UnitTable → String → Nat} (hranks : Ranks loader rank)
    {depth : Nat} {importer : Option String} {name : String} {w w' : Walk}
    (hdepth : rank w.units name ≤ depth)
    (h : visit loader options depth importer name w = (.ok (), w')) :
    Saturates w w' ∧ w'.units.contains (unitIdentifier name) := by
  refine visit_induct (M := fun name w w' =>
    Saturates w w' ∧ w'.units.contains (unitIdentifier name)) hranks
    (fun hold => ⟨.refl _, hold⟩) ?_ ?_ hdepth h
  · intro name w e hnew _
    exact Saturates.insert hnew rfl (.refl _) (by simp [SourceUnit.absent])
  · intro name text file w w' hnew _ _ hfollow
    obtain ⟨hinside, hall⟩ := hfollow.saturates
    have himports : ∀ path ∈ (SourceUnit.ofFile (unitIdentifier name) file).imports,
        w'.units.contains (unitIdentifier path) := by
      intro path hpath
      obtain ⟨s, hs, rfl⟩ := List.mem_map.1 hpath
      exact hall s hs
    obtain ⟨hsaturates, hentered⟩ := Saturates.insert hnew rfl hinside himports
    exact ⟨⟨hsaturates.kept, hsaturates.closed⟩, hentered⟩

/-! ## The walk -/

/-- The identifiers tell the names reached apart. -/
def Identifies (loader : Loader) (root : String) : Prop :=
  ∀ p q, Reach loader root p → Reach loader root q → unitIdentifier p = unitIdentifier q → p = q

/-- The units and files of a walk are those of the names reached from the root. -/
structure IsClosure (loader : Loader) (root : String) (w : Walk) : Prop where
  units : ∀ identifier, w.units.contains identifier ↔
    ∃ name, Reach loader root name ∧ unitIdentifier name = identifier
  missing : ∀ {name unit}, Reach loader root name →
    w.units.get? (unitIdentifier name) = some unit → (unit.missing = true ↔ ¬ Loads loader name)
  /-- All import statements of the file, in their order. -/
  imports : ∀ {name file unit}, Reach loader root name → Reads loader name file →
    w.units.get? (unitIdentifier name) = some unit → unit.imports = file.imports.map (·.path)
  files : ∀ identifier, identifier ∈ w.files.map (·.1) ↔
    ∃ unit, w.units.get? identifier = some unit ∧ unit.missing = false
  /-- No unit has two files. -/
  nodup : (w.files.map (·.1)).Nodup
  reads : ∀ {identifier file}, (identifier, file) ∈ w.files →
    ∃ name, Reach loader root name ∧ unitIdentifier name = identifier ∧ Reads loader name file

/-- What has to hold of the names reached for a walk to succeed. -/
structure Succeeds (loader : Loader) (options : RunOptions) (root : String) : Prop where
  loads : Loads loader root
  parses : ∀ name, Reach loader root name → Loads loader name → ∃ file, Reads loader name file
  tolerated : options.allowMissingImports = true ∨ ∀ name, Reach loader root name →
    Loads loader name

/-- Where the walk can succeed nothing hinders it. -/
theorem Succeeds.not_hinders (h : Succeeds loader options root) (name : String) :
    ¬ Hinders loader options root name := by
  rintro ⟨hname, ⟨hnot, rfl | hfatal⟩ | ⟨hloads, hnot⟩⟩
  · exact hnot h.loads
  · rcases h.tolerated with htolerated | hall
    · rw [hfatal] at htolerated
      cases htolerated
    · exact hnot (hall name hname)
  · obtain ⟨file, hfile⟩ := h.parses name hname hloads
    exact hnot file hfile

/-- A missing root is not tolerated. -/
theorem loads_of_visit_root {depth : Nat} {w w' : Walk}
    (hnew : w.units.contains (unitIdentifier root) = false)
    (h : visit loader options (depth + 1) none root w = (.ok (), w')) : Loads loader root := by
  rw [visit] at h
  simp only [hnew, Bool.false_eq_true, if_false] at h
  cases htext : textOf loader root with
  | error e => simp [htext] at h
  | ok text => exact ⟨text, htext⟩

/-- The unit under the identifier of a name reached is the one of that name. -/
theorem Accounted.unitOf {w : Walk} (h : Accounted loader options root w)
    (hidentifies : Identifies loader root) {name : String} (hname : Reach loader root name)
    {unit : SourceUnit} (hget : w.units.get? (unitIdentifier name) = some unit) :
    UnitOf loader options name unit := by
  obtain ⟨name', hname', heq, hunit⟩ := h.unit hget
  exact hidentifies name' name hname' hname heq ▸ hunit

/-- Units that are closed under imports and hold the root hold all names reached. -/
theorem Accounted.contains {w : Walk} (h : Accounted loader options root w)
    (hidentifies : Identifies loader root) (hroot : w.units.contains (unitIdentifier root))
    (hclosed : ∀ {identifier unit}, w.units.get? identifier = some unit →
      ∀ path ∈ unit.imports, w.units.contains (unitIdentifier path))
    {name : String} (hname : Reach loader root name) :
    ∃ unit, w.units.get? (unitIdentifier name) = some unit := by
  induction hname with
  | root => exact Option.isSome_iff_exists.1 hroot
  | @imports name file statement hname hreads hstatement ih =>
    obtain ⟨unit, hget⟩ := ih
    rcases h.unitOf hidentifies hname hget with ⟨file', hreads', -, himports⟩ | ⟨hnot, -, -⟩
    · refine Option.isSome_iff_exists.1 (hclosed hget _ ?_)
      rw [himports, hreads'.eq hreads]
      exact List.mem_map_of_mem hstatement
    · exact absurd hreads.loads hnot

section

variable {w : Walk} (haccounted : Accounted loader options root w)
  (hidentifies : Identifies loader root)
  (hcontains : ∀ {name}, Reach loader root name →
    ∃ unit, w.units.get? (unitIdentifier name) = some unit)

include haccounted hidentifies hcontains

/-- Units for all names reached, with the files of those that are not missing, are a closure. -/
theorem Accounted.isClosure
    (hcompleted : ∀ {identifier unit}, w.units.get? identifier = some unit →
      unit.missing = false → identifier ∈ w.files.map (·.1))
    (hnodup : (w.files.map (·.1)).Nodup) : IsClosure loader root w := by
  refine ⟨fun identifier => ⟨fun hcontained => ?_, ?_⟩, fun {name unit} hname hget => ?_,
    fun {name file unit} hname hreads hget => ?_, fun identifier => ⟨fun hmem => ?_, ?_⟩, hnodup,
    haccounted.file⟩
  · obtain ⟨unit, hget⟩ := Option.isSome_iff_exists.1 hcontained
    obtain ⟨name, hname, heq, -⟩ := haccounted.unit hget
    exact ⟨name, hname, heq⟩
  · rintro ⟨name, hname, rfl⟩
    exact Option.isSome_iff_exists.2 (hcontains hname)
  · rcases haccounted.unitOf hidentifies hname hget with
      ⟨file, hreads, hmissing, -⟩ | ⟨hnot, hmissing, -⟩
    · simp [hmissing, hreads.loads]
    · simp [hmissing, hnot]
  · rcases haccounted.unitOf hidentifies hname hget with ⟨file', hreads', -, himports⟩ | ⟨hnot, -⟩
    · rw [himports, hreads'.eq hreads]
    · exact absurd hreads.loads hnot
  · obtain ⟨⟨_, file⟩, hfile, rfl⟩ := List.mem_map.1 hmem
    obtain ⟨name, hname, rfl, hreads⟩ := haccounted.file hfile
    obtain ⟨unit, hget⟩ := hcontains hname
    rcases haccounted.unitOf hidentifies hname hget with ⟨-, -, hmissing, -⟩ | ⟨hnot, -⟩
    · exact ⟨unit, hget, hmissing⟩
    · exact absurd hreads.loads hnot
  · rintro ⟨unit, hget, hmissing⟩
    exact hcompleted hget hmissing

/-- Units for all names reached show that nothing hindered the walk. -/
theorem Accounted.succeeds (hroot : Loads loader root) : Succeeds loader options root := by
  refine ⟨hroot, fun name hname hloads => ?_, ?_⟩
  · obtain ⟨unit, hget⟩ := hcontains hname
    rcases haccounted.unitOf hidentifies hname hget with ⟨file, hreads, -⟩ | ⟨hnot, -⟩
    · exact ⟨file, hreads⟩
    · exact absurd hloads hnot
  · by_cases htolerated : options.allowMissingImports = true
    · exact .inl htolerated
    · refine .inr fun name hname => ?_
      obtain ⟨unit, hget⟩ := hcontains hname
      rcases haccounted.unitOf hidentifies hname hget with ⟨file, hreads, -⟩ | ⟨-, -, hallowed⟩
      · exact hreads.loads
      · exact absurd hallowed htolerated

end

theorem run_isClosure {names : List String} (hlists : loader.Lists names) {registry : Registry}
    (hidentifies : Identifies loader root) {w : Walk}
    (h : run loader options root registry = (.ok (), w)) :
    IsClosure loader root w ∧ Succeeds loader options root := by
  -- The walk starts without units, so all that hold at the end were entered by this visit.
  have hstart (identifier : String) : (start registry).units.get? identifier = none := rfl
  have hnew (identifier : String) : (start registry).units.contains identifier = false := rfl
  have haccounted : Accounted loader options root w :=
    visit_accounted .root h ⟨fun hget => (by cases hget), fun hfile => (by cases hfile)⟩
  obtain ⟨rank, hranks, hdepth⟩ := hlists.suffices root
  obtain ⟨hsaturates, hroot⟩ := visit_saturates hranks (hdepth _) h
  have hcontains {name : String} (hname : Reach loader root name) :
      ∃ unit, w.units.get? (unitIdentifier name) = some unit :=
    haccounted.contains hidentifies hroot (fun hget => hsaturates.closed hget (hnew _)) hname
  have hcompleted {identifier : String} {unit : SourceUnit}
      (hget : w.units.get? identifier = some unit) (hmissing : unit.missing = false) :
      identifier ∈ w.files.map (·.1) := by
    refine ((visit_completes h).completed hget hmissing).resolve_left ?_
    rintro ⟨old, hold, -⟩
    rw [hstart] at hold
    cases hold
  have hnodup : (w.files.map (·.1)).Nodup := by
    obtain ⟨entered, htraverses⟩ := visit_traverses h
    obtain ⟨completed, hfiles, hperm⟩ := htraverses.files
    rw [hfiles]
    exact ((hperm.map (·.1)).nodup_iff).2 htraverses.nodup
  exact ⟨haccounted.isClosure hidentifies hcontains hcompleted hnodup,
    haccounted.succeeds hidentifies hcontains (loads_of_visit_root (hnew _) h)⟩

/-- **An import walk computes a closure.** Where the identifiers tell the names reached apart, the
walk succeeds exactly when the root loads, all of these names that load parse, and the others are
tolerated; and then its units and files are those of the names reached. -/
theorem run_eq_closure (texts : Table String String) (options : RunOptions) (root : String)
    (registry : Registry) (hidentifies : Identifies (.ofTable texts) root) :
    ((∃ w, run (.ofTable texts) options root registry = (.ok (), w)) ↔
        Succeeds (.ofTable texts) options root) ∧
      ∀ w, run (.ofTable texts) options root registry = (.ok (), w) →
        IsClosure (.ofTable texts) root w := by
  have hclosure {w : Walk} (h : run (.ofTable texts) options root registry = (.ok (), w)) :=
    run_isClosure (Loader.lists_ofTable texts) hidentifies h
  refine ⟨⟨fun hw => (hclosure hw.choose_spec).2, fun hsucceeds => ?_⟩, fun w h => (hclosure h).1⟩
  cases h : run (.ofTable texts) options root registry with
  | mk outcome w =>
    cases outcome with
    | ok u => exact ⟨w, rfl⟩
    | error e =>
      obtain ⟨name, hname⟩ := visit_error .root (fun _ => rfl) h
      exact absurd hname (hsucceeds.not_hinders name)

/-- A list of names holds all that are reached if it holds the root and, with each name, those that
its text imports. -/
theorem Reach.mem_of_closed {loader : Loader} {root : String} {names : List String}
    (hroot : root ∈ names)
    (hclosed : (names.all fun name =>
      match textOf loader name with
      | .ok text =>
        (match parseSchema (unitIdentifier name) text with
        | .ok file => file.imports.all fun s => decide (s.path ∈ names)
        | .error _ => true)
      | .error _ => true) = true)
    {name : String} (h : Reach loader root name) : name ∈ names := by
  induction h with
  | root => exact hroot
  | @imports name file statement _ hreads hstatement ih =>
    obtain ⟨text, htext, hparse⟩ := hreads
    have hname := List.all_eq_true.1 hclosed name ih
    simp only [htext, hparse] at hname
    exact of_decide_eq_true (List.all_eq_true.1 hname statement hstatement)

/-- Two units that import each other, and a name without a text. -/
def cycleTexts : Table String String :=
  .ofList [("a", "import \"b\";import \"a\";"), ("b", "import \"a\";import \"c\";import \"c\";")]

theorem mem_of_reach_cycleTexts {name : String} (h : Reach (.ofTable cycleTexts) "a" name) :
    name ∈ ["a", "b", "c"] :=
  h.mem_of_closed (by simp) (by decide +kernel)

/-- The walk over them succeeds where the missing name is tolerated. -/
theorem run_cycleTexts : Identifies (.ofTable cycleTexts) "a" ∧
    ∃ w, run (.ofTable cycleTexts) ⟨true, false⟩ "a" .empty = (.ok (), w) ∧
      IsClosure (.ofTable cycleTexts) "a" w := by
  have hnames : ∀ name ∈ ["a", "b", "c"], unitIdentifier name = name := by decide
  have hidentifies : Identifies (.ofTable cycleTexts) "a" := by
    intro p q hp hq heq
    rwa [hnames p (mem_of_reach_cycleTexts hp), hnames q (mem_of_reach_cycleTexts hq)] at heq
  have hsucceeds : (match run (.ofTable cycleTexts) ⟨true, false⟩ "a" .empty with
      | (.ok (), _) => true
      | (.error _, _) => false) = true := by
    decide +kernel
  refine ⟨hidentifies, ?_⟩
  cases h : run (.ofTable cycleTexts) ⟨true, false⟩ "a" .empty with
  | mk outcome w =>
    cases outcome with
    | error e => simp [h] at hsucceeds
    | ok u =>
      exact ⟨w, rfl, (run_eq_closure cycleTexts ⟨true, false⟩ "a" .empty hidentifies).2 w h⟩

end SchemaGraph.Walk
