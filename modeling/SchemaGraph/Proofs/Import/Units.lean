import SchemaGraph.Proofs.Import.Completion
/-!
# What the units of a walk are

A unit that is there when a walk has succeeded is that of a file that has been read, or that of a
name without a text, apart from a weak mark (`Walk.run_unit`). Conversely each file that has been
read has its unit (`Walk.run_file`), and so has each of its imports (`Walk.run_imports`).
-/

namespace SchemaGraph.Walk

variable {loader : Loader} {options : RunOptions} {root : String} {w w' w'' : Walk}

/-- From `w` to `w'` the walk has kept its files. Each unit in the end was there before, or is that
of a file that has been completed, or that of a name without a text, apart from weak marks. -/
structure Records (w w' : Walk) : Prop where
  files : w.files ⊆ w'.files
  unit : ∀ {id unit}, w'.units.get? id = some unit → ∃ old weak, unit = { old with weak } ∧
    (w.units.get? id = some old ∨ (∃ file, (id, file) ∈ w'.files ∧ old = .ofFile id file) ∨
      old = .absent id)

theorem Records.refl (w : Walk) : Records w w :=
  ⟨List.Subset.refl _, fun {_ unit} hunit => ⟨unit, unit.weak, rfl, .inl hunit⟩⟩

theorem Records.trans (h : Records w w') (h' : Records w' w'') : Records w w'' := by
  refine ⟨List.Subset.trans h.files h'.files, fun hunit => ?_⟩
  obtain ⟨old, weak, rfl, hold | hnew⟩ := h'.unit hunit
  · obtain ⟨older, weak', rfl, hcause⟩ := h.unit hold
    refine ⟨older, weak, rfl, hcause.imp_right (Or.imp_left ?_)⟩
    rintro ⟨file, hfile, heq⟩
    exact ⟨file, h'.files hfile, heq⟩
  · exact ⟨old, weak, rfl, .inr hnew⟩

theorem Records.markWeak (w : Walk) (statement : Import) : Records w (w.markWeak statement) := by
  refine ⟨by rw [files_markWeak]; exact List.Subset.refl _, fun hunit => ?_⟩
  obtain ⟨old, weak, hold, heq⟩ := get?_markWeak hunit
  exact ⟨old, weak, heq, .inl hold⟩

theorem Records.enterAbsent (w : Walk) (identifier : String) :
    Records w (w.enterAbsent identifier) := by
  refine ⟨List.Subset.refl _, fun {id unit} hunit => ⟨unit, unit.weak, rfl, ?_⟩⟩
  rw [get?_enterAbsent] at hunit
  split at hunit
  · rename_i heq
    cases hunit
    exact .inr (.inr (by rw [heq]))
  · exact .inl hunit

theorem Records.file {identifier : String} {file : SchemaFile}
    (h : Records (w.enter identifier file) w') : Records w (w'.complete identifier file) := by
  refine ⟨fun f hf => List.mem_append_left _ (h.files hf), fun {id unit} hunit => ?_⟩
  obtain ⟨old, weak, rfl, hold | ⟨f, hf, rfl⟩ | rfl⟩ := h.unit hunit
  · refine ⟨old, weak, rfl, ?_⟩
    rw [get?_enter] at hold
    split at hold
    · rename_i heq
      cases hold
      exact .inr (.inl ⟨file, List.mem_append_right _ (by rw [heq]; exact List.mem_cons_self),
        by rw [heq]⟩)
    · exact .inl hold
  · exact ⟨_, weak, rfl, .inr (.inl ⟨f, List.mem_append_left _ hf, rfl⟩)⟩
  · exact ⟨_, weak, rfl, .inr (.inr rfl)⟩

theorem visit_records {depth : Nat} {importer : Option String} {name : String}
    (h : visit loader options depth importer name w = (.ok (), w')) : Records w w' :=
  visit_rel (P := fun _ => True) .refl .trans .markWeak (fun _ _ _ _ _ => trivial)
    (fun _ _ _ _ => .enterAbsent _ _) (fun _ _ _ _ hinside => hinside.file) trivial h

/-- Each unit of a walk is that of a file that has been read, or that of a name without a text. -/
theorem run_unit {registry : Registry} (h : run loader options root registry = (.ok (), w))
    {id : String} {unit : SourceUnit} (hunit : w.units.get? id = some unit) :
    (∃ file weak, (id, file) ∈ w.files ∧ unit = { SourceUnit.ofFile id file with weak }) ∨
      ∃ weak, unit = { SourceUnit.absent id with weak } := by
  obtain ⟨old, weak, rfl, hold | ⟨file, hfile, rfl⟩ | rfl⟩ := (visit_records h).unit hunit
  · cases hold
  · exact .inl ⟨file, weak, hfile, rfl⟩
  · exact .inr ⟨weak, rfl⟩

/-- The units of a walk stand under their identifiers. -/
theorem run_identifier {registry : Registry} (h : run loader options root registry = (.ok (), w))
    {id : String} {unit : SourceUnit} (hunit : w.units.get? id = some unit) :
    unit.identifier = id := by
  rcases run_unit h hunit with ⟨file, weak, -, rfl⟩ | ⟨weak, rfl⟩ <;> rfl

/-- Each file that has been read has its unit. -/
theorem run_file (h : run loader options root .empty = (.ok (), w)) {id : String}
    {file : SchemaFile} (hfile : (id, file) ∈ w.files) :
    ∃ weak, w.units.get? id = some { SourceUnit.ofFile id file with weak } := by
  obtain ⟨entered, htraverses, henters⟩ := run_enters h
  obtain ⟨unit, hunit, hmissing, -⟩ :=
    henters.unit _ (htraverses.of_start.1.mem_iff.1 hfile)
  rcases run_unit h hunit with ⟨file', weak, hfile', rfl⟩ | ⟨weak, rfl⟩
  · -- One file has the identifier.
    have hsame := List.inj_on_of_nodup_map (nodup_files h) hfile hfile' rfl
    cases hsame
    exact ⟨weak, hunit⟩
  · cases hmissing

/-- The units that import statements name are there. -/
theorem run_imports (hsuffices : loader.Suffices root) {registry : Registry}
    (h : run loader options root registry = (.ok (), w)) {id : String} {unit : SourceUnit}
    (hunit : w.units.get? id = some unit) {path : String} (hpath : path ∈ unit.imports) :
    w.units.contains (unitIdentifier path) := by
  obtain ⟨rank, hranks, hdepth⟩ := hsuffices
  exact (visit_saturates hranks (hdepth _) h).1.closed hunit rfl path hpath

end SchemaGraph.Walk
