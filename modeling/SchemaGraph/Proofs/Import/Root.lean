import SchemaGraph.Proofs.Import.Entered
/-!
# The root of a walk

A walk reads its root before anything else. If it succeeds, the file of the root is the first one
entered, and the root unit is still that of the file when the walk ends, apart from a weak mark
(`Walk.run_root`). A root that imports nothing makes up the whole walk (`Walk.run_alone`).
-/

namespace SchemaGraph.Walk

variable {loader : Loader} {options : RunOptions} {root : String} {w w' w'' : Walk}

/-- From `w` to `w'` the walk has kept its units, apart from weak marks, and entered files. -/
structure Continues (w w' : Walk) : Prop where
  units : ∀ {identifier unit}, w.units.get? identifier = some unit →
    ∃ weak, w'.units.get? identifier = some { unit with weak }
  files : ∃ entered, Traverses w w' entered

theorem Continues.refl (w : Walk) : Continues w w :=
  ⟨fun {_ unit} hunit => ⟨unit.weak, hunit⟩, [], .of_registry_eq rfl rfl fun hw => hw⟩

theorem Continues.trans (h : Continues w w') (h' : Continues w' w'') : Continues w w'' := by
  obtain ⟨entered, hfiles⟩ := h.files
  obtain ⟨entered', hfiles'⟩ := h'.files
  refine ⟨fun hunit => ?_, entered ++ entered', hfiles.trans hfiles'⟩
  obtain ⟨weak, hweak⟩ := h.units hunit
  obtain ⟨weak', hweak'⟩ := h'.units hweak
  exact ⟨weak', hweak'⟩

theorem Continues.markWeak (w : Walk) (statement : Import) :
    Continues w (w.markWeak statement) := by
  refine ⟨fun hunit => ?_, [], .markWeak w statement⟩
  rw [units_markWeak, hunit]
  exact ⟨_, rfl⟩

theorem Continues.enterAbsent {identifier : String}
    (hnew : w.units.contains identifier = false) : Continues w (w.enterAbsent identifier) :=
  ⟨fun {_ unit} hunit => ⟨unit.weak, kept_of_insert hnew rfl hunit⟩, [], .enterAbsent w identifier⟩

theorem Continues.file {identifier : String} {file : SchemaFile}
    (hnew : w.units.contains identifier = false)
    (h : Continues (w.enter identifier file) w') :
    Continues w (w'.complete identifier file) := by
  obtain ⟨entered, hfiles⟩ := h.files
  exact ⟨fun hunit => h.units (kept_of_insert hnew rfl hunit), _, hfiles.file hnew⟩

theorem visit_continues {depth : Nat} {importer : Option String} {name : String}
    (h : visit loader options depth importer name w = (.ok (), w')) : Continues w w' :=
  visit_rel (P := fun _ => True) .refl .trans .markWeak (fun _ _ _ _ _ => trivial)
    (fun _ hnew _ _ => .enterAbsent hnew) (fun _ hnew _ _ hinside => .file hnew hinside) trivial h

/-- The steps of a walk: the root is read and entered, its imports are followed, and it is
completed. -/
theorem run_eq_ok {registry : Registry} (h : run loader options root registry = (.ok (), w)) :
    ∃ depth text file w', textOf loader root = .ok text ∧
      parseSchema (unitIdentifier root) text = .ok file ∧
      followWith (visit loader options depth (some (unitIdentifier root))) file.imports
        ((start registry).enter (unitIdentifier root) file) = (.ok (), w') ∧
      w = w'.complete (unitIdentifier root) file := by
  unfold run depthBound at h
  rw [visit] at h
  have hnew : (start registry).units.contains (unitIdentifier root) = false := rfl
  rw [hnew, if_neg (by decide)] at h
  split at h
  · rename_i e htext
    rw [if_neg (by simp)] at h
    cases h
  · rename_i text htext
    split at h
    · cases h
    · rename_i file hparse
      split at h
      · cases h
      · rename_i w' hfollow
        exact ⟨_, text, file, w', htext, hparse, hfollow, (Prod.mk.inj h).2.symm⟩

/-- **The root unit is that of the root's text**, apart from a weak mark, and its file is entered
first. -/
theorem run_root (h : run loader options root .empty = (.ok (), w)) :
    ∃ text file weak entered, textOf loader root = .ok text ∧
      parseSchema (unitIdentifier root) text = .ok file ∧
      w.units.get? (unitIdentifier root) =
        some { SourceUnit.ofFile (unitIdentifier root) file with weak } ∧
      Traverses (start .empty) w ((unitIdentifier root, file) :: entered) := by
  obtain ⟨depth, text, file, w', htext, hparse, hfollow, rfl⟩ := run_eq_ok h
  have hcontinues := followWith_rel .refl .trans .markWeak (fun _ _ _ _ h => visit_continues h)
    hfollow
  have hself : ((start .empty).enter (unitIdentifier root) file).units.get? (unitIdentifier root) =
      some (.ofFile (unitIdentifier root) file) :=
    (Table.get?_insert ..).trans (if_pos rfl)
  obtain ⟨weak, hunit⟩ := hcontinues.units hself
  obtain ⟨entered, hfiles⟩ := hcontinues.files
  exact ⟨text, file, weak, entered, htext, hparse, hunit, hfiles.file rfl⟩

/-- A root that imports nothing is all that is walked. -/
theorem run_alone {registry : Registry} {text : String} {file : SchemaFile}
    (htext : textOf loader root = .ok text)
    (hparse : parseSchema (unitIdentifier root) text = .ok file) (hnone : file.imports = []) :
    run loader options root registry = (.ok (),
      ((start registry).enter (unitIdentifier root) file).complete (unitIdentifier root) file) := by
  unfold run depthBound
  rw [visit]
  have hnew : (start registry).units.contains (unitIdentifier root) = false := rfl
  rw [hnew, if_neg (by decide), htext]
  dsimp only
  rw [hparse]
  dsimp only
  rw [hnone]
  rfl

end SchemaGraph.Walk
