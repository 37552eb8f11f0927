import SchemaGraph.Proofs.Import.Flags
/-!
# The units of the files entered

Every file that a walk enters has been read from a text, and its unit stays what it was when the
file was entered, except that import statements may mark it (`run_enters`).
-/

namespace SchemaGraph.Walk

/-- From `w` to `w'` no unit gets lost, and the given files have been read and have units. -/
structure Enters (w w' : Walk) (entered : List (String × SchemaFile)) : Prop where
  kept : ∀ {id unit}, w.units.get? id = some unit → ∃ unit', w'.units.get? id = some unit' ∧
    unit'.missing = unit.missing ∧ unit'.package = unit.package
  unit : ∀ file ∈ entered, ∃ unit, w'.units.get? file.1 = some unit ∧ unit.missing = false ∧
    unit.package = file.2.packageName
  parsed : ∀ file ∈ entered, ∃ text, parseSchema file.1 text = .ok file.2

/-- A step that enters no file. -/
theorem Enters.of_kept {w w' : Walk}
    (h : ∀ {id unit}, w.units.get? id = some unit → ∃ unit', w'.units.get? id = some unit' ∧
      unit'.missing = unit.missing ∧ unit'.package = unit.package) : Enters w w' [] :=
  ⟨h, by simp, by simp⟩

theorem Enters.trans {w w' w'' : Walk} {entered entered' : List (String × SchemaFile)}
    (h : Enters w w' entered) (h' : Enters w' w'' entered') :
    Enters w w'' (entered ++ entered') := by
  refine ⟨fun hw => ?_, fun file hfile => ?_, fun file hfile => ?_⟩
  · obtain ⟨unit, hunit, hmissing, hpackage⟩ := h.kept hw
    obtain ⟨unit', hunit', hmissing', hpackage'⟩ := h'.kept hunit
    exact ⟨unit', hunit', hmissing'.trans hmissing, hpackage'.trans hpackage⟩
  · rcases List.mem_append.1 hfile with hfile | hfile
    · obtain ⟨unit, hunit, hmissing, hpackage⟩ := h.unit file hfile
      obtain ⟨unit', hunit', hmissing', hpackage'⟩ := h'.kept hunit
      exact ⟨unit', hunit', hmissing'.trans hmissing, hpackage'.trans hpackage⟩
    · exact h'.unit file hfile
  · rcases List.mem_append.1 hfile with hfile | hfile
    · exact h.parsed file hfile
    · exact h'.parsed file hfile

/-- A unit that is new leaves the others as they are. -/
theorem kept_of_insert {w w' : Walk} {identifier : String} {new : SourceUnit}
    (hnew : w.units.contains identifier = false) (h : w'.units = w.units.insert identifier new)
    {id : String} {unit : SourceUnit} (hunit : w.units.get? id = some unit) :
    w'.units.get? id = some unit := by
  rw [h, Table.get?_insert, if_neg, hunit]
  rintro rfl
  rw [contains_eq_false.1 hnew] at hunit
  cases hunit

theorem Enters.markWeak (w : Walk) (statement : Import) : Enters w (w.markWeak statement) [] := by
  refine .of_kept fun {id unit} hunit => ?_
  rw [units_markWeak, hunit]
  exact ⟨_, rfl, rfl, rfl⟩

theorem Enters.enterAbsent {w : Walk} {identifier : String}
    (hnew : w.units.contains identifier = false) : Enters w (w.enterAbsent identifier) [] :=
  .of_kept fun hunit => ⟨_, kept_of_insert hnew rfl hunit, rfl, rfl⟩

theorem Enters.file {w w' : Walk} {identifier text : String} {file : SchemaFile}
    {entered : List (String × SchemaFile)} (hnew : w.units.contains identifier = false)
    (hparse : parseSchema identifier text = .ok file)
    (h : Enters (w.enter identifier file) w' entered) :
    Enters w (w'.complete identifier file) ((identifier, file) :: entered) := by
  have hself : (w.enter identifier file).units.get? identifier =
      some (.ofFile identifier file) :=
    (Table.get?_insert ..).trans (if_pos rfl)
  refine ⟨fun hunit => h.kept (kept_of_insert hnew rfl hunit), fun f hf => ?_, fun f hf => ?_⟩
  · rcases List.mem_cons.1 hf with rfl | hf
    · exact h.kept hself
    · exact h.unit f hf
  · rcases List.mem_cons.1 hf with rfl | hf
    · exact ⟨text, hparse⟩
    · exact h.parsed f hf

theorem visit_enters {loader : Loader} {options : RunOptions} {depth : Nat}
    {importer : Option String} {name : String} {w w' : Walk}
    (h : visit loader options depth importer name w = (.ok (), w')) :
    ∃ entered, Traverses w w' entered ∧ Enters w w' entered := by
  refine visit_rel (P := fun _ => True)
    (R := fun w w' => ∃ entered, Traverses w w' entered ∧ Enters w w' entered) (fun w => ?_) ?_
    (fun w statement => ⟨[], .markWeak w statement, .markWeak w statement⟩)
    (fun _ _ _ _ _ => trivial) (fun _ hnew _ _ => ⟨[], .enterAbsent _ _, .enterAbsent hnew⟩) ?_
    trivial h
  · exact ⟨[], .of_registry_eq rfl rfl fun hw => hw, .of_kept fun hw => ⟨_, hw, rfl, rfl⟩⟩
  · rintro w w' w'' ⟨entered, h, he⟩ ⟨entered', h', he'⟩
    exact ⟨entered ++ entered', h.trans h', he.trans he'⟩
  · rintro name text file w w' _ hnew _ hparse ⟨entered, h, he⟩
    exact ⟨_, h.file hnew, he.file hnew hparse⟩

/-- The files that a walk has entered have been read and have units. -/
theorem run_enters {loader : Loader} {options : RunOptions} {root : String} {w : Walk}
    (h : run loader options root .empty = (.ok (), w)) :
    ∃ entered, Traverses (start .empty) w entered ∧ Enters (start .empty) w entered :=
  visit_enters h

end SchemaGraph.Walk
