import SchemaGraph.Import.Walk
import SchemaGraph.Proofs.Registry.Winners
/-!
# Import walks as traversals

`Walk.visit_rel` is the induction over an import walk: a relation between walks that every single
step respects holds between the walks before and after a visit that succeeds. Its first use is
`Walk.Traverses`: the files that a visit enters are declared in the order in which they are entered,
and the same files are completed, in another order.
-/

namespace SchemaGraph

/-- A run that succeeds, and what it gives passes a test. -/
theorem exists_ok_of_any {ε α : Type} {x : Except ε α} {p : α → Bool}
    (h : x.toOption.any p = true) : ∃ a, x = .ok a ∧ p a = true := by
  cases x with
  | error e => cases h
  | ok a => exact ⟨a, rfl, h⟩

namespace Walk

/-! ## Induction over a walk -/

/-- What each visit respects is respected by following imports one after the other. -/
theorem followWith_rel {R : Walk → Walk → Prop}
    {visit : String → Walk → Except WalkError Unit × Walk} (hrefl : ∀ w, R w w)
    (htrans : ∀ {w w' w''}, R w w' → R w' w'' → R w w'')
    (hweak : ∀ w statement, R w (w.markWeak statement)) {imports : List Import}
    (hvisit : ∀ statement ∈ imports, ∀ {w w'},
      visit statement.path w = (.ok (), w') → R w w') {w w' : Walk}
    (h : followWith visit imports w = (.ok (), w')) : R w w' := by
  induction imports generalizing w with
  | nil =>
    simp only [followWith, Prod.mk.injEq, true_and] at h
    exact h ▸ hrefl w
  | cons statement rest ih =>
    rw [followWith] at h
    split at h
    · cases h
    · rename_i w₁ hfirst
      have hstep := hvisit statement (by simp) hfirst
      have hrest := ih (fun s hs => hvisit s (by simp [hs])) h
      exact htrans hstep (htrans (hweak w₁ statement) hrest)

/--
Induction over a visit that succeeds. `P` holds of the names that the walk comes across, and `R`
relates the walks before and after.
-/
theorem visit_rel {loader : Loader} {options : RunOptions} {P : String → Prop}
    {R : Walk → Walk → Prop} (hrefl : ∀ w, R w w)
    (htrans : ∀ {w w' w''}, R w w' → R w' w'' → R w w'')
    (hweak : ∀ w statement, R w (w.markWeak statement))
    (hclosed : ∀ {name text file}, P name → textOf loader name = .ok text →
      parseSchema (unitIdentifier name) text = .ok file → ∀ s ∈ file.imports, P s.path)
    (habsent : ∀ {name w e}, P name → w.units.contains (unitIdentifier name) = false →
      textOf loader name = .error e → options.allowMissingImports →
      R w (w.enterAbsent (unitIdentifier name)))
    (hfile : ∀ {name text file w w'}, P name → w.units.contains (unitIdentifier name) = false →
      textOf loader name = .ok text → parseSchema (unitIdentifier name) text = .ok file →
      R (w.enter (unitIdentifier name) file) w' → R w (w'.complete (unitIdentifier name) file))
    {depth : Nat} {importer : Option String} {name : String} {w w' : Walk} (hname : P name)
    (h : visit loader options depth importer name w = (.ok (), w')) : R w w' := by
  induction depth generalizing importer name w w' with
  | zero =>
    simp only [visit, Prod.mk.injEq, true_and] at h
    exact h ▸ hrefl w
  | succ depth ih =>
    rw [visit] at h
    split at h
    · simp only [Prod.mk.injEq, true_and] at h
      exact h ▸ hrefl w
    · rename_i hnew
      have hnew : w.units.contains (unitIdentifier name) = false := by simpa using hnew
      split at h
      · rename_i e htext
        split at h
        · rename_i htolerated
          simp only [Prod.mk.injEq, true_and] at h
          exact h ▸ habsent hname hnew htext htolerated.2
        · cases h
      · rename_i text htext
        split at h
        · cases h
        · rename_i file hparse
          split at h
          · cases h
          · rename_i w₁ hfollow
            simp only [Prod.mk.injEq, true_and] at h
            -- The unit has been entered, and its imports are followed from there.
            have hinside := followWith_rel hrefl htrans hweak
              (fun s hs _ _ hs' => ih (hclosed hname htext hparse s hs) hs') hfollow
            exact h ▸ hfile hname hnew htext hparse hinside

/-! ## The units -/

theorem contains_markWeak (w : Walk) (statement : Import) (identifier : String) :
    (w.markWeak statement).units.contains identifier = w.units.contains identifier := by
  unfold markWeak
  split
  · unfold Table.contains
    rw [Table.get?_modify]
    split
    · rename_i heq
      rw [heq, Option.isSome_map]
    · rfl
  · rfl

theorem contains_insert (units : UnitTable) (identifier identifier' : String)
    (unit : SourceUnit) :
    (units.insert identifier unit).contains identifier' =
      (decide (identifier' = identifier) || units.contains identifier') := by
  unfold Table.contains
  rw [Table.get?_insert]
  split
  · rename_i heq
    simp [heq]
  · rename_i hne
    simp [hne]

/-- The units once a file has been entered. -/
theorem get?_enter (w : Walk) (identifier id : String) (file : SchemaFile) :
    (w.enter identifier file).units.get? id =
      if id = identifier then some (.ofFile identifier file) else w.units.get? id :=
  Table.get?_insert ..

theorem contains_enter (w : Walk) (identifier id : String) (file : SchemaFile) :
    (w.enter identifier file).units.contains id =
      (decide (id = identifier) || w.units.contains id) :=
  contains_insert ..

/-- The units once a name without a text has been entered. -/
theorem get?_enterAbsent (w : Walk) (identifier id : String) :
    (w.enterAbsent identifier).units.get? id =
      if id = identifier then some (.absent identifier) else w.units.get? id :=
  Table.get?_insert ..

theorem contains_enterAbsent (w : Walk) (identifier id : String) :
    (w.enterAbsent identifier).units.contains id =
      (decide (id = identifier) || w.units.contains id) :=
  contains_insert ..

theorem registry_markWeak (w : Walk) (statement : Import) :
    (w.markWeak statement).registry = w.registry := by
  unfold markWeak
  split <;> rfl

theorem files_markWeak (w : Walk) (statement : Import) :
    (w.markWeak statement).files = w.files := by
  unfold markWeak
  split <;> rfl

/-! ## Files entered and completed -/

/-- From `w` to `w'` the walk has entered the given files in this order, and completed them. -/
structure Traverses (w w' : Walk) (entered : List (String × SchemaFile)) : Prop where
  registry : w'.registry = w.registry.declareFiles entered
  files : ∃ completed, w'.files = w.files ++ completed ∧ completed.Perm entered
  kept : ∀ {identifier}, w.units.contains identifier → w'.units.contains identifier
  fresh : ∀ file ∈ entered, w.units.contains file.1 = false ∧ w'.units.contains file.1
  nodup : (entered.map (·.1)).Nodup

/-- A step that enters no file. -/
theorem Traverses.of_registry_eq {w w' : Walk} (hregistry : w'.registry = w.registry)
    (hfiles : w'.files = w.files)
    (hkept : ∀ {identifier}, w.units.contains identifier → w'.units.contains identifier) :
    Traverses w w' [] :=
  ⟨hregistry, ⟨[], by simp [hfiles], .nil⟩, hkept, by simp, by simp⟩

theorem Traverses.trans {w w' w'' : Walk} {entered entered' : List (String × SchemaFile)}
    (h : Traverses w w' entered) (h' : Traverses w' w'' entered') :
    Traverses w w'' (entered ++ entered') := by
  obtain ⟨completed, hfiles, hperm⟩ := h.files
  obtain ⟨completed', hfiles', hperm'⟩ := h'.files
  refine ⟨?_, ⟨completed ++ completed', ?_, hperm.append hperm'⟩, fun hw => h'.kept (h.kept hw),
    fun file hfile => ?_, ?_⟩
  · rw [h'.registry, h.registry, Registry.declareFiles, Registry.declareFiles,
      Registry.declareFiles, List.foldl_append]
  · rw [hfiles', hfiles, List.append_assoc]
  · rcases List.mem_append.1 hfile with hfile | hfile
    · exact ⟨(h.fresh file hfile).1, h'.kept (h.fresh file hfile).2⟩
    · refine ⟨?_, (h'.fresh file hfile).2⟩
      cases hw : w.units.contains file.1 with
      | false => rfl
      | true =>
        have hnot := (h'.fresh file hfile).1
        rw [h.kept hw] at hnot
        cases hnot
  · rw [List.map_append, List.nodup_append]
    refine ⟨h.nodup, h'.nodup, fun a ha b hb heq => ?_⟩
    obtain ⟨file, hfile, rfl⟩ := List.mem_map.1 ha
    obtain ⟨file', hfile', rfl⟩ := List.mem_map.1 hb
    -- What the second part enters had no unit after the first.
    have hnot := (h'.fresh file' hfile').1
    rw [← heq, (h.fresh file hfile).2] at hnot
    cases hnot

/-- A file is entered before all files that its imports lead to, and completed after them. -/
theorem Traverses.file {w w' : Walk} {identifier : String} {file : SchemaFile}
    {entered : List (String × SchemaFile)} (hnew : w.units.contains identifier = false)
    (h : Traverses (w.enter identifier file) w' entered) :
    Traverses w (w'.complete identifier file) ((identifier, file) :: entered) := by
  have hunits (identifier' : String) :
      (w.enter identifier file).units.contains identifier' =
        (decide (identifier' = identifier) || w.units.contains identifier') :=
    contains_insert w.units identifier identifier' (.ofFile identifier file)
  have hnotin (file' : String × SchemaFile) (hfile' : file' ∈ entered) :
      file'.1 ≠ identifier ∧ w.units.contains file'.1 = false := by
    have hfresh := (h.fresh file' hfile').1
    rw [hunits] at hfresh
    simpa using hfresh
  have hentered : w'.units.contains identifier := h.kept (by rw [hunits]; simp)
  obtain ⟨completed, hfiles, hperm⟩ := h.files
  refine ⟨h.registry, ⟨completed ++ [(identifier, file)], ?_, ?_⟩, fun hw => ?_,
    fun file' hfile' => ?_, ?_⟩
  · show w'.files ++ [(identifier, file)] = _
    rw [hfiles, ← List.append_assoc]
    rfl
  · exact (List.perm_append_singleton _ _).trans (hperm.cons _)
  · refine h.kept ?_
    rw [hunits, hw, Bool.or_true]
  · rcases List.mem_cons.1 hfile' with rfl | hfile'
    · exact ⟨hnew, hentered⟩
    · exact ⟨(hnotin file' hfile').2, (h.fresh file' hfile').2⟩
  · rw [List.map_cons, List.nodup_cons]
    refine ⟨fun hmem => ?_, h.nodup⟩
    obtain ⟨file', hfile', heq⟩ := List.mem_map.1 hmem
    exact (hnotin file' hfile').1 heq

theorem Traverses.markWeak (w : Walk) (statement : Import) :
    Traverses w (w.markWeak statement) [] :=
  .of_registry_eq (registry_markWeak w statement) (files_markWeak w statement)
    fun {identifier} hw => by rwa [contains_markWeak]

theorem Traverses.enterAbsent (w : Walk) (identifier : String) :
    Traverses w (w.enterAbsent identifier) [] := by
  refine .of_registry_eq rfl rfl fun {identifier'} hw => ?_
  show (w.units.insert _ _).contains identifier' = true
  rw [contains_insert, hw, Bool.or_true]

theorem visit_traverses {loader : Loader} {options : RunOptions} {depth : Nat}
    {importer : Option String} {name : String} {w w' : Walk}
    (h : visit loader options depth importer name w = (.ok (), w')) :
    ∃ entered, Traverses w w' entered := by
  refine visit_rel (P := fun _ => True) (R := fun w w' => ∃ entered, Traverses w w' entered)
    (fun w => ⟨[], .of_registry_eq rfl rfl fun hw => hw⟩) ?_
    (fun w statement => ⟨[], .markWeak w statement⟩) (fun _ _ _ _ _ => trivial)
    (fun _ _ _ _ => ⟨[], .enterAbsent _ _⟩) ?_ trivial h
  · rintro w w' w'' ⟨entered, h⟩ ⟨entered', h'⟩
    exact ⟨entered ++ entered', h.trans h'⟩
  · rintro name text file w w' _ hnew _ _ ⟨entered, h⟩
    exact ⟨_, h.file hnew⟩

/-- A walk that starts with nothing completes the files that it enters, and these are what it
declares. -/
theorem Traverses.of_start {w : Walk} {entered : List (String × SchemaFile)}
    (h : Traverses (start .empty) w entered) :
    w.files.Perm entered ∧ w.registry = Registry.empty.declareFiles entered := by
  obtain ⟨completed, hfiles, hperm⟩ := h.files
  have hfiles : w.files = completed := hfiles
  exact ⟨hfiles ▸ hperm, h.registry⟩

/-- A walk that has completed one file has entered this one. -/
theorem Traverses.entered_eq_files {w : Walk} {entered : List (String × SchemaFile)}
    (h : Traverses (start .empty) w entered) (hone : w.files.length = 1) : entered = w.files := by
  obtain ⟨file, hfile⟩ := List.length_eq_one_iff.1 hone
  obtain ⟨hperm, -⟩ := h.of_start
  rw [hfile] at hperm ⊢
  exact (List.singleton_perm.1 hperm).symm

/-- What a walk that succeeds has entered. -/
theorem run_traverses {loader : Loader} {options : RunOptions} {root : String} {w : Walk}
    (h : run loader options root .empty = (.ok (), w)) :
    ∃ entered, Traverses (start .empty) w entered :=
  visit_traverses h

end Walk
end SchemaGraph
