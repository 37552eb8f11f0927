import Mathlib.Logic.Relation
import SchemaGraph.Proofs.Import.Root
import SchemaGraph.Proofs.Import.Weak
/-!
# The order of completed files

A walk completes a file when it has followed its imports. So a file comes after each file that it
imports, unless that one was still open then; and what is open leads to the file that is being
visited. `InCompletionOrder` is the property of the files, and `Walk.run_completionOrder` says that
walks have it. The induction is over a visit, with what is open before it as its hypothesis
(`Walk.Orders`).
-/

namespace SchemaGraph

open Relation

/-- Among the files, the one of the unit `u` has an import statement for the unit `v`. -/
def ImportsUnit (files : List (String × SchemaFile)) (u v : String) : Prop :=
  ∃ file, (u, file) ∈ files ∧ ∃ s ∈ file.imports, unitIdentifier s.path = v

theorem ImportsUnit.mono {files files' : List (String × SchemaFile)} (h : files ⊆ files')
    {u v : String} (himports : ImportsUnit files u v) : ImportsUnit files' u v := by
  obtain ⟨file, hfile, himports⟩ := himports
  exact ⟨file, h hfile, himports⟩

/-- The files of different units, each of them after those that it imports, apart from those that
lead back to it. -/
structure InCompletionOrder (files : List (String × SchemaFile)) : Prop where
  nodup : (files.map (·.1)).Nodup
  before : ∀ {u v}, ImportsUnit files u v → v ∈ files.map (·.1) →
    [v, u].Sublist (files.map (·.1)) ∨ ReflTransGen (ImportsUnit files) v u

/-- Where no imports lead back, each file comes after all that it imports. -/
theorem InCompletionOrder.before_of_acyclic {files : List (String × SchemaFile)}
    (h : InCompletionOrder files) (hacyclic : ∀ u, ¬ TransGen (ImportsUnit files) u u)
    {u v : String} (himports : ImportsUnit files u v) (hv : v ∈ files.map (·.1)) :
    [v, u].Sublist (files.map (·.1)) :=
  (h.before himports hv).resolve_right fun hback =>
    hacyclic u (TransGen.head' himports hback)

namespace Walk

variable {loader : Loader} {options : RunOptions} {root : String} {w w' w'' : Walk}

/-! ## Open units -/

/-- The unit has been entered, and its file is not completed. -/
def IsOpen (w : Walk) (id : String) : Prop :=
  ∃ unit, w.units.get? id = some unit ∧ unit.missing = false ∧ id ∉ w.files.map (·.1)

/-- The unit could not be loaded. -/
def IsMissing (w : Walk) (id : String) : Prop :=
  ∃ unit, w.units.get? id = some unit ∧ unit.missing = true

/-- A unit is missing, completed or open. -/
theorem cases_of_contains {id : String} (h : w.units.contains id) :
    w.IsMissing id ∨ id ∈ w.files.map (·.1) ∨ w.IsOpen id := by
  obtain ⟨unit, hunit⟩ := Option.isSome_iff_exists.1 h
  cases hmissing : unit.missing with
  | true => exact .inl ⟨unit, hunit, hmissing⟩
  | false =>
    by_cases hfile : id ∈ w.files.map (·.1)
    · exact .inr (.inl hfile)
    · exact .inr (.inr ⟨unit, hunit, hmissing, hfile⟩)

/-- From `w` to `w'` the walk goes on and leaves nothing open that was not open before. -/
structure Advances (w w' : Walk) : Prop where
  continues : Continues w w'
  closes : ∀ {id}, w'.IsOpen id → w.IsOpen id

theorem Continues.files_eq (h : Continues w w') : ∃ completed, w'.files = w.files ++ completed := by
  obtain ⟨entered, htraverses⟩ := h.files
  obtain ⟨completed, hfiles, -⟩ := htraverses.files
  exact ⟨completed, hfiles⟩

theorem Continues.files_subset (h : Continues w w') : w.files ⊆ w'.files := by
  obtain ⟨completed, hfiles⟩ := h.files_eq
  exact hfiles ▸ List.subset_append_left _ _

theorem Continues.contains (h : Continues w w') {id : String} (hid : w.units.contains id) :
    w'.units.contains id := by
  obtain ⟨entered, htraverses⟩ := h.files
  exact htraverses.kept hid

theorem Advances.refl (w : Walk) : Advances w w :=
  ⟨.refl w, fun hopen => hopen⟩

theorem Advances.trans (h : Advances w w') (h' : Advances w' w'') : Advances w w'' :=
  ⟨h.continues.trans h'.continues, fun hopen => h.closes (h'.closes hopen)⟩

theorem Advances.markWeak (w : Walk) (statement : Import) :
    Advances w (w.markWeak statement) := by
  refine ⟨.markWeak w statement, fun {id} hopen => ?_⟩
  obtain ⟨unit, hunit, hmissing, hfile⟩ := hopen
  rw [files_markWeak] at hfile
  obtain ⟨old, weak, hold, rfl⟩ := get?_markWeak hunit
  exact ⟨old, hold, hmissing, hfile⟩

theorem Advances.enterAbsent {identifier : String}
    (hnew : w.units.contains identifier = false) : Advances w (w.enterAbsent identifier) := by
  refine ⟨.enterAbsent hnew, fun {id} hopen => ?_⟩
  obtain ⟨unit, hunit, hmissing, hfile⟩ := hopen
  rw [get?_enterAbsent] at hunit
  split at hunit
  · cases hunit
    cases hmissing
  · exact ⟨unit, hunit, hmissing, hfile⟩

/-- What is open once a unit has been entered is that unit, or was open before. -/
theorem isOpen_enter {identifier : String} {file : SchemaFile} {id : String}
    (hopen : (w.enter identifier file).IsOpen id) : id = identifier ∨ w.IsOpen id := by
  obtain ⟨unit, hunit, hmissing, hfile⟩ := hopen
  rw [get?_enter] at hunit
  split at hunit
  · rename_i heq
    exact .inl heq
  · exact .inr ⟨unit, hunit, hmissing, hfile⟩

/-- A file that is completed is no longer open. -/
theorem Advances.file {identifier : String} {file : SchemaFile}
    (hnew : w.units.contains identifier = false) (h : Advances (w.enter identifier file) w') :
    Advances w (w'.complete identifier file) := by
  refine ⟨h.continues.file hnew, fun {id} hopen => ?_⟩
  obtain ⟨unit, hunit, hmissing, hfile⟩ := hopen
  change id ∉ (w'.files ++ [(identifier, file)]).map (·.1) at hfile
  rw [List.map_append, List.mem_append, not_or] at hfile
  have hne : id ≠ identifier := fun heq => hfile.2 (by simp [heq])
  exact (isOpen_enter (h.closes ⟨unit, hunit, hmissing, hfile.1⟩)).resolve_left hne

/-! ## The order -/

/-- The import of the unit `v` by the unit `u` is in order: `v` is completed before `u`, or leads to
`u` in the files `final`, or is missing. -/
def Placed (final : List (String × SchemaFile)) (w : Walk) (u v : String) : Prop :=
  [v, u].Sublist (w.files.map (·.1)) ∨ ReflTransGen (ImportsUnit final) v u ∨ w.IsMissing v

/-- All imports of the files of a walk are in order. -/
def Ordered (final : List (String × SchemaFile)) (w : Walk) : Prop :=
  ∀ u v, ImportsUnit w.files u v → Placed final w u v

variable {final : List (String × SchemaFile)}

/-- What is in order stays so when more files are completed. -/
theorem Placed.mono {u v : String} {completed : List (String × SchemaFile)}
    (h : Placed final w u v) (hfiles : w'.files = w.files ++ completed)
    (hmissing : ∀ {id}, w.IsMissing id → w'.IsMissing id) : Placed final w' u v := by
  rcases h with hbefore | hback | hv
  · rw [Placed, hfiles, List.map_append]
    exact .inl (hbefore.trans (List.sublist_append_left _ _))
  · exact .inr (.inl hback)
  · exact .inr (.inr (hmissing hv))

theorem Continues.isMissing (h : Continues w w') {id : String} (hid : w.IsMissing id) :
    w'.IsMissing id := by
  obtain ⟨unit, hunit, hmissing⟩ := hid
  obtain ⟨weak, hkept⟩ := h.units hunit
  exact ⟨_, hkept, hmissing⟩

theorem Ordered.markWeak (h : w.Ordered final) (statement : Import) :
    (w.markWeak statement).Ordered final := by
  have hfiles := files_markWeak w statement
  intro u v himports
  exact (h u v (hfiles ▸ himports)).mono (hfiles.trans (List.append_nil _).symm)
    (Continues.markWeak w statement).isMissing

theorem isMissing_insert {identifier : String} {new : SourceUnit}
    (hnew : w.units.contains identifier = false) (h : w'.units = w.units.insert identifier new)
    {id : String} (hid : w.IsMissing id) : w'.IsMissing id := by
  obtain ⟨unit, hunit, hmissing⟩ := hid
  exact ⟨unit, kept_of_insert hnew h hunit, hmissing⟩

theorem Ordered.insert {identifier : String} {new : SourceUnit} (h : w.Ordered final)
    (hnew : w.units.contains identifier = false) (hunits : w'.units = w.units.insert identifier new)
    (hfiles : w'.files = w.files) : w'.Ordered final := fun u v himports =>
  (h u v (hfiles ▸ himports)).mono (hfiles.trans (List.append_nil _).symm)
    (isMissing_insert hnew hunits)

/-- `Orders final name w w'`: to visit the name has led from `w` to `w'`; and if all that was open
leads to the name in the files `final`, then the order has been kept. -/
structure Orders (final : List (String × SchemaFile)) (name : String) (w w' : Walk) : Prop where
  advances : Advances w w'
  reached : w'.units.contains (unitIdentifier name)
  ordered : w'.files ⊆ final →
    (∀ id, w.IsOpen id → ReflTransGen (ImportsUnit final) id (unitIdentifier name)) →
    w.Ordered final → w'.Ordered final

/-- Imports that are followed one after the other keep the order, if all that is open leads to each
of them. -/
theorem Follows.orders {imports : List Import} (h : Follows (Orders final) imports w w') :
    Advances w w' ∧ (∀ s ∈ imports, w'.units.contains (unitIdentifier s.path)) ∧
      (w'.files ⊆ final →
        (∀ s ∈ imports, ∀ id, w.IsOpen id →
          ReflTransGen (ImportsUnit final) id (unitIdentifier s.path)) →
        w.Ordered final → w'.Ordered final) := by
  induction h with
  | nil => exact ⟨.refl _, by simp, fun _ _ hw => hw⟩
  | @cons statement rest w w₁ w' hfirst _ ih =>
    obtain ⟨hrest, hreached, hordered⟩ := ih
    have hmarked := (Advances.markWeak w₁ statement).trans hrest
    refine ⟨hfirst.advances.trans hmarked, fun s hs => ?_, fun hfinal hlead hw => ?_⟩
    · rcases List.mem_cons.1 hs with rfl | hs
      · exact hmarked.continues.contains hfirst.reached
      · exact hreached s hs
    · have hfinal₁ : w₁.files ⊆ final := fun file hfile =>
        hfinal (hmarked.continues.files_subset hfile)
      have hw₁ := hfirst.ordered hfinal₁ (hlead statement (by simp)) hw
      refine hordered hfinal (fun s hs id hopen => ?_) (hw₁.markWeak statement)
      -- Whatever is open after the first import was open before it.
      exact hlead s (by simp [hs]) id
        (hfirst.advances.closes ((Advances.markWeak w₁ statement).closes hopen))

/-- A file is completed in order. -/
theorem Orders.file {name : String} {file : SchemaFile}
    (hnew : w.units.contains (unitIdentifier name) = false)
    (h : Follows (Orders final) file.imports (w.enter (unitIdentifier name) file) w') :
    Orders final name w (w'.complete (unitIdentifier name) file) := by
  obtain ⟨hinside, hreached, hordered⟩ := h.orders
  have hadvances := hinside.file hnew
  have hself : (w'.complete (unitIdentifier name) file).files =
      w'.files ++ [(unitIdentifier name, file)] := rfl
  refine ⟨hadvances, ?_, fun hfinal hlead hw => ?_⟩
  · change w'.units.contains (unitIdentifier name) = true
    exact hinside.continues.contains (by simp [contains_enter])
  · rw [hself] at hfinal
    have hmem : (unitIdentifier name, file) ∈ final := hfinal (by simp)
    have hfinal' : w'.files ⊆ final := fun f hf => hfinal (List.mem_append_left _ hf)
    -- All that is open while the imports are followed leads to this unit.
    have hopens {id : String} (hopen : (w.enter (unitIdentifier name) file).IsOpen id) :
        ReflTransGen (ImportsUnit final) id (unitIdentifier name) := by
      rcases isOpen_enter hopen with rfl | hopen
      · exact .refl
      · exact hlead id hopen
    have hw' := hordered hfinal' (fun s hs id hopen =>
      (hopens hopen).tail ⟨file, hmem, s, hs, rfl⟩) (hw.insert hnew rfl rfl)
    rintro u v ⟨f, hf, s, hs, rfl⟩
    rcases List.mem_append.1 (hself ▸ hf) with hf | hf
    · exact (hw' u _ ⟨f, hf, s, hs, rfl⟩).mono hself fun hid => hid
    · cases List.mem_singleton.1 hf
      rcases cases_of_contains (hreached s hs) with hmissing | hdone | hopen
      · exact .inr (.inr hmissing)
      · rw [Placed, hself, List.map_append]
        exact .inl ((List.singleton_sublist.2 hdone).append (.refl _))
      · exact .inr (.inl (hopens (hinside.closes hopen)))

theorem visit_orders {rank : UnitTable → String → Nat} (hranks : Ranks loader rank) {depth : Nat}
    {importer : Option String} {name : String} (hdepth : rank w.units name ≤ depth)
    (h : visit loader options depth importer name w = (.ok (), w')) : Orders final name w w' := by
  refine visit_induct hranks (fun hold => ⟨.refl _, hold, fun _ _ hw => hw⟩) ?_
    (fun hnew _ _ hfollow => .file hnew hfollow) hdepth h
  intro name w e hnew _
  exact ⟨.enterAbsent hnew, by simp [contains_enterAbsent],
    fun _ _ hw => hw.insert hnew rfl rfl⟩

/-- The files of a walk that has succeeded are in order. -/
theorem run_ordered (hsuffices : loader.Suffices root) {registry : Registry}
    (h : run loader options root registry = (.ok (), w)) : w.Ordered w.files := by
  obtain ⟨rank, hranks, hdepth⟩ := hsuffices
  refine (visit_orders hranks (hdepth _) h).ordered (fun _ hfile => hfile) ?_ ?_
  · rintro id ⟨unit, hunit, -⟩
    cases hunit
  · rintro u v ⟨file, hfile, -⟩
    cases hfile

theorem nodup_files {registry : Registry} (h : run loader options root registry = (.ok (), w)) :
    (w.files.map (·.1)).Nodup := by
  obtain ⟨entered, htraverses⟩ := visit_traverses h
  obtain ⟨completed, hfiles, hperm⟩ := htraverses.files
  rw [hfiles]
  exact (hperm.map (·.1)).nodup_iff.2 htraverses.nodup

theorem run_inCompletionOrder (hsuffices : loader.Suffices root) {registry : Registry}
    (h : run loader options root registry = (.ok (), w)) : InCompletionOrder w.files := by
  refine ⟨nodup_files h, fun {u v} himports hv => ?_⟩
  rcases run_ordered hsuffices h u v himports with hbefore | hback | ⟨unit, hunit, hmissing⟩
  · exact .inl hbefore
  · exact .inr hback
  -- The file of a missing unit is not completed.
  · rw [(run_flags hsuffices h hunit).1.2 hv] at hmissing
    cases hmissing

/-- **Walks complete files in order.** When a walk has succeeded, each file comes after the files
that it imports, unless these lead back to it; and the root comes last. So where no imports lead
back, each file comes after all that it imports. The loaders of finitely many texts suffice
(`Loader.Lists.suffices`), and so do those of a file tree (`ImportLookup.suffices_loader`). -/
theorem run_completionOrder (hsuffices : loader.Suffices root) {registry : Registry}
    (h : run loader options root registry = (.ok (), w)) :
    InCompletionOrder w.files ∧
      (∃ file, w.files.getLast? = some (unitIdentifier root, file)) ∧
      ((∀ u, ¬ TransGen (ImportsUnit w.files) u u) → ∀ u v, ImportsUnit w.files u v →
        v ∈ w.files.map (·.1) → [v, u].Sublist (w.files.map (·.1))) := by
  have horder := run_inCompletionOrder hsuffices h
  obtain ⟨depth, text, file, w', -, -, -, rfl⟩ := run_eq_ok h
  exact ⟨horder, ⟨file, List.getLast?_concat⟩,
    fun hacyclic u v himports hv => horder.before_of_acyclic hacyclic himports hv⟩

/-- Two files that import each other, a third one that both import, and a name without a text. -/
def sharedTexts : Table String String :=
  .ofList [("a", "import \"b\";import \"c\";"), ("b", "import \"a\";import \"m\";import \"c\";"),
    ("c", "")]

/-- The shared file comes first and the root last. -/
theorem run_sharedTexts : ∃ w, run (.ofTable sharedTexts) ⟨true, true⟩ "a" .empty = (.ok (), w) ∧
    w.files.map (·.1) = ["c", "b", "a"] ∧ InCompletionOrder w.files := by
  have hwalk : (run (.ofTable sharedTexts) ⟨true, true⟩ "a" .empty).1.isOk = true ∧
      (run (.ofTable sharedTexts) ⟨true, true⟩ "a" .empty).2.files.map (·.1) = ["c", "b", "a"] := by
    decide +kernel
  have hrun := eq_ok_of_isOk hwalk.1
  exact ⟨_, hrun, hwalk.2,
    (run_completionOrder ((Loader.lists_ofTable sharedTexts).suffices "a") hrun).1⟩

end Walk
end SchemaGraph
