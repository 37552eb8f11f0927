import Mathlib.Data.List.Perm.Subperm
import SchemaGraph.Proofs.Graph.Outcome
/-!
# What a build draws

Every entity that is not a method is drawn once, with the rows of its body: no two tasks draw the
same entity (`Build.nodup_drawn`), so what one of them draws is what remains (`drawn_buildAll`). The
placeholders are drawn at the end, and they are none of the entities declared.
-/

namespace SchemaGraph

/-- The entity that a task draws. -/
def Build.Task.drawn? : Build.Task → Option String
  | .draw q _ => some q
  | .claim _ | .link _ | .skip .. => none

namespace Outline

mutual

/-- What is drawn are winners, each of them once. -/
theorem drawn_subperm (kinds : String → String → FieldKind) (o : Outline) (taken : List String) :
    ((tasks kinds o taken).filterMap (·.drawn?)).Subperm
      ((winners o taken).map (·.qualifiedName)) := by
  cases o with
  | reference => exact .refl _
  | skipped => exact .refl _
  | declaration w rows inside =>
    have hinside := drawnIn_subperm kinds inside (taken ++ [w.qualifiedName])
    cases rows <;> rw [tasks, winners, Winner.contest] <;> split
    · exact .refl _
    · exact hinside.cons_right _
    · exact .refl _
    -- A body is drawn after what stands inside it.
    · rw [List.filterMap_append, List.filterMap_cons_none rfl, List.map_cons]
      exact (List.perm_append_singleton _ _).subperm.trans ((List.subperm_cons _).2 hinside)

theorem drawnIn_subperm (kinds : String → String → FieldKind) (os : List Outline)
    (taken : List String) :
    ((tasksIn kinds os taken).filterMap (·.drawn?)).Subperm
      ((winnersIn os taken).map (·.qualifiedName)) := by
  cases os with
  | nil => exact .refl _
  | cons o os =>
    rw [tasksIn, winnersIn, List.filterMap_append, List.map_append]
    exact (drawn_subperm kinds o taken).append (drawnIn_subperm kinds os _)

end

/-- A declaration that finds its name free is drawn with its rows. -/
theorem draw_mem_tasks (kinds : String → String → FieldKind) {w : Winner} {taken : List String}
    (h : w.qualifiedName ∉ taken) (rows : (String → FieldKind) → List BodyRow)
    (inside : List Outline) :
    .draw w.qualifiedName (rows (kinds w.qualifiedName)) ∈
      tasks kinds (.declaration w (some rows) inside) taken := by
  rw [tasks, if_neg h]
  exact List.mem_append_right _ List.mem_cons_self

end Outline

namespace Build

variable {entered files : List (String × SchemaFile)}

theorem drawn_tasks_subperm (kinds : String → String → FieldKind)
    (entered files : List (String × SchemaFile)) :
    ((tasks kinds entered files).filterMap (·.drawn?)).Subperm
      (files.flatMap fun file => (Outline.winnersIn (Outline.ofFile file)
        (Winner.takenBefore entered file.1)).map (·.qualifiedName)) := by
  induction files with
  | nil => exact .refl _
  | cons file files ih =>
    have hsplit : tasks kinds entered (file :: files) =
        Outline.tasksIn kinds (Outline.ofFile file) (Winner.takenBefore entered file.1) ++
          tasks kinds entered files := List.flatMap_cons
    rw [hsplit, List.filterMap_append, List.flatMap_cons]
    exact (Outline.drawnIn_subperm kinds _ _).append ih

/-- No entity is drawn twice. -/
theorem nodup_drawn (hnodup : (entered.map (·.1)).Nodup) (hperm : files.Perm entered)
    (kinds : String → String → FieldKind) :
    ((tasks kinds entered files).filterMap (·.drawn?)).Nodup := by
  have hwinners := (Winner.flatMap_filter_perm hnodup hperm).map (·.qualifiedName)
  rw [List.map_flatMap, List.flatMap_map] at hwinners
  have hnames : (files.flatMap fun file => (Outline.winnersIn (Outline.ofFile file)
      (Winner.takenBefore entered file.1)).map (·.qualifiedName)) =
      files.flatMap fun file =>
        ((Winner.ofFiles entered).filter (·.source = file.1)).map (·.qualifiedName) := by
    refine List.flatMap_congr fun file hfile => ?_
    rw [← (Winner.ofFile_eq_filter hnodup (hperm.mem_iff.1 hfile)).1, Outline.ofFile_eq_winnersIn]
  obtain ⟨drawn, hdrawn, hsublist⟩ := drawn_tasks_subperm kinds entered files
  rw [hnames] at hsublist
  exact hdrawn.nodup_iff.1
    (hsublist.nodup (hwinners.nodup_iff.2 (Registry.takes_declareFiles entered).nodup))

/-! ## What remains of a drawing -/

variable {r : Registry} {showMissing : Bool} {b : Build} {context : BuildContext}

/-- Resolving a reference leaves what is registered as it is. -/
theorem get?_resolve_of_present {s : Symbols} {q : String} {e : Entity}
    (he : s.registry.get? q = some e) (showMissing : Bool) (scope reference : String) :
    (s.resolve showMissing scope reference).2.registry.get? q = some e := by
  rcases registry_resolve s showMissing scope reference with heq | ⟨-, heq⟩
  · rw [heq, he]
  · obtain ⟨source, hplaceholder⟩ := s.placeholder_eq scope reference
    rw [heq, hplaceholder, Registry.get?_placeholder]
    split
    · rename_i hname
      rw [Registry.placeholder_of_present (hname ▸ he)]
    · exact he

theorem get?_attach (context : BuildContext) (entity : Entity) (rows : List BodyRow) (b : Build)
    (q : String) :
    (attach context entity rows b).2.symbols.registry.get? q =
      if q = entity.qualifiedName then
        (b.symbols.registry.get? q).map fun e =>
          { e with artifact := some (context.renderer entity rows) }
      else b.symbols.registry.get? q :=
  Registry.get?_setArtifact ..

/-- Tasks that do not draw an entity leave it as it is. -/
theorem get?_perform_of_not_drawn (hr : r.Indexed) {q : String} {e : Entity}
    (he : b.symbols.registry.get? q = some e) {tasks : List Task}
    (hq : q ∉ tasks.filterMap (·.drawn?)) :
    (perform context r tasks b).symbols.registry.get? q = some e := by
  induction tasks generalizing b with
  | nil => exact he
  | cons task tasks ih =>
    have hrest : q ∉ tasks.filterMap (·.drawn?) := fun hmem => hq (by
      rw [List.filterMap_cons]
      split
      · exact hmem
      · exact List.mem_cons_of_mem _ hmem)
    refine ih (b := task.perform context r b) ?_ hrest
    cases task with
    | claim => exact he
    | skip => exact he
    | link ref =>
      rw [Task.perform]
      split
      · rw [symbols_link]
        exact get?_resolve_of_present he _ _ _
      · exact he
    | draw q' rows =>
      rw [Task.perform]
      split
      · rename_i entity hentity
        have hne : q ≠ entity.qualifiedName := by
          rintro rfl
          rw [hr.stored hentity] at hq
          exact hq List.mem_cons_self
        rw [get?_attach, if_neg hne, he]
      · exact he

/-- What one task draws remains if no other task draws the same entity. -/
theorem get?_perform_of_drawn (context : BuildContext) (h : Stands r context.showMissing b)
    (hr : r.Indexed) {q : String} {e : Entity} (he : r.get? q = some e) {rows : List BodyRow}
    {tasks : List Task} (hdraw : .draw q rows ∈ tasks)
    (hnodup : (tasks.filterMap (·.drawn?)).Nodup) :
    ∃ e', (perform context r tasks b).symbols.registry.get? q = some e' ∧
      e'.undrawn = e.undrawn ∧ e'.artifact = some (context.renderer e rows) := by
  obtain ⟨before, after, rfl⟩ := List.append_of_mem hdraw
  have hafter : q ∉ after.filterMap (·.drawn?) := by
    have hcons : (Task.draw q rows :: after).filterMap (·.drawn?) =
        q :: after.filterMap (·.drawn?) := rfl
    rw [List.filterMap_append, hcons, List.nodup_append, List.nodup_cons] at hnodup
    exact hnodup.2.1.1
  have hrun : perform context r (before ++ .draw q rows :: after) b =
      perform context r after (attach context e rows (perform context r before b)).2 := by
    rw [perform, List.foldl_append, List.foldl_cons, Task.perform]
    simp only [he]
    rfl
  obtain ⟨e', he', hundrawn⟩ := (h.perform context hr before).symbols.grows.kept he
  rw [hrun]
  refine ⟨{ e' with artifact := some (context.renderer e rows) },
    get?_perform_of_not_drawn hr ?_ hafter, hundrawn, rfl⟩
  rw [get?_attach, if_pos (hr.stored he).symm, he']
  rfl

/-- Drawing the placeholders leaves everything else as it is. -/
theorem get?_drawPlaceholders (hindexed : b.symbols.registry.Indexed) {q : String} {e : Entity}
    (he : b.symbols.registry.get? q = some e) (hkind : e.kind ≠ .missing)
    (context : BuildContext) :
    (drawPlaceholders context b).2.symbols.registry.get? q = some e := by
  refine drawPlaceholders_induction (P := fun b' => b'.symbols.registry.get? q = some e)
    (fun e' he' hmissing b' hb' => ?_) he
  have hne : q ≠ e'.qualifiedName := by
    rintro rfl
    obtain ⟨q, hq⟩ := (Table.mem_values _ e').1 he'
    rw [hindexed.stored hq] at he
    exact hkind (Option.some.inj (he.symm.trans hq) ▸ hmissing)
  rw [get?_attach, if_neg hne, hb']

/-- The fragment of an entity that a build draws for its body. -/
theorem drawn_buildAll (hnodup : (entered.map (·.1)).Nodup) (hperm : files.Perm entered)
    (renderer : Renderer) (showMissing : Bool) {q : String} {e : Entity}
    (he : (Registry.empty.declareFiles entered).get? q = some e) {rows : List BodyRow}
    (hdraw : .draw q rows ∈
      tasks ((Registry.empty.declareFiles entered).fieldKind showMissing) entered files) :
    ∃ e', (buildAll ⟨renderer, showMissing⟩ files
        (start (.ofRegistry (Registry.empty.declareFiles entered)) .empty)).2.symbols.registry.get?
          q = some e' ∧
      e'.undrawn = e ∧ e'.artifact = some (renderer e rows) := by
  have hr := founds_declareFiles entered
  have hstands := stands_start entered showMissing
  obtain ⟨e', he', hundrawn, hartifact⟩ :=
    get?_perform_of_drawn ⟨renderer, showMissing⟩ hstands hr.coherent.indexed he hdraw
      (nodup_drawn hnodup hperm _)
  have hkind : e'.kind ≠ .missing := by
    rw [Entity.kind_eq_of_undrawn hundrawn]
    exact Registry.kind_ne_missing_of_declareFiles he
  rw [buildAll_eq hnodup hperm]
  have hperformed := hstands.perform ⟨renderer, showMissing⟩ hr.coherent.indexed
    (tasks ((Registry.empty.declareFiles entered).fieldKind showMissing) entered files)
  exact ⟨e', get?_drawPlaceholders hperformed.symbols.coherent.indexed he' hkind _,
    hundrawn.trans (Entity.undrawn_eq_self (hr.undrawn q e he)), hartifact⟩

end Build
end SchemaGraph
