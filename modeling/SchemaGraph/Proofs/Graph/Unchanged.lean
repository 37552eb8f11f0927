import SchemaGraph.Proofs.Graph.Expansion
import SchemaGraph.Proofs.Graph.Outcome
/-!
# Selections leave a graph as it is

A selection binds the types of its methods again, with the symbols of the graph. A build has bound
all references of its winners before, and its symbols remember what each is bound to
(`Symbols.Remembers`): what is bound to a declared entity is kept as a binding, and what is bound to
nothing has its placeholder in the registry. So binding a reference once more changes neither, and
`LoadedGraph.select_unchanged` follows.
-/

namespace SchemaGraph

namespace Symbols

/-- If the reference is bound to a declared entity of `r`, the binding is kept. -/
def Remembers (s : Symbols) (r : Registry) (ref : Reference) : Prop :=
  Name.isScalar ref.typeName = false → ∀ q, r.bind ref.owner ref.typeName = .ok (some q) →
    s.lookup ref.owner ref.typeName = some q

/-- What has been resolved is remembered. -/
theorem Extends.remembers {r : Registry} {s : Symbols} (h : Extends r s) (showMissing : Bool)
    (ref : Reference) :
    (s.resolve showMissing ref.owner ref.typeName).2.Remembers r ref := by
  intro hscalar q hbind
  cases hlookup : s.lookup ref.owner ref.typeName with
  | some bound =>
    have hsame : bound = q := by simpa using (h.bound hlookup).symm.trans hbind
    exact lookup_resolve (hsame ▸ hlookup) showMissing _ _
  | none =>
    unfold resolve
    rw [hlookup, h.grows.bind_eq, hbind]
    simp [hscalar, lookup]

/-- A reference that is remembered is not bound once more. -/
theorem Extends.bindings_resolve {r : Registry} {s : Symbols} (h : Extends r s) {ref : Reference}
    (href : s.Remembers r ref) (showMissing : Bool) :
    (s.resolve showMissing ref.owner ref.typeName).2.bindings = s.bindings := by
  unfold resolve
  split
  · rfl
  · rename_i hscalar
    rw [h.grows.bind_eq]
    cases hlookup : s.lookup ref.owner ref.typeName with
    | some bound => rfl
    | none =>
      dsimp only
      split
      · rfl
      · rename_i q hbind
        have hkept := href (by simpa using hscalar) q hbind
        exact absurd (hlookup.symm.trans hkept) (by simp)
      · split
        · obtain ⟨source, heq⟩ := s.placeholder_eq ref.owner ref.typeName
          rw [heq]
        · rfl

end Symbols

/-! ## Building -/

namespace Build

variable {r : Registry} {b : Build} {context : BuildContext}

/-- One task keeps the bindings made so far. -/
theorem lookup_task {scope reference q : String} (h : b.symbols.lookup scope reference = some q)
    (task : Task) : (task.perform context r b).symbols.lookup scope reference = some q := by
  cases task with
  | claim | skip => exact h
  | draw =>
    rw [Task.perform]
    split <;> exact h
  | link ref =>
    rw [Task.perform]
    split
    · rw [symbols_link]
      exact Symbols.lookup_resolve h _ _ _
    · exact h

/-- Any tasks keep them. -/
theorem lookup_perform {scope reference q : String}
    (h : b.symbols.lookup scope reference = some q) (tasks : List Task) :
    (perform context r tasks b).symbols.lookup scope reference = some q := by
  induction tasks generalizing b with
  | nil => exact h
  | cons task tasks ih => exact ih (lookup_task h task)

/-- The references of the tasks performed are remembered. -/
theorem remembers_perform (hr : r.Indexed) (h : Stands r context.showMissing b)
    {tasks : List Task} {ref : Reference} (href : ref ∈ tasks.filterMap (·.reference?))
    (howner : (r.get? ref.owner).isSome) :
    (perform context r tasks b).symbols.Remembers r ref := by
  induction tasks generalizing b with
  | nil => cases href
  | cons task tasks ih =>
    obtain ⟨owner, howner⟩ := Option.isSome_iff_exists.1 howner
    rw [List.mem_filterMap, List.exists_mem_cons_iff, ← List.mem_filterMap] at href
    rcases href with hfirst | hlater
    · cases task with
      | claim | skip | draw => cases hfirst
      | link ref' =>
        obtain rfl : ref' = ref := Option.some.inj hfirst
        intro hscalar q hbind
        refine lookup_perform ?_ tasks
        simp only [Task.perform, howner, symbols_link, hr.stored howner]
        exact h.symbols.remembers _ ref' hscalar q hbind
    · exact ih (h.task context hr task) hlater

end Build

/-- The build over the files of a walk remembers all references of the winners. -/
theorem LoadedGraph.remembers_buildOf {walk : Walk} {entered : List (String × SchemaFile)}
    (h : Walk.Traverses (.start .empty) walk entered) (renderer : Renderer) (options : RunOptions)
    {ref : Reference} (href : ref ∈ (Winner.ofFiles entered).flatMap (·.references)) :
    (buildOf renderer options walk).symbols.Remembers walk.registry ref := by
  obtain ⟨hperm, hregistry⟩ := h.of_start
  have href := (Build.references_perm h.nodup hperm).mem_iff.2 href
  have howner := Build.owned_references h.nodup hperm ref href
  have hstands := Build.stands_start entered options.showMissingTypes
  unfold buildOf
  rw [hregistry, Build.buildAll_eq h.nodup hperm]
  -- Drawing the placeholders binds nothing.
  refine Build.drawPlaceholders_induction (P := fun b => b.symbols.Remembers _ ref)
    (fun _ _ _ _ hb => hb) ?_
  rw [← Build.filterMap_tasks] at href
  exact Build.remembers_perform (Registry.coherent_declareFiles entered).indexed hstands href howner

/-! ## Selecting -/

namespace Seeding

theorem symbols_addRpcType (showMissing : Bool) (graph : InclusionGraph)
    (serviceId service field reference : String) (s : Seeding) :
    (s.addRpcType showMissing graph serviceId service field reference).symbols =
      (s.symbols.resolve showMissing service reference).2 := by
  unfold addRpcType
  dsimp only
  split
  · rename_i heq
    rw [heq]
  · rename_i heq
    rw [heq]

end Seeding

namespace Settled

variable {r : Registry} {winners : List Winner} {showMissing : Bool} {graph : InclusionGraph}
  {s : Symbols}

/-- Resolving a reference of a winner again changes nothing. -/
theorem resolve_symbols (h : Settled r winners showMissing graph s) {ref : Reference}
    (href : ref ∈ winners.flatMap (·.references)) (howner : (r.get? ref.owner).isSome)
    (hremembers : s.Remembers r ref) :
    (s.resolve showMissing ref.owner ref.typeName).2 = s := by
  obtain ⟨-, hregistry, -⟩ := h.resolve href howner
  have hbindings := h.symbols.bindings_resolve hremembers showMissing
  generalize (s.resolve showMissing ref.owner ref.typeName).2 = s' at hregistry hbindings
  obtain ⟨registry, bindings⟩ := s'
  simp only at hregistry hbindings
  rw [hregistry, hbindings]

/-- Going through a seed changes no symbols. -/
theorem symbols_addSeed (h : Settled r winners showMissing graph s)
    (hremembers : ∀ ref ∈ winners.flatMap (·.references), s.Remembers r ref) {seeding : Seeding}
    (hs : seeding.symbols = s) (seed : String) :
    (seeding.addSeed showMissing graph seed).symbols = s := by
  unfold Seeding.addSeed
  rw [hs]
  split
  · exact hs
  · rename_i entity hentity
    dsimp only
    split
    · rename_i signature hkind hrpc
      obtain ⟨howner, hrequest, hresponse⟩ := h.signature ⟨hentity, hkind, hrpc⟩
      have hrequest' := h.resolve_symbols hrequest howner (hremembers _ hrequest)
      have hresponse' := h.resolve_symbols hresponse howner (hremembers _ hresponse)
      unfold Seeding.addRpc
      rw [hs]
      dsimp only
      split
      · exact hs
      · rw [Seeding.symbols_addRpcType, Seeding.symbols_addRpcType, hs, hrequest', hresponse']
    · exact hs

/-- Expanding seeds changes no symbols. -/
theorem symbols_expand (h : Settled r winners showMissing graph s)
    (hremembers : ∀ ref ∈ winners.flatMap (·.references), s.Remembers r ref)
    (seeds : List String) : (s.expand showMissing graph seeds).2 = s := by
  have hfoldl (seeding : Seeding) (hs : seeding.symbols = s) :
      (seeds.foldl (Seeding.addSeed showMissing graph) seeding).symbols = s := by
    induction seeds generalizing seeding with
    | nil => exact hs
    | cons seed seeds ih => exact ih _ (h.symbols_addSeed hremembers hs seed)
  exact hfoldl ⟨s, .empty, [], []⟩ rfl

/-- A selection changes no symbols, whether it succeeds or not. -/
theorem symbols_select (h : Settled r winners showMissing graph s)
    (hremembers : ∀ ref ∈ winners.flatMap (·.references), s.Remembers r ref)
    (selection root : String) : (s.select showMissing graph selection root).2 = s := by
  unfold Symbols.select
  split
  · rfl
  · exact h.symbols_expand hremembers _

end Settled

namespace LoadedGraph

/-- The outcomes of some selections, one after the other, and the graph to go on with. -/
def selectAll : List String → LoadedGraph → List (Except SelectionError Subgraph) × LoadedGraph
  | [], g => ([], g)
  | selection :: selections, g =>
    let (outcome, g) := g.select selection
    let (outcomes, g) := selectAll selections g
    (outcome :: outcomes, g)

/-- The graph that a selection leaves is the one it has started from. -/
theorem select_snd {loader : Loader} {options : RunOptions} {renderer : Renderer} {root : String}
    {g : LoadedGraph} (h : load loader options renderer root = .ok g) (selection : String) :
    (g.select selection).2 = g := by
  obtain ⟨walk, hrun, hsymbols, hgraph, hoptions, -, -⟩ := load_eq_ok h
  obtain ⟨entered, htraverses⟩ := Walk.run_traverses hrun
  have hsettled := settled_buildOf htraverses renderer options
  have hremembers : ∀ ref ∈ (Winner.ofFiles entered).flatMap (·.references),
      (buildOf renderer options walk).symbols.Remembers walk.registry ref := fun _ href =>
    remembers_buildOf htraverses renderer options href
  rw [← hsymbols] at hsettled hremembers
  rw [← hgraph, ← hoptions] at hsettled
  have hselect := hsettled.symbols_select hremembers selection g.root
  show { g with symbols := (g.symbols.select _ g.graph selection g.root).2 } = g
  rw [hselect]

/--
**Selections leave no trace.** Whatever is selected, and whether anything matches it or not, a
selection leaves the graph it is made on exactly as loading has left it, with all its symbols and
edges. So in any sequence of selections each has the outcome that it would have as the first one.
-/
theorem select_unchanged {loader : Loader} {options : RunOptions} {renderer : Renderer}
    {root : String} {g : LoadedGraph} (h : load loader options renderer root = .ok g) :
    (∀ selection, (g.select selection).2 = g ∧ (g.render (some selection)).2 = g) ∧
      ∀ selections, selectAll selections g = (selections.map fun s => (g.select s).1, g) := by
  have hselect := select_snd h
  refine ⟨fun selection => ⟨hselect selection, ?_⟩, fun selections => ?_⟩
  · unfold render renderSelection
    have hselected := hselect (Text.trim selection)
    dsimp only [Option.getD_some]
    split
    · rfl
    · split
      · rfl
      · split
        · rename_i heq
          rw [heq] at hselected
          exact hselected
        · rename_i heq
          rw [heq] at hselected
          exact hselected
  · induction selections with
    | nil => rfl
    | cons selection selections ih =>
      have hsplit : g.select selection = ((g.select selection).1, g) :=
        Prod.ext rfl (hselect selection)
      rw [selectAll, List.map_cons, hsplit]
      simp only [ih]

/-- Two methods, one of which matches nothing, and a message: the second time the first method is
selected as if it were the first time. -/
theorem select_unchanged_serviceTexts : ∃ g,
    load (.ofTable serviceTexts) ⟨false, true⟩ (fun _ _ => "") "a" = .ok g ∧
      (∀ selection, (g.select selection).2 = g) ∧
      (selectAll ["S.M", "S.P", "A", "S.M"] g).1 =
        ["S.M", "S.P", "A", "S.M"].map fun s => (g.select s).1 := by
  have hloads : (match load (.ofTable serviceTexts) ⟨false, true⟩ (fun _ _ => "") "a" with
      | .ok _ => true
      | .error _ => false) = true := by
    decide +kernel
  cases hload : load (.ofTable serviceTexts) ⟨false, true⟩ (fun _ _ => "") "a" with
  | error e => simp [hload] at hloads
  | ok g =>
    obtain ⟨hselect, hall⟩ := select_unchanged hload
    exact ⟨g, rfl, fun selection => (hselect selection).1, by rw [hall]⟩

end LoadedGraph
end SchemaGraph
