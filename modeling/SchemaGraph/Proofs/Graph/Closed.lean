import SchemaGraph.Proofs.Graph.Methods
/-!
# Selected subgraphs are closed

A subgraph is closed if its edges run between its own entities. What edges reach brings its targets
along. A method among the seeds brings the edges of two fields of its service, but only the types of
its own signature: that these are all targets is what registry and graph have to agree on
(`LoadedGraph.MethodAgrees`).
-/

namespace SchemaGraph

/-- The edges of the subgraph run between nodes of its entities. -/
def Subgraph.Closed (s : Subgraph) : Prop :=
  ∀ key targets, s.edges.get? key = some targets →
    (∃ e ∈ s.entities, e.nodeId = key.owner) ∧
      ∀ id n, targets.get? id = some n → ∃ e ∈ s.entities, e.nodeId = id

theorem Registry.mem_sortedEntities {r : Registry} {names : List String} {q : String} {e : Entity}
    (hq : q ∈ names) (he : r.get? q = some e) : e ∈ r.sortedEntities names :=
  List.mem_filterMap.2 ⟨q, (mem_sortDistinct _ _).2 hq, he⟩

/-- The target of a field that leads to what a type stands for is that type. -/
theorem InclusionGraph.LeadsTo.exists_target {graph : InclusionGraph} {registry : Registry}
    {owner : Entity} {field : String} {referent : Referent}
    (h : graph.LeadsTo registry owner field referent) {targets : EdgeTargets}
    (hkey : graph.edges.get? ⟨owner.nodeId, field⟩ = some targets) {id : String} {n : UInt32}
    (hid : targets.get? id = some n) :
    ∃ t target, referent = .entity t ∧ registry.get? t = some target ∧ target.nodeId = id := by
  cases referent with
  | scalar => exact absurd (hkey.symm.trans h) (by simp)
  | entity t =>
    obtain ⟨target, targets', htarget, hkey', hone⟩ := h
    have hsame : targets' = targets := Option.some.inj (hkey'.symm.trans hkey)
    exact ⟨t, target, rfl, htarget, ((hone id n).1 (hsame ▸ hid)).1.symm⟩

namespace Settled

variable {r : Registry} {winners : List Winner} {showMissing : Bool} {graph : InclusionGraph}
  {s : Symbols}

/-- The ends of an edge are registered, and the edge leads from the one to the other. -/
theorem exists_includes (h : Settled r winners showMissing graph s) {key : EdgeKey}
    {targets : EdgeTargets} (hkey : graph.edges.get? key = some targets) {id : String} {n : UInt32}
    (hid : targets.get? id = some n) {q : String} {owner : Entity}
    (howner : s.registry.get? q = some owner) (hown : key.owner = owner.nodeId) :
    ∃ t target, s.registry.get? t = some target ∧ target.nodeId = id ∧
      graph.Includes s.registry q t := by
  have hsome : (targets.get? id).isSome := by rw [hid]; rfl
  obtain ⟨p, t, owner', target, howner', htarget, hown', rfl⟩ :=
    Registry.ends_of_counts h.counts hkey hsome
  have hq : p = q := h.symbols.coherent.identified.qualifiedName_eq howner' howner
    (hown'.symm.trans hown)
  subst hq
  refine ⟨t, target, htarget, rfl, owner, target, key.field, howner, htarget, ?_⟩
  rw [← hown, InclusionGraph.isSome_count?_iff]
  exact ⟨targets, hkey, hsome⟩

/-- Expanding seeds gives a closed subgraph, if the fields of the methods among them lead to the
types of their signatures. -/
theorem expand_closed (h : Settled r winners showMissing graph s) {seeds : List String}
    (hagree : ∀ seed ∈ seeds, ∀ method signature service,
      s.registry.Method seed method signature →
      s.registry.get? signature.service = some service →
      (∃ request,
        (s.resolve showMissing signature.service signature.request).1 = .ok request ∧
        graph.LeadsTo s.registry service (Build.requestField method.name) request) ∧
      ∃ response,
        (s.resolve showMissing signature.service signature.response).1 = .ok response ∧
        graph.LeadsTo s.registry service (Build.responseField method.name) response) :
    (s.expand showMissing graph seeds).1.Closed := by
  have hseeded := h.seeded seeds
  unfold Symbols.expand
  generalize seeds.foldl (Seeding.addSeed showMissing graph) ⟨s, .empty, [], []⟩ = seeding
    at hseeded ⊢
  dsimp only
  rw [hseeded.registry]
  have hreachable := h.mem_reachable seeding.starts
  generalize s.registry.reachable graph seeding.starts = reached at hreachable ⊢
  have hedges : ∀ e ∈ reached.flatMap (s.registry.edgesOf graph),
      graph.edges.get? e.1 = some e.2 := by
    intro e he
    obtain ⟨q, -, he⟩ := List.mem_flatMap.1 he
    exact (h.mem_edgesOf.1 he).1
  have hentity {q : String} {e : Entity} (hq : q ∈ reached ∨ q ∈ seeding.services)
      (he : s.registry.get? q = some e) :
      e ∈ s.registry.sortedEntities (reached ++ seeding.services) :=
    Registry.mem_sortedEntities (List.mem_append.2 hq) he
  intro key targets htargets
  obtain ⟨hkeys, hkey⟩ := (hseeded.edges.foldl hedges key targets).1 htargets
  rcases hkeys with ⟨seed, hseed, method, signature, service, hmethod, hservice, hfield⟩ | hreached
  -- The two fields of a method lead to the types of its signature, which are starts.
  · have htypes (field : String) (referent : Referent)
        (hresolved : (s.resolve showMissing signature.service signature.request).1 = .ok referent ∨
          (s.resolve showMissing signature.service signature.response).1 = .ok referent)
        (hleads : graph.LeadsTo s.registry service field referent)
        (hfield : key = ⟨service.nodeId, field⟩) (id : String) (n : UInt32)
        (hid : targets.get? id = some n) :
        ∃ e ∈ s.registry.sortedEntities (reached ++ seeding.services), e.nodeId = id := by
      obtain ⟨t, target, rfl, htarget, hnode⟩ := hleads.exists_target (hfield ▸ hkey) hid
      refine ⟨target, hentity (.inl ((hreachable t).2 ⟨t, ?_, .refl⟩)) htarget, hnode⟩
      exact (hseeded.starts t).2 ⟨seed, hseed, .inl ⟨method, signature, hmethod, hresolved⟩⟩
    obtain ⟨⟨request, hrequest, hleads⟩, response, hresponse, hleads'⟩ :=
      hagree seed hseed method signature service hmethod hservice
    refine ⟨⟨service, hentity (.inr ?_) hservice, ?_⟩, ?_⟩
    · exact (hseeded.services _).2 ⟨seed, hseed, method, signature, hmethod, rfl⟩
    · rcases hfield with rfl | rfl <;> rfl
    · rcases hfield with hfield | hfield
      · exact htypes _ request (.inl hrequest) hleads hfield
      · exact htypes _ response (.inr hresponse) hleads' hfield
  -- Edges that are followed lead to what is reached.
  · obtain ⟨q, hq, owner, howner, hown⟩ := (h.exists_edgesOf_iff hkey).1 hreached
    refine ⟨⟨owner, hentity (.inl hq) howner, hown.symm⟩, fun id n hid => ?_⟩
    obtain ⟨t, target, htarget, hnode, hincludes⟩ := h.exists_includes hkey hid howner hown
    obtain ⟨start, hstart, hpath⟩ := (hreachable q).1 hq
    exact ⟨target, hentity (.inl ((hreachable t).2 ⟨start, hstart, hpath.tail hincludes⟩)) htarget,
      hnode⟩

end Settled

namespace LoadedGraph

/-- What some selections, one after the other, leave of a graph. -/
inductive Follows (g : LoadedGraph) : LoadedGraph → Prop
  | refl : Follows g g
  | select {g' : LoadedGraph} (selection : String) :
      Follows g g' → Follows g (g'.select selection).2

/-- Selections resolve references again, and change nothing else. -/
theorem Follows.settled {g g' : LoadedGraph} (h : Follows g g') {r : Registry}
    {winners : List Winner}
    (hsettled : Settled r winners g.options.showMissingTypes g.graph g.symbols) :
    Settled r winners g.options.showMissingTypes g.graph g'.symbols ∧
      g'.registry = g.registry ∧ g'.graph = g.graph ∧ g'.options = g.options := by
  induction h with
  | refl => exact ⟨hsettled, rfl, rfl, rfl⟩
  | @select g' selection _ ih =>
    obtain ⟨hsettled', hregistry, hgraph, hoptions⟩ := ih
    unfold LoadedGraph.select Symbols.select
    cases g'.symbols.registry.seedsOf g'.root (splitSelection selection) with
    | error e => exact ⟨hsettled', hregistry, hgraph, hoptions⟩
    | ok seeds =>
      have hseeded := hsettled'.seeded seeds
      rw [← hgraph, ← hoptions] at hseeded
      refine ⟨?_, hseeded.registry.trans hregistry, hgraph, hoptions⟩
      rw [← hgraph, ← hoptions]
      exact hseeded.settled

/--
**Selected subgraphs are closed.** Whatever has been selected before, the edges of a selected
subgraph run between its own entities, unless a declaration inside a service has been rejected.
-/
theorem select_closed {loader : Loader} {options : RunOptions} {renderer : Renderer}
    {root : String} {g g' : LoadedGraph} {walk : Walk}
    (h : load loader options renderer root = .ok g)
    (hrun : Walk.run loader options root .empty = (.ok (), walk))
    (hkeeps : ∀ service owner, g.registry.get? service = some owner → owner.kind = .service →
      walk.Keeps service)
    (hg : g.Follows g') {selection : String} {subgraph : Subgraph}
    (hselect : (g'.select selection).1 = .ok subgraph) : subgraph.Closed := by
  obtain ⟨r, winners, hsettled⟩ := load_settled h
  obtain ⟨hsettled', hregistry, hgraph, hoptions⟩ := hg.settled hsettled
  unfold LoadedGraph.select Symbols.select at hselect
  split at hselect
  rename_i outcome symbols heq
  split at heq
  · cases heq
    cases hselect
  · rename_i seeds hseeds
    cases heq
    rw [← Except.ok.inj hselect, hgraph, hoptions]
    refine hsettled'.expand_closed fun seed _ method signature service hmethod hservice => ?_
    have hmethod' : g.registry.Method seed method signature := hregistry ▸ hmethod
    obtain ⟨⟨owner, howner, hkind⟩, hagrees⟩ := method_agrees h hrun hmethod'
    obtain ⟨service', request, response, hservice', hrequest, hresponse, hleads, hleads'⟩ :=
      hagrees (hkeeps _ owner howner hkind)
    have hsame : service' = service := Option.some.inj (hservice'.symm.trans (hregistry ▸ hservice))
    obtain ⟨hregistered, -⟩ := hsettled.signature hmethod'
    have hresolve (reference : String) :
        (g'.symbols.resolve g.options.showMissingTypes signature.service reference).1 =
          (g.symbols.resolve g.options.showMissingTypes signature.service reference).1 :=
      (hsettled'.symbols.resolve_eq hsettled.indexed hregistered _ reference).trans
        (hsettled.symbols.resolve_eq hsettled.indexed hregistered _ reference).symm
    rw [hresolve, hresolve, ← hsame]
    have hsymbols : g'.symbols.registry = g.registry := hregistry
    rw [hsymbols]
    exact ⟨⟨request, hrequest, hleads⟩, response, hresponse, hleads'⟩

/-- One method of a service of two: the subgraph has the edges of this one, and their targets. -/
theorem select_serviceTexts : ∃ g walk subgraph,
    load (.ofTable serviceTexts) ⟨false, true⟩ (fun _ _ => "") "a" = .ok g ∧
      Walk.run (.ofTable serviceTexts) ⟨false, true⟩ "a" .empty = (.ok (), walk) ∧
      (∀ service owner, g.registry.get? service = some owner → owner.kind = .service →
        walk.Keeps service) ∧
      (g.select "S.M").1 = .ok subgraph ∧ subgraph.Closed := by
  have hselected : (match load (.ofTable serviceTexts) ⟨false, true⟩ (fun _ _ => "") "a" with
      | .ok g =>
        (match (g.select "S.M").1 with
        | .ok _ => true
        | .error _ => false)
      | .error _ => false) = true := by
    decide +kernel
  have hwalked : (match Walk.run (.ofTable serviceTexts) ⟨false, true⟩ "a" .empty with
      | (.ok (), walk) => walk.duplicates.isEmpty
      | (.error _, _) => false) = true := by
    decide +kernel
  cases hload : load (.ofTable serviceTexts) ⟨false, true⟩ (fun _ _ => "") "a" with
  | error e => simp [hload] at hselected
  | ok g =>
    obtain ⟨walk, hrun, -⟩ := load_eq_ok hload
    rw [hload] at hselected
    rw [hrun] at hwalked
    dsimp only at hselected hwalked
    split at hselected
    · rename_i subgraph hsubgraph
      have hkeeps : ∀ service owner, g.registry.get? service = some owner →
          owner.kind = .service → walk.Keeps service := fun _ _ _ _ d hd => by
        simp [List.isEmpty_iff.1 hwalked] at hd
      exact ⟨g, walk, subgraph, rfl, hrun, hkeeps, hsubgraph,
        select_closed hload hrun hkeeps .refl hsubgraph⟩
    · cases hselected

/-- Where a service declares two methods of one name, the edges of the one that is rejected come
along without their targets. -/
theorem select_repeatedTexts : ∃ g subgraph,
    load (.ofTable repeatedTexts) ⟨false, true⟩ (fun _ _ => "") "a" = .ok g ∧
      (g.select "S.M").1 = .ok subgraph ∧ ¬ subgraph.Closed := by
  have hselected : (match load (.ofTable repeatedTexts) ⟨false, true⟩ (fun _ _ => "") "a" with
      | .ok g =>
        (match (g.select "S.M").1 with
        | .ok subgraph => subgraph.entities.map (·.nodeId) == ["A_100", "S_102", "M_103"] &&
            (subgraph.edges.get? ⟨"S_102", "M_request"⟩).map (·.get? "C_101") == some (some 1)
        | .error _ => false)
      | .error _ => false) = true := by
    decide +kernel
  cases hload : load (.ofTable repeatedTexts) ⟨false, true⟩ (fun _ _ => "") "a" with
  | error e => simp [hload] at hselected
  | ok g =>
    rw [hload] at hselected
    dsimp only at hselected
    split at hselected
    · rename_i subgraph hsubgraph
      simp only [Bool.and_eq_true, beq_iff_eq, Option.map_eq_some_iff] at hselected
      obtain ⟨hentities, targets, htargets, hid⟩ := hselected
      refine ⟨g, subgraph, rfl, hsubgraph, fun hclosed => ?_⟩
      obtain ⟨e, he, hnode⟩ := (hclosed _ _ htargets).2 _ _ hid
      have hmem := List.mem_map_of_mem (f := (·.nodeId)) he
      rw [hentities, hnode] at hmem
      exact absurd hmem (by decide)
    · cases hselected

end LoadedGraph
end SchemaGraph
