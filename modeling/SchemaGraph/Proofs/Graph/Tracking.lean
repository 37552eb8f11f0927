import SchemaGraph.Proofs.Binding.Resolution
import SchemaGraph.Proofs.Graph.Counting
import SchemaGraph.Proofs.Registry.Winners
/-!
# What a build has gone through

`Build.Tracks r refs b` says that the build `b` over the registry `r` has gone through the
references `refs`, in any order: its graph counts their edges, and without errors all of them
resolve. `Claims` says which names have been processed. Every function of the build keeps both,
adding the references of the winners among the declarations that it processes (`At`).
-/

namespace SchemaGraph

/-! ## Winners in a registry that has grown -/

theorem Winner.Describes.of_undrawn {w : Winner} {e e' : Entity} (h : w.Describes e)
    (hundrawn : e'.undrawn = e.undrawn) : w.Describes e' := by
  rw [Entity.eq_of_undrawn hundrawn]
  exact ⟨h.source, h.name, h.kind, h.parent, h.rpc⟩

namespace Registry.Takes

variable {r r' : Registry} {winners : List Winner}

/-- Whatever is registered is a winner or a placeholder. -/
theorem exists_describes (h : Registry.empty.Takes winners r) (hgrows : r.Grows r') {q : String}
    {e : Entity} (he : r'.get? q = some e) (hkind : e.kind ≠ .missing) :
    ∃ w ∈ winners, w.qualifiedName = q ∧ w.Describes e := by
  obtain ⟨e', he', hundrawn⟩ := hgrows.declared he hkind
  obtain ⟨w, hw, hname, hdescribes⟩ := h.exists_winner he'
  exact ⟨w, hw, hname, hdescribes.of_undrawn hundrawn⟩

/-- Every winner is registered. -/
theorem exists_registered (h : Registry.empty.Takes winners r) (hgrows : r.Grows r') {w : Winner}
    (hw : w ∈ winners) : ∃ e, r'.get? w.qualifiedName = some e ∧ w.Describes e := by
  obtain ⟨-, e, he, hdescribes⟩ := h.won w hw
  obtain ⟨e', he', hundrawn⟩ := hgrows.kept he
  exact ⟨e', he', hdescribes.of_undrawn hundrawn⟩

end Registry.Takes

/-! ## Edges of references -/

/-- The edge of a reference that resolves in `r`, between the nodes of a registry `r'` that has
grown from `r`. -/
def Registry.edgeOf? (r r' : Registry) (showMissing : Bool) (ref : Reference) :
    Option (EdgeKey × String) :=
  match r.referent showMissing ref.owner ref.typeName with
  | .ok (.entity t) =>
    (r'.get? ref.owner).bind fun owner =>
      (r'.get? t).map fun target => (⟨owner.nodeId, ref.field⟩, target.nodeId)
  | _ => none

theorem Registry.edgeOf?_eq_none {r r' : Registry} {showMissing : Bool} {ref : Reference}
    (h : ∀ t, r.referent showMissing ref.owner ref.typeName ≠ .ok (.entity t)) :
    r.edgeOf? r' showMissing ref = none := by
  unfold edgeOf?
  split
  · rename_i t hreferent
    exact absurd hreferent (h t)
  · rfl

theorem Registry.edgeOf?_eq_some {r r' : Registry} {showMissing : Bool} {ref : Reference}
    {t : String} {owner target : Entity}
    (h : r.referent showMissing ref.owner ref.typeName = .ok (.entity t))
    (howner : r'.get? ref.owner = some owner) (htarget : r'.get? t = some target) :
    r.edgeOf? r' showMissing ref = some (⟨owner.nodeId, ref.field⟩, target.nodeId) := by
  simp only [edgeOf?, h, howner, htarget, Option.bind_some, Option.map_some]

theorem Registry.edgeOf?_eq_some_iff {r r' : Registry} {showMissing : Bool} {ref : Reference}
    {edge : EdgeKey × String} :
    r.edgeOf? r' showMissing ref = some edge ↔ ∃ t owner target,
      r.referent showMissing ref.owner ref.typeName = .ok (.entity t) ∧
      r'.get? ref.owner = some owner ∧ r'.get? t = some target ∧
      (⟨owner.nodeId, ref.field⟩, target.nodeId) = edge := by
  constructor
  · intro h
    unfold edgeOf? at h
    split at h
    · rename_i t hreferent
      obtain ⟨owner, howner, h⟩ := Option.bind_eq_some_iff.1 h
      obtain ⟨target, htarget, h⟩ := Option.map_eq_some_iff.1 h
      exact ⟨t, owner, target, hreferent, howner, htarget, h⟩
    · cases h
  · rintro ⟨t, owner, target, hreferent, howner, htarget, rfl⟩
    exact edgeOf?_eq_some hreferent howner htarget

/-- What is counted for references has the edge of each of them whose ends are registered. -/
theorem Registry.isSome_count?_of_counts {r r' : Registry} {showMissing : Bool}
    {refs : List Reference} {graph : InclusionGraph}
    (h : graph.Counts (refs.filterMap (r.edgeOf? r' showMissing))) {ref : Reference}
    (href : ref ∈ refs) {t : String} {owner target : Entity}
    (hreferent : r.referent showMissing ref.owner ref.typeName = .ok (.entity t))
    (howner : r'.get? ref.owner = some owner) (htarget : r'.get? t = some target) :
    (graph.count? ⟨owner.nodeId, ref.field⟩ target.nodeId).isSome :=
  h.isSome_count?_iff.2 (List.mem_filterMap.2 ⟨ref, href, edgeOf?_eq_some hreferent howner htarget⟩)

/-- The edges that are counted for references lead from one registered entity to another. -/
theorem Registry.ends_of_counts {r r' : Registry} {showMissing : Bool} {refs : List Reference}
    {graph : InclusionGraph} (h : graph.Counts (refs.filterMap (r.edgeOf? r' showMissing)))
    {key : EdgeKey} {targets : EdgeTargets} (hkey : graph.edges.get? key = some targets)
    {id : String} (hid : (targets.get? id).isSome) :
    ∃ p q owner target, r'.get? p = some owner ∧ r'.get? q = some target ∧
      key.owner = owner.nodeId ∧ id = target.nodeId := by
  have hmem := (h.mem_iff key id).2 ⟨targets, hkey, hid⟩
  obtain ⟨ref, -, hedge⟩ := List.mem_filterMap.1 hmem
  obtain ⟨t, owner, target, -, howner, htarget, heq⟩ := edgeOf?_eq_some_iff.1 hedge
  rw [Prod.mk.injEq] at heq
  exact ⟨ref.owner, t, owner, target, howner, htarget, heq.1 ▸ rfl, heq.2.symm⟩

namespace Build

theorem bind_snd {α β : Type} (x : Step α) (f : α → Step β) (b : Build) :
    ((x >>= f) b).2 = (f (x b).1 (x b).2).2 :=
  rfl

/-! ## References -/

/-- `b.Tracks r refs`: the references have been bound in `r` and their edges recorded. -/
structure Tracks (r : Registry) (showMissing : Bool) (refs : List Reference) (b : Build) :
    Prop where
  symbols : b.symbols.Extends r
  counts : b.graph.Counts (refs.filterMap (r.edgeOf? b.symbols.registry showMissing))
  owned : ∀ ref ∈ refs, (r.get? ref.owner).isSome
  registered : ∀ ref ∈ refs, ∀ {t},
    r.referent showMissing ref.owner ref.typeName = .ok (.entity t) →
      (b.symbols.registry.get? t).isSome
  errors : b.report.errors = [] → ∀ ref ∈ refs, ∃ referent,
    r.referent showMissing ref.owner ref.typeName = .ok referent

variable {r : Registry} {showMissing : Bool} {refs : List Reference} {b b' : Build}

/-- Growth keeps the edge of a reference whose ends are registered. -/
theorem edgeOf?_eq_of_grows {r' r'' : Registry} (hr' : r.Grows r') (h : r'.Grows r'')
    {ref : Reference} (howner : (r.get? ref.owner).isSome)
    (htarget : ∀ {t}, r.referent showMissing ref.owner ref.typeName = .ok (.entity t) →
      (r'.get? t).isSome) :
    r.edgeOf? r'' showMissing ref = r.edgeOf? r' showMissing ref := by
  unfold Registry.edgeOf?
  split
  · rename_i t hreferent
    obtain ⟨owner, howner'⟩ := Option.isSome_iff_exists.1 (hr'.isSome howner)
    obtain ⟨target, htarget'⟩ := Option.isSome_iff_exists.1 (htarget hreferent)
    obtain ⟨owner', howner'', -⟩ := h.kept howner'
    obtain ⟨target', htarget'', -⟩ := h.kept htarget'
    simp only [howner', howner'', htarget', htarget'', Option.bind_some, Option.map_some,
      h.nodeId_eq howner' howner'', h.nodeId_eq htarget' htarget'']
  · rfl

/-- Growth keeps the edges of all references that a build has gone through. -/
theorem Tracks.filterMap_edgeOf? (h : Tracks r showMissing refs b) {r' : Registry}
    (hgrows : b.symbols.registry.Grows r') : refs.filterMap (r.edgeOf? r' showMissing) =
      refs.filterMap (r.edgeOf? b.symbols.registry showMissing) :=
  List.filterMap_congr fun ref href =>
    edgeOf?_eq_of_grows h.symbols.grows hgrows (h.owned ref href) (h.registered ref href)

/-- Growth without new edges and errors keeps what a build has gone through. -/
theorem Tracks.grow (h : Tracks r showMissing refs b) (hsymbols : b'.symbols.Extends r)
    (hgrows : b.symbols.registry.Grows b'.symbols.registry) (hgraph : b'.graph = b.graph)
    (herrors : b'.report.errors = [] → b.report.errors = []) : Tracks r showMissing refs b' := by
  refine ⟨hsymbols, ?_, h.owned, fun ref href t ht => hgrows.isSome (h.registered ref href ht),
    fun hnil => h.errors (herrors hnil)⟩
  rw [hgraph, h.filterMap_edgeOf? hgrows]
  exact h.counts

theorem Tracks.perm (h : Tracks r showMissing refs b) {refs' : List Reference}
    (hperm : refs.Perm refs') : Tracks r showMissing refs' b :=
  ⟨h.symbols, h.counts.perm (hperm.filterMap _), fun ref href => h.owned ref (hperm.mem_iff.2 href),
    fun ref href => h.registered ref (hperm.mem_iff.2 href),
    fun hnil ref href => h.errors hnil ref (hperm.mem_iff.2 href)⟩

/-- The owner of a body is registered, with the node identifier that it has in `r`. -/
def Owner (r : Registry) (owner : Entity) : Prop :=
  ∃ e, r.get? owner.qualifiedName = some e ∧ e.nodeId = owner.nodeId

/-- One more reference: either it adds one edge, or it adds none and has none. -/
theorem Tracks.add (h : Tracks r showMissing refs b) {ref : Reference}
    (hsymbols : b'.symbols.Extends r)
    (hgrows : b.symbols.registry.Grows b'.symbols.registry)
    (howner : (r.get? ref.owner).isSome)
    (hgraph : b'.graph.Counts (refs.filterMap (r.edgeOf? b.symbols.registry showMissing) ++
      (r.edgeOf? b'.symbols.registry showMissing ref).toList))
    (hregistered : ∀ {t}, r.referent showMissing ref.owner ref.typeName = .ok (.entity t) →
      (b'.symbols.registry.get? t).isSome)
    (herrors : b'.report.errors = [] → b.report.errors = [] ∧
      ∃ referent, r.referent showMissing ref.owner ref.typeName = .ok referent) :
    Tracks r showMissing (refs ++ [ref]) b' := by
  have hlast : [ref].filterMap (r.edgeOf? b'.symbols.registry showMissing) =
      (r.edgeOf? b'.symbols.registry showMissing ref).toList := by
    cases hedge : r.edgeOf? b'.symbols.registry showMissing ref <;> simp [hedge]
  refine ⟨hsymbols, ?_, fun v hv => ?_, fun v hv t ht => ?_, fun hnil v hv => ?_⟩
  · rw [List.filterMap_append, h.filterMap_edgeOf? hgrows, hlast]
    exact hgraph
  · rcases List.mem_append.1 hv with hv | hv
    · exact h.owned v hv
    · rw [List.mem_singleton.1 hv]
      exact howner
  · rcases List.mem_append.1 hv with hv | hv
    · exact hgrows.isSome (h.registered v hv ht)
    · rw [List.mem_singleton.1 hv] at ht
      exact hregistered ht
  · obtain ⟨hnil', hok⟩ := herrors hnil
    rcases List.mem_append.1 hv with hv | hv
    · exact h.errors hnil' v hv
    · rw [List.mem_singleton.1 hv]
      exact hok

/-- What binding a reference answers and changes, by what resolving it answers. -/
theorem link_eq (context : BuildContext) (owner : Entity) (field reference : String) (b : Build) :
    link context owner field reference b =
      match b.symbols.resolve context.showMissing owner.qualifiedName reference with
      | (.error e, symbols) =>
        (.unresolved,
          { b with symbols, report := { b.report with errors := b.report.errors ++ [e] } })
      | (.ok .scalar, symbols) => (.scalar, { b with symbols })
      | (.ok (.entity q), symbols) =>
        match symbols.registry.get? q with
        | none => (.unresolved, { b with symbols })
        | some target =>
          (.ofEntityKind target.kind,
            { b with symbols, graph := b.graph.record owner.nodeId field target.nodeId }) := by
  simp only [link, bind, StateT.bind, get, getThe, MonadStateOf.get, StateT.get, pure]
  cases b.symbols.resolve context.showMissing owner.qualifiedName reference with
  | mk outcome symbols =>
    cases outcome with
    | error e => rfl
    | ok referent =>
      cases referent with
      | scalar => rfl
      | entity q =>
        dsimp only
        cases symbols.registry.get? q <;> rfl

/-- Linking a field of an owner goes through its reference. -/
theorem Tracks.link (h : Tracks r showMissing refs b) (hr : r.Indexed) {owner : Entity}
    (howner : Owner r owner) (renderer : Renderer) (field reference : String) :
    Tracks r showMissing (refs ++ [⟨owner.qualifiedName, field, reference⟩])
      (link ⟨renderer, showMissing⟩ owner field reference b).2 := by
  obtain ⟨e, he, hid⟩ := howner
  have hsome : (r.get? owner.qualifiedName).isSome := Option.isSome_iff_exists.2 ⟨e, he⟩
  have hreferent := h.symbols.resolve_eq hr hsome showMissing reference
  have hresolved := h.symbols.resolved showMissing owner.qualifiedName reference
  cases hresolve : b.symbols.resolve showMissing owner.qualifiedName reference with
  | mk outcome symbols =>
    rw [link_eq, hresolve]
    rw [hresolve] at hreferent hresolved
    -- Without a target the graph stays as it is.
    have hcounts (hno : ∀ t, outcome ≠ .ok (.entity t)) :
        b.graph.Counts (refs.filterMap (r.edgeOf? b.symbols.registry showMissing) ++
          (r.edgeOf? symbols.registry showMissing
            ⟨owner.qualifiedName, field, reference⟩).toList) := by
      rw [Registry.edgeOf?_eq_none fun t ht => hno t (hreferent.trans ht)]
      simpa using h.counts
    have hregistered {t : String} (ht : r.referent showMissing owner.qualifiedName reference =
        .ok (.entity t)) : (symbols.registry.get? t).isSome :=
      hresolved.registered (hreferent.trans ht)
    cases outcome with
    | error err =>
      refine h.add hresolved.symbols hresolved.grows hsome (hcounts fun t ht => by cases ht)
        hregistered fun hnil => ?_
      have hnil : b.report.errors ++ [err] = [] := hnil
      simp at hnil
    | ok referent =>
      cases referent with
      | scalar =>
        exact h.add hresolved.symbols hresolved.grows hsome (hcounts fun t ht => by cases ht)
          hregistered fun hnil => ⟨hnil, _, hreferent.symm⟩
      | entity t =>
        obtain ⟨target, htarget⟩ := Option.isSome_iff_exists.1 (hresolved.registered rfl)
        obtain ⟨owner', howner', -⟩ := hresolved.symbols.grows.kept he
        have hid' : owner'.nodeId = owner.nodeId :=
          (hresolved.symbols.grows.nodeId_eq he howner').trans hid
        have hedge : r.edgeOf? symbols.registry showMissing
            ⟨owner.qualifiedName, field, reference⟩ =
              some (⟨owner'.nodeId, field⟩, target.nodeId) :=
          Registry.edgeOf?_eq_some hreferent.symm howner' htarget
        rw [hid'] at hedge
        simp only [htarget]
        refine h.add hresolved.symbols hresolved.grows hsome ?_ hregistered
          fun hnil => ⟨hnil, _, hreferent.symm⟩
        show InclusionGraph.Counts _ (_ ++ (r.edgeOf? symbols.registry showMissing _).toList)
        rw [hedge]
        exact h.counts.record _ _ _

/-- Drawing an entity adds no reference. -/
theorem Tracks.attach (h : Tracks r showMissing refs b) (context : BuildContext) (entity : Entity)
    (rows : List BodyRow) : Tracks r showMissing refs (attach context entity rows b).2 := by
  have hgrows := b.symbols.registry.grows_setArtifact entity.qualifiedName
    (context.renderer entity rows)
  exact h.grow ⟨h.symbols.grows.trans hgrows, h.symbols.coherent.setArtifact _ _, h.symbols.bound⟩
    hgrows rfl fun hnil => hnil

/-! ## Names -/

/-- Which names have been processed, when the unit `source` is being gone through and the names
`taken` were declared up to now: of the winners of that unit those that are taken, and of the others
those that had been processed `before`. -/
structure Claims (winners : List Winner) (source : String) (before taken built : List String) :
    Prop where
  here : ∀ w ∈ winners, w.source = source → w.kind ≠ .rpc →
    (w.qualifiedName ∈ built ↔ w.qualifiedName ∈ taken)
  elsewhere : ∀ w ∈ winners, w.source ≠ source →
    (w.qualifiedName ∈ built ↔ w.qualifiedName ∈ before)

/-- Taking the names of methods changes nothing: a method has no body. -/
theorem Claims.append_rpcs {winners : List Winner} {source : String}
    {before taken built : List String} (hnames : (winners.map (·.qualifiedName)).Nodup)
    (h : Claims winners source before taken built) {rpcs : List Winner}
    (hrpcs : ∀ v ∈ rpcs, v ∈ winners ∧ v.kind = .rpc) :
    Claims winners source before (taken ++ rpcs.map (·.qualifiedName)) built := by
  refine ⟨fun w hw hsource hkind => ?_, h.elsewhere⟩
  rw [h.here w hw hsource hkind, List.mem_append]
  refine ⟨.inl, fun hmem => hmem.resolve_right fun hrpc => ?_⟩
  obtain ⟨v, hv, hname⟩ := List.mem_map.1 hrpc
  obtain ⟨hv, hrpc⟩ := hrpcs v hv
  exact hkind (List.inj_on_of_nodup_map hnames hv hw hname ▸ hrpc)

theorem claimBody_eq (source q : String) (kind : EntityKind) (b : Build) :
    claimBody source q kind b =
      match b.symbols.registry.get? q with
      | none => (none, b)
      | some entity =>
        if entity.source = source ∧ entity.kind = kind ∧ q ∉ b.built then
          (some entity, { b with built := q :: b.built })
        else (none, b) := by
  unfold claimBody
  simp only [bind, StateT.bind, get, getThe, MonadStateOf.get, StateT.get, pure]
  cases b.symbols.registry.get? q with
  | none => rfl
  | some entity =>
    dsimp only
    split <;> rfl

variable {winners : List Winner} {source : String} {before taken : List String}

/-- A declaration whose name was taken has no body. -/
theorem claimBody_of_mem (hr : Registry.Takes .empty winners r) (hsymbols : b.symbols.Extends r)
    (hclaims : Claims winners source before taken b.built) {q : String} {kind : EntityKind}
    (hrpc : kind ≠ .rpc) (hmissing : kind ≠ .missing) (hq : q ∈ taken) :
    claimBody source q kind b = (none, b) := by
  rw [claimBody_eq]
  cases hget : b.symbols.registry.get? q with
  | none => rfl
  | some e' =>
    dsimp only
    refine if_neg fun hclaimed => ?_
    obtain ⟨hsource, hkind, hbuilt⟩ := hclaimed
    cases he : r.get? q with
    -- What is not in `r` is a placeholder, whose kind no declaration has.
    | none => exact hmissing (hkind ▸ hsymbols.grows.added he hget)
    | some e =>
      obtain ⟨w, hw, rfl⟩ := (hr.get?_isSome q).1 (by rw [he]; rfl)
      have hdescribes := hr.describes hw he
      obtain ⟨f, hf, hundrawn⟩ := hsymbols.grows.kept he
      rw [hget] at hf
      obtain rfl := Option.some.inj hf
      have heq := Entity.eq_of_undrawn hundrawn
      have hsource' : w.source = source := by rw [← hdescribes.source, ← hsource, heq]
      have hkind' : w.kind = kind := by rw [← hdescribes.kind, ← hkind, heq]
      exact hbuilt ((hclaims.here w hw hsource' (hkind' ▸ hrpc)).2 hq)

/-- A declaration that wins its name has its body processed. -/
theorem claimBody_of_winner (hr : Registry.Takes .empty winners r)
    (hindexed : r.Indexed) (hsymbols : b.symbols.Extends r)
    (hclaims : Claims winners source before taken b.built) {w : Winner} (hw : w ∈ winners)
    (hsource : w.source = source) (hrpc : w.kind ≠ .rpc) (hq : w.qualifiedName ∉ taken) :
    ∃ owner : Entity, claimBody source w.qualifiedName w.kind b =
        (some owner, { b with built := w.qualifiedName :: b.built }) ∧
      owner.qualifiedName = w.qualifiedName ∧ Owner r owner ∧
      Claims winners source before (taken ++ [w.qualifiedName]) (w.qualifiedName :: b.built) := by
  -- Drawing may have changed the entity since it was declared, but only its artifact.
  obtain ⟨-, e, he, hdescribes⟩ := hr.won w hw
  obtain ⟨e', he', hundrawn⟩ := hsymbols.grows.kept he
  have heq := Entity.eq_of_undrawn hundrawn
  have hname : e'.qualifiedName = w.qualifiedName := by
    have hstored := hindexed.stored he
    rw [heq]
    exact hstored
  have hbuilt : w.qualifiedName ∉ b.built := fun hmem =>
    hq ((hclaims.here w hw hsource hrpc).1 hmem)
  refine ⟨e', ?_, hname, ⟨e, hname ▸ he, by rw [heq]⟩, ?_, ?_⟩
  · have hcond : e'.source = source ∧ e'.kind = w.kind ∧ w.qualifiedName ∉ b.built := by
      rw [heq]
      exact ⟨hdescribes.source.trans hsource, hdescribes.kind, hbuilt⟩
    rw [claimBody_eq, he']
    exact if_pos hcond
  · intro v hv hvsource hvkind
    rw [List.mem_cons, List.mem_append, List.mem_singleton, hclaims.here v hv hvsource hvkind,
      or_comm]
  · intro v hv hvsource
    have hne : v.qualifiedName ≠ w.qualifiedName := fun h =>
      hvsource (hr.eq_of_qualifiedName_eq hv hw h ▸ hsource)
    rw [List.mem_cons, hclaims.elsewhere v hv hvsource]
    exact ⟨fun h => h.resolve_left hne, .inr⟩

/-! ## Bodies -/

/-- Where a build stands inside the unit `source`: the references that it has gone through and the
names that the declarations up to here have taken. -/
structure At (r : Registry) (showMissing : Bool) (winners : List Winner) (source : String)
    (before : List String) (refs : List Reference) (taken : List String) (b : Build) : Prop where
  tracks : Tracks r showMissing refs b
  claims : Claims winners source before taken b.built

theorem At.perm (h : At r showMissing winners source before refs taken b) {refs' : List Reference}
    (hperm : refs.Perm refs') : At r showMissing winners source before refs' taken b :=
  ⟨h.tracks.perm hperm, h.claims⟩

theorem built_link (context : BuildContext) (owner : Entity) (field reference : String)
    (b : Build) : (link context owner field reference b).2.built = b.built := by
  rw [link_eq]
  split
  · rfl
  · rfl
  · split <;> rfl

theorem At.link (h : At r showMissing winners source before refs taken b) (hr : r.Indexed)
    {owner : Entity} (howner : Owner r owner) (renderer : Renderer) (field reference : String) :
    At r showMissing winners source before (refs ++ [⟨owner.qualifiedName, field, reference⟩])
      taken (link ⟨renderer, showMissing⟩ owner field reference b).2 :=
  ⟨h.tracks.link hr howner renderer field reference, by rw [built_link]; exact h.claims⟩

theorem At.unsupported (h : At r showMissing winners source before refs taken b)
    (construct : Construct) (scope : String) :
    At r showMissing winners source before refs taken (unsupported construct scope b).2 :=
  ⟨h.tracks.grow h.tracks.symbols (Registry.Grows.refl _) rfl fun hnil => hnil, h.claims⟩

theorem At.attach (h : At r showMissing winners source before refs taken b) (context : BuildContext)
    (entity : Entity) (rows : List BodyRow) :
    At r showMissing winners source before refs taken (attach context entity rows b).2 :=
  ⟨h.tracks.attach context entity rows, h.claims⟩

theorem At.fieldRow (h : At r showMissing winners source before refs taken b) (hr : r.Indexed)
    {owner : Entity} (howner : Owner r owner) (renderer : Renderer) (oneof : Option String)
    (field : Field) :
    At r showMissing winners source before
      (refs ++ [⟨owner.qualifiedName, field.name, field.typeName⟩]) taken
      (fieldRow ⟨renderer, showMissing⟩ owner oneof field b).2 :=
  h.link hr howner renderer field.name field.typeName

theorem At.oneofRows (h : At r showMissing winners source before refs taken b) (hr : r.Indexed)
    {owner : Entity} (howner : Owner r owner) (renderer : Renderer) (oneof : String)
    (members : List OneofElement) :
    At r showMissing winners source before
      (refs ++ members.flatMap (OneofElement.references owner.qualifiedName)) taken
      (oneofRows ⟨renderer, showMissing⟩ owner oneof members b).2 := by
  induction members generalizing refs b with
  | nil =>
    rw [List.flatMap_nil, List.append_nil]
    exact h
  | cons member members ih =>
    cases member with
    | field field =>
      have hfield := h.fieldRow hr howner renderer (some oneof) field
      have hrest := ih hfield
      rw [List.append_assoc] at hrest
      exact hrest
    | group label name number elements line => exact ih (h.unsupported (.group name) _)
    | option decl => exact ih h
    | comment text => exact ih h

/-- A declaration is processed with what is declared inside if it wins its name, and has no body
otherwise. -/
theorem At.claim (h : At r showMissing winners source before refs taken b)
    (hr : Registry.Takes .empty winners r) (hindexed : r.Indexed) {w : Winner}
    (hsource : w.source = source) (hrpc : w.kind ≠ .rpc) (hmissing : w.kind ≠ .missing)
    (inside : List String → List Winner) (body : Entity → Step Unit)
    (hmem : ∀ v ∈ w.contest inside taken, v ∈ winners)
    (hbody : ∀ (owner : Entity) (b : Build), owner.qualifiedName = w.qualifiedName →
      Owner r owner → (∀ v ∈ inside (taken ++ [w.qualifiedName]), v ∈ winners) →
      At r showMissing winners source before refs (taken ++ [w.qualifiedName]) b →
      At r showMissing winners source before
        (refs ++ (w.references ++
          (inside (taken ++ [w.qualifiedName])).flatMap (·.references)))
        (taken ++ [w.qualifiedName] ++
          (inside (taken ++ [w.qualifiedName])).map (·.qualifiedName)) (body owner b).2) :
    At r showMissing winners source before
      (refs ++ (w.contest inside taken).flatMap (·.references))
      (taken ++ (w.contest inside taken).map (·.qualifiedName))
      (match claimBody source w.qualifiedName w.kind b with
        | (none, b) => b
        | (some owner, b) => (body owner b).2) := by
  unfold Winner.contest at hmem ⊢
  by_cases hq : w.qualifiedName ∈ taken
  · rw [if_pos hq, claimBody_of_mem hr h.tracks.symbols h.claims hrpc hmissing hq]
    simpa using h
  · rw [if_neg hq] at hmem ⊢
    obtain ⟨owner, hclaim, hname, howner, hclaims⟩ := claimBody_of_winner hr hindexed
      h.tracks.symbols h.claims (hmem w (by simp)) hsource hrpc hq
    have htracks : Tracks r showMissing refs { b with built := w.qualifiedName :: b.built } :=
      h.tracks.grow h.tracks.symbols (Registry.Grows.refl _) rfl fun hnil => hnil
    -- The name counts as taken before the body, so a declaration of it inside is rejected.
    have hdone := hbody owner _ hname howner (fun v hv => hmem v (by simp [hv])) ⟨htracks, hclaims⟩
    rw [hclaim]
    simpa using hdone

theorem At.enum (h : At r showMissing winners source before refs taken b)
    (hr : Registry.Takes .empty winners r) (hindexed : r.Indexed) (context : BuildContext)
    (site : DeclarationSite) (hsource : site.source = source) (decl : EnumDecl)
    (hmem : ∀ v ∈ Winner.ofElement site (.enum decl) taken, v ∈ winners) :
    At r showMissing winners source before
      (refs ++ (Winner.ofElement site (.enum decl) taken).flatMap (·.references))
      (taken ++ (Winner.ofElement site (.enum decl) taken).map (·.qualifiedName))
      (buildEnum context source site.scope decl b).2 := by
  rw [Winner.ofElement] at hmem ⊢
  -- Whatever the rows are: drawing them processes no declaration.
  have hclaim (rows : List BodyRow) := h.claim hr hindexed hsource (by simp) (by simp)
    (fun _ => []) (fun owner => Build.attach context owner rows) hmem
    fun owner b _ _ _ hAt => by simpa using hAt.attach context owner rows
  rw [buildEnum, bind_snd]
  cases hclaimed : claimBody source (Name.qualify site.scope decl.name) .enum b with
  | mk owner b' =>
    rw [hclaimed] at hclaim
    cases owner with
    | none => exact hclaim []
    | some owner => exact hclaim _

/-- A message that wins is processed, if its body is. -/
theorem At.message (h : At r showMissing winners source before refs taken b)
    (hr : Registry.Takes .empty winners r) (hindexed : r.Indexed) (context : BuildContext)
    (site : DeclarationSite) (hsource : site.source = source) (decl : Message)
    (hmem : ∀ v ∈ Winner.ofElement site (.message decl.name decl.elements decl.line) taken,
      v ∈ winners)
    (hbody : ∀ (q : String) (owner : Entity) (taken : List String) (b : Build),
      owner.qualifiedName = q → Owner r owner →
      (∀ v ∈ Winner.ofElements (site.inside q) decl.elements taken, v ∈ winners) →
      At r showMissing winners source before refs taken b →
      At r showMissing winners source before
        (refs ++ (decl.elements.flatMap (·.references q) ++
          (Winner.ofElements (site.inside q) decl.elements taken).flatMap (·.references)))
        (taken ++ (Winner.ofElements (site.inside q) decl.elements taken).map (·.qualifiedName))
        (bodyRows context source owner decl.elements b).2) :
    At r showMissing winners source before
      (refs ++ (Winner.ofElement site (.message decl.name decl.elements decl.line) taken).flatMap
        (·.references))
      (taken ++ (Winner.ofElement site (.message decl.name decl.elements decl.line) taken).map
        (·.qualifiedName))
      (buildMessage context source site.scope decl b).2 := by
  rw [Winner.ofElement] at hmem ⊢
  have hclaim := h.claim hr hindexed hsource (by simp) (by simp)
    (Winner.ofElements (site.inside (Name.qualify site.scope decl.name)) decl.elements)
    (fun owner => do
      let rows ← bodyRows context source owner decl.elements
      Build.attach context owner rows) hmem
    fun owner b hname howner hinside hAt =>
      (hbody _ owner _ b hname howner hinside hAt).attach context owner _
  rw [buildMessage, bind_snd]
  cases hclaimed : claimBody source (Name.qualify site.scope decl.name) .message b with
  | mk owner b' =>
    rw [hclaimed] at hclaim
    cases owner <;> exact hclaim

/-- A nested message is processed like one at top level. -/
theorem elementRows_message (context : BuildContext) (source : String) (owner : Entity)
    (name : String) (elements : List MessageElement) (line : Nat) :
    elementRows context source owner (.message name elements line) = do
      buildMessage context source owner.qualifiedName ⟨name, elements, line⟩
      return [] := by
  funext b
  rw [elementRows, buildMessage]
  simp only [bind, StateT.bind, pure]
  cases claimBody source (Name.qualify owner.qualifiedName name) .message b with
  | mk entity b' => cases entity <;> rfl

/-- What declares nothing inside has no winners of its own. -/
theorem At.append_nil (h : At r showMissing winners source before refs taken b) :
    At r showMissing winners source before
      (refs ++ ([] : List Winner).flatMap (·.references))
      (taken ++ ([] : List Winner).map (·.qualifiedName)) b := by
  simpa using h

mutual

theorem At.elementRows (hr : Registry.Takes .empty winners r) (hindexed : r.Indexed)
    (renderer : Renderer) (site : DeclarationSite) (hsource : site.source = source) (q : String)
    {owner : Entity} (hname : owner.qualifiedName = q) (howner : Owner r owner)
    (e : MessageElement) {refs : List Reference} {taken : List String} {b : Build}
    (h : At r showMissing winners source before refs taken b)
    (hmem : ∀ v ∈ Winner.ofElement (site.inside q) e taken, v ∈ winners) :
    At r showMissing winners source before
      (refs ++ (e.references q ++
        (Winner.ofElement (site.inside q) e taken).flatMap (·.references)))
      (taken ++ (Winner.ofElement (site.inside q) e taken).map (·.qualifiedName))
      (elementRows ⟨renderer, showMissing⟩ source owner e b).2 := by
  subst hname
  rw [← List.append_assoc]
  cases e with
  | field field => exact (h.fieldRow hindexed howner renderer none field).append_nil
  | map m => exact (h.link hindexed howner renderer m.name m.valueType).append_nil
  | oneof name members => exact (h.oneofRows hindexed howner renderer name members).append_nil
  | enum decl =>
    rw [MessageElement.references, List.append_nil]
    exact h.enum hr hindexed ⟨renderer, showMissing⟩ (site.inside owner.qualifiedName) hsource decl
      hmem
  | message name elements line =>
    rw [MessageElement.references, List.append_nil, elementRows_message]
    exact h.message hr hindexed ⟨renderer, showMissing⟩ (site.inside owner.qualifiedName) hsource
      ⟨name, elements, line⟩ hmem fun q entity taken b hname hentity hinside hAt =>
        At.bodyRows hr hindexed renderer (site.inside owner.qualifiedName) hsource q hname hentity
          elements hAt hinside
  | group label name number elements line =>
    rw [MessageElement.references, List.append_nil]
    exact (h.unsupported (.group name) owner.qualifiedName).append_nil
  | extend target elements line =>
    rw [MessageElement.references, List.append_nil]
    exact (h.unsupported (.extend target) owner.qualifiedName).append_nil
  | reserved | extensions | option | comment =>
    rw [MessageElement.references, List.append_nil]
    exact h.append_nil

theorem At.bodyRows (hr : Registry.Takes .empty winners r) (hindexed : r.Indexed)
    (renderer : Renderer) (site : DeclarationSite) (hsource : site.source = source) (q : String)
    {owner : Entity} (hname : owner.qualifiedName = q) (howner : Owner r owner)
    (es : List MessageElement) {refs : List Reference} {taken : List String} {b : Build}
    (h : At r showMissing winners source before refs taken b)
    (hmem : ∀ v ∈ Winner.ofElements (site.inside q) es taken, v ∈ winners) :
    At r showMissing winners source before
      (refs ++ (es.flatMap (·.references q) ++
        (Winner.ofElements (site.inside q) es taken).flatMap (·.references)))
      (taken ++ (Winner.ofElements (site.inside q) es taken).map (·.qualifiedName))
      (bodyRows ⟨renderer, showMissing⟩ source owner es b).2 := by
  cases es with
  | nil =>
    rw [List.flatMap_nil, List.nil_append]
    exact h.append_nil
  | cons e es =>
    rw [Winner.ofElements] at hmem ⊢
    have hfirst := At.elementRows hr hindexed renderer site hsource q hname howner e h
      fun v hv => hmem v (List.mem_append_left _ hv)
    have hrest := At.bodyRows hr hindexed renderer site hsource q hname howner es hfirst
      fun v hv => hmem v (List.mem_append_right _ hv)
    rw [List.append_assoc taken, ← List.map_append] at hrest
    refine At.perm hrest ?_
    rw [List.flatMap_cons, List.flatMap_append]
    -- The references of the body come before those of what the first element declares.
    simp only [List.append_assoc]
    exact ((List.perm_append_comm_assoc _ _ _).append_left _).append_left refs

end

/-! ## Services and files -/

theorem At.rpcRow (h : At r showMissing winners source before refs taken b) (hr : r.Indexed)
    {owner : Entity} (howner : Owner r owner) (renderer : Renderer) (rpc : Rpc) :
    At r showMissing winners source before (refs ++ rpc.references owner.qualifiedName) taken
      (rpcRow ⟨renderer, showMissing⟩ owner rpc b).2 := by
  have hrequest := h.link hr howner renderer (requestField rpc.name) rpc.requestType
  have hresponse := hrequest.link hr howner renderer (responseField rpc.name) rpc.responseType
  rw [List.append_assoc] at hresponse
  exact hresponse

theorem At.rpcRows (h : At r showMissing winners source before refs taken b) (hr : r.Indexed)
    {owner : Entity} (howner : Owner r owner) (renderer : Renderer) (rpcs : List Rpc) :
    At r showMissing winners source before
      (refs ++ rpcs.flatMap (Rpc.references owner.qualifiedName)) taken
      (rpcs.mapM (Build.rpcRow ⟨renderer, showMissing⟩ owner) b).2 := by
  induction rpcs generalizing refs b with
  | nil =>
    rw [List.flatMap_nil, List.append_nil]
    exact h
  | cons rpc rpcs ih =>
    have hrest := ih (h.rpcRow hr howner renderer rpc)
    rw [List.append_assoc] at hrest
    rw [List.mapM_cons]
    exact hrest

theorem At.service (h : At r showMissing winners source before refs taken b)
    (hr : Registry.Takes .empty winners r) (hindexed : r.Indexed) (renderer : Renderer)
    (site : DeclarationSite) (hsource : site.source = source) (decl : Service)
    (hmem : ∀ v ∈ Winner.ofService site decl taken, v ∈ winners) :
    At r showMissing winners source before
      (refs ++ (Winner.ofService site decl taken).flatMap (·.references))
      (taken ++ (Winner.ofService site decl taken).map (·.qualifiedName))
      (buildService ⟨renderer, showMissing⟩ source site.scope decl b).2 := by
  unfold Winner.ofService at hmem ⊢
  have hclaim := h.claim hr hindexed hsource (by simp) (by simp)
    (Winner.inTurn (Winner.ofRpc (site.inside (Name.qualify site.scope decl.name))
      (Name.qualify site.scope decl.name)) decl.rpcs)
    (fun owner => do
      let rows ← decl.rpcs.mapM (Build.rpcRow ⟨renderer, showMissing⟩ owner)
      Build.attach ⟨renderer, showMissing⟩ owner rows) hmem
    fun owner b hname howner hinside hAt => by
      have hrows := (hAt.rpcRows hindexed howner renderer decl.rpcs).attach ⟨renderer, showMissing⟩
        owner (decl.rpcs.mapM (Build.rpcRow ⟨renderer, showMissing⟩ owner) b).1
      rw [hname] at hrows
      -- The references of a method are those of its service.
      have hno : (Winner.inTurn (Winner.ofRpc (site.inside (Name.qualify site.scope decl.name))
          (Name.qualify site.scope decl.name)) decl.rpcs
          (taken ++ [Name.qualify site.scope decl.name])).flatMap (·.references) = [] :=
        List.flatMap_eq_nil_iff.2 fun v hv => (Winner.of_mem_ofRpcs hv).2.2.1
      refine ⟨?_, hrows.claims.append_rpcs hr.nodup fun v hv =>
        ⟨hinside v hv, (Winner.of_mem_ofRpcs hv).2.1⟩⟩
      rw [hno, List.append_nil]
      exact hrows.tracks
  unfold buildService
  rw [bind_snd]
  cases hclaimed : claimBody source (Name.qualify site.scope decl.name) .service b with
  | mk owner b' =>
    rw [hclaimed] at hclaim
    cases owner <;> exact hclaim

/-- What goes through the elements of a list goes through their winners, if this is so for each of
them. -/
theorem At.forM {α : Type} {f : α → Step Unit} {winnersOf : α → List String → List Winner}
    (hf : ∀ (x : α) {refs : List Reference} {taken : List String} {b : Build},
      At r showMissing winners source before refs taken b →
      (∀ v ∈ winnersOf x taken, v ∈ winners) →
      At r showMissing winners source before (refs ++ (winnersOf x taken).flatMap (·.references))
        (taken ++ (winnersOf x taken).map (·.qualifiedName)) (f x b).2)
    (xs : List α) (h : At r showMissing winners source before refs taken b)
    (hmem : ∀ v ∈ Winner.inTurn winnersOf xs taken, v ∈ winners) :
    At r showMissing winners source before
      (refs ++ (Winner.inTurn winnersOf xs taken).flatMap (·.references))
      (taken ++ (Winner.inTurn winnersOf xs taken).map (·.qualifiedName)) (xs.forM f b).2 := by
  induction xs generalizing refs taken b with
  | nil => exact h.append_nil
  | cons x xs ih =>
    rw [Winner.inTurn] at hmem ⊢
    have hx := hf x h fun v hv => hmem v (List.mem_append_left _ hv)
    have hxs := ih hx fun v hv => hmem v (List.mem_append_right _ hv)
    rw [List.append_assoc, ← List.flatMap_append, List.append_assoc, ← List.map_append] at hxs
    exact hxs

theorem At.fileElement (hr : Registry.Takes .empty winners r) (hindexed : r.Indexed)
    (renderer : Renderer) (package : String) (e : FileElement)
    (h : At r showMissing winners source before refs taken b)
    (hmem : ∀ v ∈ Winner.ofFileElement ⟨source, package, none⟩ e taken, v ∈ winners) :
    At r showMissing winners source before
      (refs ++ (Winner.ofFileElement ⟨source, package, none⟩ e taken).flatMap (·.references))
      (taken ++ (Winner.ofFileElement ⟨source, package, none⟩ e taken).map (·.qualifiedName))
      (buildFileElement ⟨renderer, showMissing⟩ source package e b).2 := by
  cases e with
  | message decl =>
    exact h.message hr hindexed ⟨renderer, showMissing⟩ ⟨source, package, none⟩ rfl decl hmem
      fun q owner taken b hname howner hinside hAt =>
        At.bodyRows hr hindexed renderer ⟨source, package, none⟩ rfl q hname howner decl.elements
          hAt
          hinside
  | enum decl =>
    exact h.enum hr hindexed ⟨renderer, showMissing⟩ ⟨source, package, none⟩ rfl decl hmem
  | service decl => exact h.service hr hindexed renderer ⟨source, package, none⟩ rfl decl hmem
  | extend decl => exact (h.unsupported (.extend decl.target) package).append_nil
  | option | comment => exact h.append_nil

theorem At.file (hr : Registry.Takes .empty winners r) (hindexed : r.Indexed) (renderer : Renderer)
    (file : String × SchemaFile) (h : At r showMissing winners file.1 before refs taken b)
    (hmem : ∀ v ∈ Winner.ofFile file taken, v ∈ winners) :
    At r showMissing winners file.1 before
      (refs ++ (Winner.ofFile file taken).flatMap (·.references))
      (taken ++ (Winner.ofFile file taken).map (·.qualifiedName))
      (buildFile ⟨renderer, showMissing⟩ file.1 file.2 b).2 :=
  At.forM (fun e _ _ _ hAt hmem =>
    At.fileElement hr hindexed renderer file.2.packageName e hAt hmem) file.2.elements h hmem

end Build
end SchemaGraph
