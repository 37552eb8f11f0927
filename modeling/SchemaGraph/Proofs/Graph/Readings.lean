import SchemaGraph.Proofs.Graph.Outcome
import SchemaGraph.Proofs.Registry.Alike
import SchemaGraph.Proofs.Registry.Placeholder
/-!
# Reading the edges of a graph

The ends of an edge are node identifiers, whose numbers depend on the order in which entities have
been declared. A `Meaning` names an entity without them: by its qualified name, or, for a
placeholder, by the owner and the reference that it stands for. `Registry.Reads` relates the two,
and `Tracks.edge_iff` says what is recorded between two meanings: as many references as have these
meanings. No node identifier is left in it.
-/

namespace SchemaGraph

/-- What a node identifier stands for. -/
inductive Meaning where
  | declared (qualifiedName : String)
  /-- The placeholder for a reference inside an entity. -/
  | placeholder (owner reference : String)
  deriving DecidableEq, Repr

namespace Registry

/-- What a reference in a scope means, unless it means nothing or a scalar. -/
def meaning? (r : Registry) (showMissing : Bool) (scope reference : String) : Option Meaning :=
  if Name.isScalar reference then none
  else
    match r.bind scope reference with
    | .ok (some q) => some (.declared q)
    | .ok none => if showMissing then some (.placeholder scope reference) else none
    | .error _ => none

/-- A node identifier is that of the entity meant. -/
def Reads (r : Registry) (id : String) : Meaning → Prop
  | .declared q => ∃ e, r.get? q = some e ∧ e.kind ≠ .missing ∧ e.nodeId = id
  | .placeholder owner reference => ∃ o e, r.get? owner = some o ∧
      r.get? (placeholderName o.nodeId reference) = some e ∧ e.kind = .missing ∧
      e.name = reference ∧ e.nodeId = id

theorem Alike.meaning?_eq {r r' : Registry} (h : r.Alike r') (hr : r.Indexed) (hr' : r'.Indexed)
    (showMissing : Bool) (scope reference : String) :
    r.meaning? showMissing scope reference = r'.meaning? showMissing scope reference := by
  unfold meaning?
  rw [h.bind_eq hr hr']

/-- A node identifier is that of one entity. -/
theorem Reads.meaning_eq {r : Registry} (hr : r.Identified) {id : String} {m m' : Meaning}
    (h : r.Reads id m) (h' : r.Reads id m') : m = m' := by
  cases m with
  | declared q =>
    obtain ⟨e, he, hkind, rfl⟩ := h
    cases m' with
    | declared q' =>
      obtain ⟨e', he', -, hid⟩ := h'
      rw [hr.qualifiedName_eq he he' hid.symm]
    | placeholder owner reference =>
      obtain ⟨o, e', -, he', hmissing, -, hid⟩ := h'
      rw [← hr.qualifiedName_eq he he' hid.symm, he] at he'
      exact absurd (Option.some.inj he' ▸ hmissing) hkind
  | placeholder owner reference =>
    obtain ⟨o, e, ho, he, hmissing, -, rfl⟩ := h
    cases m' with
    | declared q' =>
      obtain ⟨e', he', hkind, hid⟩ := h'
      rw [hr.qualifiedName_eq he' he hid, he] at he'
      exact absurd (Option.some.inj he' ▸ hmissing) hkind
    | placeholder owner' reference' =>
      obtain ⟨o', e', ho', he', -, -, hid⟩ := h'
      -- The name of a placeholder tells to which entity it belongs, and for which reference.
      obtain ⟨hids, rfl⟩ := placeholderName_inj (hr.dot_not_mem ho) (hr.dot_not_mem ho')
        (hr.qualifiedName_eq he he' hid.symm)
      rw [hr.qualifiedName_eq ho ho' hids]

/-- An entity has one node identifier. -/
theorem Reads.id_eq {r : Registry} {id id' : String} {m : Meaning} (h : r.Reads id m)
    (h' : r.Reads id' m) : id = id' := by
  cases m with
  | declared q =>
    obtain ⟨e, he, -, rfl⟩ := h
    obtain ⟨e', he', -, rfl⟩ := h'
    rw [he] at he'
    rw [Option.some.inj he']
  | placeholder owner reference =>
    obtain ⟨o, e, ho, he, -, -, rfl⟩ := h
    obtain ⟨o', e', ho', he', -, -, rfl⟩ := h'
    rw [ho] at ho'
    rw [← Option.some.inj ho', he] at he'
    rw [Option.some.inj he']

/-- `r.Populates showMissing r'`: what `r'` has beyond the declarations of `r` are placeholders, and
no declaration stands in their way. -/
structure Populates (r : Registry) (showMissing : Bool) (r' : Registry) : Prop where
  coherent : r.Coherent
  coherent' : r'.Coherent
  grows : r.Grows r'
  declared : ∀ {q e}, r.get? q = some e → e.kind ≠ .missing
  places : r.Places showMissing r'
  spares : showMissing = true → r.SparesPlaceholders

namespace Populates

variable {r r' : Registry} {showMissing : Bool}

/-- What has been declared is read as such. -/
theorem reads_declared (h : r.Populates showMissing r') {q : String} {e e' : Entity}
    (he : r.get? q = some e) (he' : r'.get? q = some e') : r'.Reads e'.nodeId (.declared q) := by
  obtain ⟨f, hf, hundrawn⟩ := h.grows.kept he
  rw [he'] at hf
  refine ⟨e', he', ?_, rfl⟩
  rw [Option.some.inj hf, Entity.kind_eq_of_undrawn hundrawn]
  exact h.declared he

/-- The node of what a reference stands for is read as what it means. -/
theorem reads_referent (h : r.Populates showMissing r') {scope reference t : String}
    (hscope : (r.get? scope).isSome)
    (hreferent : r.referent showMissing scope reference = .ok (.entity t)) {target : Entity}
    (htarget : r'.get? t = some target) :
    ∃ m, r.meaning? showMissing scope reference = some m ∧ r'.Reads target.nodeId m := by
  obtain ⟨owner, howner⟩ := Option.isSome_iff_exists.1 hscope
  rw [referent_eq h.coherent.indexed] at hreferent
  unfold meaning?
  split at hreferent
  · cases hreferent
  · rename_i hscalar
    rw [if_neg hscalar]
    split at hreferent
    · cases hreferent
    · rename_i q hbind
      cases hreferent
      obtain ⟨e, he⟩ := Option.isSome_iff_exists.1 (type?_isSome_of_bind h.coherent.indexed hbind)
      rw [hbind]
      exact ⟨_, rfl, h.reads_declared (type?_eq_some.1 he).1 htarget⟩
    · rename_i hbind
      rw [hbind]
      split at hreferent
      · rename_i hshow
        cases hreferent
        rw [Symbols.ownerId_of_get? howner] at htarget
        have hnew := (h.spares hshow).get?_eq_none owner.nodeId reference
        obtain ⟨owner', howner', -⟩ := h.grows.kept howner
        obtain ⟨-, p, o, ho, hname, -⟩ := h.places _ _ hnew htarget
        obtain ⟨-, hreference⟩ := placeholderName_inj
          (h.coherent.identified.dot_not_mem howner) (h.coherent.identified.dot_not_mem ho) hname
        refine ⟨.placeholder scope reference, if_pos hshow, owner', target, howner', ?_,
          h.grows.added hnew htarget, hreference.symm, rfl⟩
        rw [h.grows.nodeId_eq howner howner']
        exact htarget
      · cases hreferent

/-- The node of what a reference stands for is read in no other way. -/
theorem reads_referent_iff (h : r.Populates showMissing r') {scope reference t : String}
    (hscope : (r.get? scope).isSome)
    (hreferent : r.referent showMissing scope reference = .ok (.entity t)) {target : Entity}
    (htarget : r'.get? t = some target) (m : Meaning) :
    r'.Reads target.nodeId m ↔ r.meaning? showMissing scope reference = some m := by
  obtain ⟨m', hmeaning, hreads⟩ := h.reads_referent hscope hreferent htarget
  rw [hmeaning, Option.some.injEq]
  constructor
  · exact fun hm => hreads.meaning_eq h.coherent'.identified hm
  · rintro rfl
    exact hreads

end Populates

/-- A reference that means something stands for an entity. -/
theorem exists_referent {r : Registry} (hr : r.Indexed) {showMissing : Bool}
    {scope reference : String} {m : Meaning}
    (h : r.meaning? showMissing scope reference = some m) :
    ∃ t, r.referent showMissing scope reference = .ok (.entity t) := by
  rw [referent_eq hr]
  unfold meaning? at h
  split at h
  · cases h
  · rename_i hscalar
    rw [if_neg hscalar]
    split at h
    · rename_i q hbind
      rw [hbind]
      exact ⟨q, rfl⟩
    · rename_i hbind
      rw [hbind]
      split at h
      · rename_i hshow
        exact ⟨_, if_pos hshow⟩
      · cases h
    · cases h

end Registry

/-! ## Edges -/

/-- Between two meanings the graph records a field with a count. -/
def InclusionGraph.Edge (graph : InclusionGraph) (r : Registry) (source : Meaning) (field : String)
    (target : Meaning) (n : UInt32) : Prop :=
  ∃ ownerId id targets, r.Reads ownerId source ∧ r.Reads id target ∧
    graph.edges.get? ⟨ownerId, field⟩ = some targets ∧ targets.get? id = some n

/-- Whether a reference stands in the given field and place, and has the given meaning. -/
def Reference.means (r : Registry) (showMissing : Bool) (source : Meaning) (field : String)
    (target : Meaning) (ref : Reference) : Bool :=
  .declared ref.owner = source && ref.field = field &&
    r.meaning? showMissing ref.owner ref.typeName = some target

namespace Registry.Populates

variable {r r' : Registry} {showMissing : Bool} {ref : Reference}

/-- The ends of the edge of a reference are read as its owner and its meaning. -/
theorem reads_edgeOf? (h : r.Populates showMissing r') (howned : (r.get? ref.owner).isSome)
    {edge : EdgeKey × String} (hedge : r.edgeOf? r' showMissing ref = some edge) :
    ∃ target, r.meaning? showMissing ref.owner ref.typeName = some target ∧
      r'.Reads edge.1.owner (.declared ref.owner) ∧ edge.1.field = ref.field ∧
      r'.Reads edge.2 target := by
  obtain ⟨t, owner, entity, hreferent, howner, hentity, rfl⟩ := edgeOf?_eq_some_iff.1 hedge
  obtain ⟨e, he⟩ := Option.isSome_iff_exists.1 howned
  obtain ⟨target, hmeaning, hreads⟩ := h.reads_referent howned hreferent hentity
  exact ⟨target, hmeaning, h.reads_declared he howner, rfl, hreads⟩

/-- A reference with a meaning has an edge, if what it stands for is registered. -/
theorem exists_edgeOf? (h : r.Populates showMissing r') (howned : (r.get? ref.owner).isSome)
    (hregistered : ∀ {t}, r.referent showMissing ref.owner ref.typeName = .ok (.entity t) →
      (r'.get? t).isSome) {target : Meaning}
    (hmeaning : r.meaning? showMissing ref.owner ref.typeName = some target) :
    ∃ ownerId id, r.edgeOf? r' showMissing ref = some (⟨ownerId, ref.field⟩, id) ∧
      r'.Reads ownerId (.declared ref.owner) ∧ r'.Reads id target := by
  obtain ⟨t, hreferent⟩ := exists_referent h.coherent.indexed hmeaning
  obtain ⟨entity, hentity⟩ := Option.isSome_iff_exists.1 (hregistered hreferent)
  obtain ⟨e, he⟩ := Option.isSome_iff_exists.1 howned
  obtain ⟨owner, howner, -⟩ := h.grows.kept he
  exact ⟨owner.nodeId, entity.nodeId, edgeOf?_eq_some hreferent howner hentity,
    h.reads_declared he howner, (h.reads_referent_iff howned hreferent hentity target).2 hmeaning⟩

/-- Between the nodes of two meanings lie the edges of the references that have them. -/
theorem edgeOf?_eq_some_iff_means (h : r.Populates showMissing r')
    (howned : (r.get? ref.owner).isSome)
    (hregistered : ∀ {t}, r.referent showMissing ref.owner ref.typeName = .ok (.entity t) →
      (r'.get? t).isSome) {ownerId id : String} {source target : Meaning} (field : String)
    (hsource : r'.Reads ownerId source) (htarget : r'.Reads id target) :
    r.edgeOf? r' showMissing ref = some (⟨ownerId, field⟩, id) ↔
      ref.means r showMissing source field target = true := by
  have hids := h.coherent'.identified
  unfold Reference.means
  rw [Bool.and_eq_true, Bool.and_eq_true, decide_eq_true_eq, decide_eq_true_eq, decide_eq_true_eq]
  constructor
  · intro hedge
    obtain ⟨target', hmeaning, howner, hfield, hreads⟩ := h.reads_edgeOf? howned hedge
    rw [htarget.meaning_eq hids hreads]
    exact ⟨⟨howner.meaning_eq hids hsource, hfield.symm⟩, hmeaning⟩
  · rintro ⟨⟨rfl, rfl⟩, hmeaning⟩
    obtain ⟨ownerId', id', hedge, howner, hreads⟩ :=
      h.exists_edgeOf? howned hregistered hmeaning
    rw [hedge, howner.id_eq hsource, hreads.id_eq htarget]

end Registry.Populates

namespace Build

variable {r : Registry} {showMissing : Bool} {refs : List Reference} {b : Build}

/-- Between two meanings the count is that of the references that have them. -/
theorem Tracks.edge_iff (h : Tracks r showMissing refs b)
    (hpopulates : r.Populates showMissing b.symbols.registry) (source : Meaning) (field : String)
    (target : Meaning) (n : UInt32) :
    b.graph.Edge b.symbols.registry source field target n ↔
      InclusionGraph.storedCount
        (refs.countP (Reference.means r showMissing source field target)) = some n := by
  have hcount {ownerId id : String} (hsource : b.symbols.registry.Reads ownerId source)
      (htarget : b.symbols.registry.Reads id target) :
      (refs.filterMap (r.edgeOf? b.symbols.registry showMissing)).count (⟨ownerId, field⟩, id) =
        refs.countP (Reference.means r showMissing source field target) := by
    rw [List.count_filterMap]
    refine List.countP_congr fun ref href => ?_
    rw [beq_iff_eq, hpopulates.edgeOf?_eq_some_iff_means (h.owned ref href)
      (h.registered ref href) field hsource htarget]
  constructor
  · rintro ⟨ownerId, id, targets, hsource, htarget, hget, hn⟩
    rw [← hcount hsource htarget, ← h.counts.count, InclusionGraph.count?_eq_some_iff]
    exact ⟨targets, hget, hn⟩
  · intro hn
    -- One of the references counted shows which nodes have these meanings.
    obtain ⟨ref, href, hmeans⟩ := List.countP_pos_iff.1
      (InclusionGraph.isSome_storedCount.1 (Option.isSome_iff_exists.2 ⟨n, hn⟩))
    unfold Reference.means at hmeans
    rw [Bool.and_eq_true, Bool.and_eq_true, decide_eq_true_eq, decide_eq_true_eq] at hmeans
    obtain ⟨⟨rfl, -⟩, hmeaning⟩ := hmeans
    obtain ⟨ownerId, id, -, hsource, htarget⟩ := hpopulates.exists_edgeOf? (h.owned ref href)
      (h.registered ref href) (of_decide_eq_true hmeaning)
    rw [← hcount hsource htarget, ← h.counts.count, InclusionGraph.count?_eq_some_iff] at hn
    obtain ⟨targets, hget, hid⟩ := hn
    exact ⟨ownerId, id, targets, hsource, htarget, hget, hid⟩

/-- Both ends of every edge that is recorded are read. -/
theorem Tracks.exists_edge (h : Tracks r showMissing refs b)
    (hpopulates : r.Populates showMissing b.symbols.registry) {key : EdgeKey}
    {targets : EdgeTargets} (hget : b.graph.edges.get? key = some targets) {id : String}
    {n : UInt32} (hn : targets.get? id = some n) :
    ∃ source target, b.symbols.registry.Reads key.owner source ∧
      b.symbols.registry.Reads id target ∧
      b.graph.Edge b.symbols.registry source key.field target n := by
  have hmem := (h.counts.mem_iff key id).2 ⟨targets, hget, by rw [hn]; rfl⟩
  obtain ⟨ref, href, hedge⟩ := List.mem_filterMap.1 hmem
  obtain ⟨target, -, hsource, -, htarget⟩ := hpopulates.reads_edgeOf? (h.owned ref href) hedge
  exact ⟨_, target, hsource, htarget, key.owner, id, targets, hsource, htarget, hget, hn⟩

end Build
end SchemaGraph
