import SchemaGraph.Proofs.Graph.Reachability
import SchemaGraph.Proofs.Graph.References
/-!
# Graphs in which all references are settled

After a build every reference of a winner has been resolved: what it means is registered, and its
edge is recorded. `Settled` keeps this together. Selections resolve some of these references again
and add nothing to the registry, so a settled graph stays settled, and following its edges is the
relation `InclusionGraph.Includes` (`Settled.mem_reachable`).
-/

namespace SchemaGraph

/-- An edge leads from the entity `p` to the entity `q`. -/
def InclusionGraph.Includes (graph : InclusionGraph) (r : Registry) (p q : String) : Prop :=
  ∃ owner target field, r.get? p = some owner ∧ r.get? q = some target ∧
    (graph.count? ⟨owner.nodeId, field⟩ target.nodeId).isSome

/-- The entity `method` has the qualified name `q`, and is a method with the given signature. -/
def Registry.Method (r : Registry) (q : String) (method : Entity) (signature : RpcSignature) :
    Prop :=
  r.get? q = some method ∧ method.kind = .rpc ∧ method.rpc = some signature

/-- The symbols have grown from the registry `r` of the winners, and the graph counts the references
of these, all of them resolved. -/
structure Settled (r : Registry) (winners : List Winner) (showMissing : Bool)
    (graph : InclusionGraph) (s : Symbols) : Prop where
  indexed : r.Indexed
  takes : Registry.empty.Takes winners r
  signs : ∀ w ∈ winners, w.kind = .rpc → ∃ v ∈ winners, ∃ signature, v.Signs w signature
  symbols : s.Extends r
  counts : graph.Counts
    ((winners.flatMap (·.references)).filterMap (r.edgeOf? s.registry showMissing))
  registered : ∀ ref ∈ winners.flatMap (·.references), ∀ {t},
    r.referent showMissing ref.owner ref.typeName = .ok (.entity t) → (s.registry.get? t).isSome

namespace LoadedGraph

/-- The build over the files of a walk settles the references of their winners. -/
theorem settled_buildOf {walk : Walk} {entered : List (String × SchemaFile)}
    (h : Walk.Traverses (.start .empty) walk entered) (renderer : Renderer) (options : RunOptions) :
    Settled walk.registry (Winner.ofFiles entered) options.showMissingTypes
      (buildOf renderer options walk).graph (buildOf renderer options walk).symbols := by
  obtain ⟨-, hregistry⟩ := h.of_start
  have htracks := tracks_buildOf h renderer options
  exact ⟨hregistry ▸ (Registry.coherent_declareFiles entered).indexed,
    hregistry ▸ Registry.takes_declareFiles entered, fun w hw => Winner.signs_of_mem_ofFiles hw,
    htracks.symbols, htracks.counts, htracks.registered⟩

theorem load_settled {loader : Loader} {options : RunOptions} {renderer : Renderer} {root : String}
    {g : LoadedGraph} (h : load loader options renderer root = .ok g) :
    ∃ r winners, Settled r winners g.options.showMissingTypes g.graph g.symbols := by
  obtain ⟨walk, hrun, hsymbols, hgraph, hoptions, -, -⟩ := load_eq_ok h
  obtain ⟨entered, htraverses⟩ := Walk.run_traverses hrun
  rw [hsymbols, hgraph, hoptions]
  exact ⟨_, _, settled_buildOf htraverses renderer options⟩

end LoadedGraph

namespace Settled

variable {r : Registry} {winners : List Winner} {showMissing : Bool} {graph : InclusionGraph}
  {s : Symbols}

/-- Symbols that differ in the bindings they keep. -/
theorem of_registry_eq (h : Settled r winners showMissing graph s) {s' : Symbols}
    (hsymbols : s'.Extends r) (hregistry : s'.registry = s.registry) :
    Settled r winners showMissing graph s' := by
  refine ⟨h.indexed, h.takes, h.signs, hsymbols, ?_, ?_⟩
  · rw [hregistry]
    exact h.counts
  · rw [hregistry]
    exact h.registered

/-! ## Edges -/

theorem knownTargets_eq (h : Settled r winners showMissing graph s) {key : EdgeKey}
    {targets : EdgeTargets} (hkey : graph.edges.get? key = some targets) :
    s.registry.knownTargets targets = targets := by
  have hall : targets.entries.filter (fun e => (s.registry.nodeTarget? e.1).isSome) =
      targets.entries := by
    refine List.filter_eq_self.2 fun e he => ?_
    have hget := (targets.mem_entries e.1 e.2).1 he
    obtain ⟨p, q, owner, target, -, htarget, -, hid⟩ :=
      Registry.ends_of_counts h.counts hkey (Option.isSome_iff_exists.2 ⟨e.2, hget⟩)
    rw [hid, h.symbols.coherent.identified.entity htarget]
    rfl
  unfold Registry.knownTargets
  simp only [hall]

/-- The edges of an entity are all those that the graph has for it. -/
theorem mem_edgesOf (h : Settled r winners showMissing graph s) {q : String} {key : EdgeKey}
    {targets : EdgeTargets} :
    (key, targets) ∈ s.registry.edgesOf graph q ↔
      graph.edges.get? key = some targets ∧
        ∃ owner, s.registry.get? q = some owner ∧ key.owner = owner.nodeId := by
  unfold Registry.edgesOf
  cases hq : s.registry.get? q with
  | none => simp
  | some owner =>
    have hget {e : EdgeKey × EdgeTargets} (he : e ∈ graph.edgesFrom owner.nodeId) :
        graph.edges.get? e.1 = some e.2 :=
      ((graph.mem_edgesFrom owner.nodeId e.1 e.2).1 he).1
    have hknown : (graph.edgesFrom owner.nodeId).map
        (fun e => (e.1, s.registry.knownTargets e.2)) = graph.edgesFrom owner.nodeId :=
      (List.map_congr_left fun e he => by rw [h.knownTargets_eq (hget he)]; rfl).trans
        (List.map_id _)
    -- No key of the graph is without targets, so the filter removes nothing.
    have hinhabited : (graph.edgesFrom owner.nodeId).filter (fun e => !e.2.entries.isEmpty) =
        graph.edgesFrom owner.nodeId := by
      refine List.filter_eq_self.2 fun e he => ?_
      obtain ⟨id, hid⟩ := h.counts.inhabited (hget he)
      obtain ⟨n, hn⟩ := Option.isSome_iff_exists.1 hid
      have hmem := (e.2.mem_entries id n).2 hn
      cases hentries : e.2.entries with
      | nil => simp [hentries] at hmem
      | cons => rfl
    dsimp only
    rw [hknown, hinhabited, InclusionGraph.mem_edgesFrom]
    simp

/-- The keys of the edges of some entities. -/
theorem exists_edgesOf_iff (h : Settled r winners showMissing graph s) {names : List String}
    {key : EdgeKey} {targets : EdgeTargets} (hkey : graph.edges.get? key = some targets) :
    (∃ e ∈ names.flatMap (s.registry.edgesOf graph), key = e.1) ↔
      ∃ q ∈ names, ∃ owner, s.registry.get? q = some owner ∧ key.owner = owner.nodeId := by
  constructor
  · rintro ⟨e, he, rfl⟩
    obtain ⟨q, hq, he⟩ := List.mem_flatMap.1 he
    exact ⟨q, hq, (h.mem_edgesOf.1 he).2⟩
  · rintro ⟨q, hq, howner⟩
    exact ⟨(key, targets), List.mem_flatMap.2 ⟨q, hq, h.mem_edgesOf.2 ⟨hkey, howner⟩⟩, rfl⟩

/-- The successors of an entity are what its edges lead to. -/
theorem mem_successors (h : Settled r winners showMissing graph s) {p q : String} :
    q ∈ s.registry.successors graph p ↔ graph.Includes s.registry p q := by
  have hids := h.symbols.coherent.identified
  unfold Registry.successors
  rw [List.mem_flatMap]
  constructor
  · rintro ⟨⟨key, targets⟩, hedge, hmem⟩
    obtain ⟨hkey, owner, howner, hownerId⟩ := h.mem_edgesOf.1 hedge
    obtain ⟨id, hid, htarget⟩ := List.mem_filterMap.1 hmem
    have hsome := (targets.mem_keys id).1 hid
    obtain ⟨-, q', -, target, -, htarget', -, rfl⟩ :=
      Registry.ends_of_counts h.counts hkey hsome
    rw [hids.entity htarget', Option.some.injEq] at htarget
    subst htarget
    refine ⟨owner, target, key.field, howner, htarget', ?_⟩
    rw [← hownerId, InclusionGraph.isSome_count?_iff]
    exact ⟨targets, hkey, hsome⟩
  · rintro ⟨owner, target, field, howner, htarget, hedge⟩
    obtain ⟨targets, hkey, hsome⟩ := InclusionGraph.isSome_count?_iff.1 hedge
    refine ⟨(⟨owner.nodeId, field⟩, targets), h.mem_edgesOf.2 ⟨hkey, owner, howner, rfl⟩, ?_⟩
    exact List.mem_filterMap.2
      ⟨target.nodeId, (targets.mem_keys _).2 hsome, hids.entity htarget⟩

/-- What a selection reaches is what edges lead to. -/
theorem mem_reachable (h : Settled r winners showMissing graph s) (names : List String)
    (q : String) :
    q ∈ s.registry.reachable graph names ↔
      ∃ start ∈ names, Relation.ReflTransGen (graph.Includes s.registry) start q := by
  have hnodes : s.registry.entities.keys.Nodup :=
    s.registry.entities.keys_sorted.imp KeyOrder.ne_of_lt
  have hnext (p : String) (hp : s.registry.successors graph p ≠ []) :
      p ∈ s.registry.entities.keys := by
    obtain ⟨q, hq⟩ := List.exists_mem_of_ne_nil _ hp
    obtain ⟨owner, -, -, howner, -⟩ := h.mem_successors.1 hq
    rw [Table.mem_keys]
    exact Option.isSome_iff_exists.2 ⟨owner, howner⟩
  have hrelation : (fun a b => b ∈ s.registry.successors graph a) =
      graph.Includes s.registry := by
    funext a b
    exact propext h.mem_successors
  unfold Registry.reachable
  rw [mem_reachWithin hnodes hnext (Nat.le_refl _), hrelation]

/-- Only registered entities are reached from registered ones. -/
theorem get?_isSome_of_reaches {start q : String} (hstart : (s.registry.get? start).isSome)
    (hpath : Relation.ReflTransGen (graph.Includes s.registry) start q) :
    (s.registry.get? q).isSome := by
  cases hpath with
  | refl => exact hstart
  | tail _ hlast =>
    obtain ⟨-, target, -, -, htarget, -⟩ := hlast
    exact Option.isSome_iff_exists.2 ⟨target, htarget⟩

/-! ## Signatures -/

/-- The service of a method is registered, and its body names both types of the signature. -/
theorem signature (h : Settled r winners showMissing graph s) {q : String} {method : Entity}
    {signature : RpcSignature} (hmethod : s.registry.Method q method signature) :
    (r.get? signature.service).isSome ∧
      ⟨signature.service, Build.requestField method.name, signature.request⟩ ∈
        winners.flatMap (·.references) ∧
      ⟨signature.service, Build.responseField method.name, signature.response⟩ ∈
        winners.flatMap (·.references) := by
  obtain ⟨hget, hkind, hrpc⟩ := hmethod
  obtain ⟨w, hw, -, hdescribes⟩ :=
    h.takes.exists_describes h.symbols.grows hget (by rw [hkind]; decide)
  obtain ⟨v, hv, signature', hsigns⟩ := h.signs w hw (hdescribes.kind.symm.trans hkind)
  have hsignature : signature' = signature := by
    have hrpc' := hsigns.rpc
    rw [← hdescribes.rpc, hrpc] at hrpc'
    exact (Option.some.inj hrpc').symm
  rw [hsignature] at hsigns
  refine ⟨(h.takes.get?_isSome _).2 ⟨v, hv, hsigns.name⟩, ?_, ?_⟩ <;> rw [hdescribes.name]
  · exact List.mem_flatMap.2 ⟨v, hv, hsigns.request⟩
  · exact List.mem_flatMap.2 ⟨v, hv, hsigns.response⟩

/-- Resolving a reference of a winner again adds nothing to the registry. -/
theorem resolve (h : Settled r winners showMissing graph s) {ref : Reference}
    (href : ref ∈ winners.flatMap (·.references)) (howner : (r.get? ref.owner).isSome) :
    (s.resolve showMissing ref.owner ref.typeName).1 =
        r.referent showMissing ref.owner ref.typeName ∧
      (s.resolve showMissing ref.owner ref.typeName).2.registry = s.registry ∧
      Settled r winners showMissing graph (s.resolve showMissing ref.owner ref.typeName).2 := by
  have hreferent := h.symbols.resolve_eq h.indexed howner showMissing ref.typeName
  have hresolved := h.symbols.resolved showMissing ref.owner ref.typeName
  have hregistry := hresolved.settled fun t ht => h.registered ref href (hreferent ▸ ht)
  exact ⟨hreferent, hregistry, h.of_registry_eq hresolved.symbols hregistry⟩

/-- The edge of a reference to an entity is recorded. -/
theorem recorded (h : Settled r winners showMissing graph s) {ref : Reference}
    (href : ref ∈ winners.flatMap (·.references)) {owner target : Entity} {t : String}
    (howner : s.registry.get? ref.owner = some owner)
    (hreferent : r.referent showMissing ref.owner ref.typeName = .ok (.entity t))
    (htarget : s.registry.get? t = some target) :
    ∃ targets, graph.edges.get? ⟨owner.nodeId, ref.field⟩ = some targets ∧
      (targets.get? target.nodeId).isSome :=
  InclusionGraph.isSome_count?_iff.1
    (Registry.isSome_count?_of_counts h.counts href hreferent howner htarget)

end Settled
end SchemaGraph
