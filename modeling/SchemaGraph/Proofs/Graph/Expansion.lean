import SchemaGraph.Proofs.Graph.Settled
/-!
# What a selection brings

A selection starts at its seeds and at the types that the signatures of methods among them name. It
brings all that edges reach from there, the services of these methods, and no edges but those of the
entities reached and the two of each of these methods. The services come without further edges.
`Seeded` is the invariant while the seeds are gone through one after the other.
-/

namespace SchemaGraph

/-- The edge key of one of the two types in the signature of the method `q`. -/
def Registry.SignatureKey (r : Registry) (q : String) (key : EdgeKey) : Prop :=
  ∃ method signature service, r.Method q method signature ∧
    r.get? signature.service = some service ∧
      (key = ⟨service.nodeId, Build.requestField method.name⟩ ∨
        key = ⟨service.nodeId, Build.responseField method.name⟩)

/-- One of the two types in the signature of the method `q` means the entity `t`. -/
def Symbols.SignatureType (s : Symbols) (showMissing : Bool) (q t : String) : Prop :=
  ∃ method signature, s.registry.Method q method signature ∧
    ((s.resolve showMissing signature.service signature.request).1 = .ok (.entity t) ∨
      (s.resolve showMissing signature.service signature.response).1 = .ok (.entity t))

/-- The method `q` belongs to the service `service`. -/
def Registry.MethodOf (r : Registry) (q service : String) : Prop :=
  ∃ method signature, r.Method q method signature ∧ service = signature.service

/-! ## Seeds -/

namespace InclusionGraph

/-- `graph.Shares keys edges`: the edges are those that the graph has for the given keys. -/
def Shares (graph : InclusionGraph) (keys : EdgeKey → Prop) (edges : EdgeTable) : Prop :=
  ∀ key targets, edges.get? key = some targets ↔ keys key ∧ graph.edges.get? key = some targets

theorem Shares.insert {graph : InclusionGraph} {keys : EdgeKey → Prop} {edges : EdgeTable}
    (h : graph.Shares keys edges) {key : EdgeKey} {targets : EdgeTargets}
    (hkey : graph.edges.get? key = some targets) :
    graph.Shares (fun key' => keys key' ∨ key' = key) (edges.insert key targets) := by
  intro key' targets'
  rw [Table.get?_insert]
  by_cases heq : key' = key
  · rw [if_pos heq, heq, hkey]
    simp
  · rw [if_neg heq, h]
    simp [heq]

/-- The edges with those that the graph has for a key. -/
def take (graph : InclusionGraph) (key : EdgeKey) (edges : EdgeTable) : EdgeTable :=
  match graph.edges.get? key with
  | some recorded => edges.insert key recorded
  | none => edges

theorem Shares.take {graph : InclusionGraph} {keys : EdgeKey → Prop} {edges : EdgeTable}
    (h : graph.Shares keys edges) (key : EdgeKey) :
    graph.Shares (fun key' => keys key' ∨ key' = key) (graph.take key edges) := by
  unfold InclusionGraph.take
  cases hkey : graph.edges.get? key with
  | none =>
    intro key' targets'
    rw [h]
    refine and_congr_left fun hget => ⟨.inl, fun hor => hor.resolve_right fun heq => ?_⟩
    rw [heq, hkey] at hget
    cases hget
  | some recorded => exact h.insert hkey

theorem Shares.foldl {graph : InclusionGraph} {keys : EdgeKey → Prop} {edges : EdgeTable}
    (h : graph.Shares keys edges) {entries : List (EdgeKey × EdgeTargets)}
    (hentries : ∀ e ∈ entries, graph.edges.get? e.1 = some e.2) :
    graph.Shares (fun key => keys key ∨ ∃ e ∈ entries, key = e.1)
      (entries.foldl (fun edges e => edges.insert e.1 e.2) edges) := by
  induction entries generalizing keys edges with
  | nil => simpa [Shares] using h
  | cons e entries ih =>
    have hrest := ih (h.insert (hentries e (by simp))) fun e he => hentries e (by simp [he])
    intro key targets
    rw [List.foldl_cons, hrest]
    dsimp only
    rw [List.exists_mem_cons_iff, or_assoc]

end InclusionGraph

theorem Seeding.addRpcType_eq (showMissing : Bool) (graph : InclusionGraph)
    (serviceId service field reference : String) (s : Seeding) :
    s.addRpcType showMissing graph serviceId service field reference =
      match s.symbols.resolve showMissing service reference with
      | (.ok (.entity q), symbols) =>
        { s with
          symbols
          edges :=
            match symbols.registry.get? q with
            | some target =>
              (graph.take ⟨serviceId, field⟩ s.edges).alter ⟨serviceId, field⟩ fun targets? =>
                (targets?.getD .empty).alter target.nodeId fun count? => count?.getD 1
            | none => graph.take ⟨serviceId, field⟩ s.edges
          starts := s.starts ++ [q] }
      | (_, symbols) => { s with symbols, edges := graph.take ⟨serviceId, field⟩ s.edges } :=
  rfl

/-- What going through seeds has led to: the keys of the edges taken from the graph, the names to
start from, and the services. -/
structure Seeded (r : Registry) (winners : List Winner) (showMissing : Bool)
    (graph : InclusionGraph) (registry : Registry) (keys : EdgeKey → Prop)
    (starts services : String → Prop) (s : Seeding) : Prop where
  settled : Settled r winners showMissing graph s.symbols
  registry : s.symbols.registry = registry
  edges : graph.Shares keys s.edges
  starts : ∀ q, q ∈ s.starts ↔ starts q
  services : ∀ q, q ∈ s.services ↔ services q

namespace Seeded

variable {r : Registry} {winners : List Winner} {showMissing : Bool} {graph : InclusionGraph}
  {registry : Registry} {keys : EdgeKey → Prop} {starts services : String → Prop} {s : Seeding}

/-- One of the types of a signature: the edges of its field are taken, and the entity that it means
is one to start from. -/
theorem addRpcType (h : Seeded r winners showMissing graph registry keys starts services s)
    {owner field typeName : String}
    (href : ⟨owner, field, typeName⟩ ∈ winners.flatMap (·.references))
    (howner : (r.get? owner).isSome) {service : Entity}
    (hservice : registry.get? owner = some service) :
    Seeded r winners showMissing graph registry
      (fun key => keys key ∨ key = ⟨service.nodeId, field⟩)
      (fun q => starts q ∨ r.referent showMissing owner typeName = .ok (.entity q)) services
      (s.addRpcType showMissing graph service.nodeId owner field typeName) := by
  obtain ⟨hreferent, hregistry, hsettled⟩ := h.settled.resolve href howner
  have htake := h.edges.take ⟨service.nodeId, field⟩
  rw [Seeding.addRpcType_eq]
  dsimp only at hreferent hregistry hsettled
  generalize graph.take ⟨service.nodeId, field⟩ s.edges = edges at htake ⊢
  -- A scalar, or nothing, gives no name to start from.
  have hnone (hno : ∀ t, r.referent showMissing owner typeName ≠ .ok (.entity t)) (q : String) :
      q ∈ s.starts ↔ starts q ∨ r.referent showMissing owner typeName = .ok (.entity q) := by
    rw [h.starts]
    exact ⟨.inl, fun hor => hor.resolve_right (hno q)⟩
  cases hresolve : s.symbols.resolve showMissing owner typeName with
  | mk outcome symbols =>
    rw [hresolve] at hreferent hregistry hsettled
    rw [h.registry] at hregistry
    cases outcome with
    | error e =>
      exact ⟨hsettled, hregistry, htake, hnone fun t ht => (by rw [← hreferent] at ht; cases ht),
        h.services⟩
    | ok referent =>
      cases referent with
      | scalar =>
        exact ⟨hsettled, hregistry, htake,
          hnone fun t ht => (by rw [← hreferent] at ht; cases ht), h.services⟩
      | entity t =>
        have hreferent : r.referent showMissing owner typeName = .ok (.entity t) := hreferent.symm
        obtain ⟨target, htarget⟩ :=
          Option.isSome_iff_exists.1 (hsettled.registered _ href hreferent)
        -- The edge to the target is recorded, so that nothing is added to the edges.
        have hsame : edges.alter ⟨service.nodeId, field⟩ (fun targets? =>
            (targets?.getD .empty).alter target.nodeId fun count? => count?.getD 1) = edges := by
          rw [← hregistry] at hservice
          obtain ⟨targets, hkey, hid⟩ := hsettled.recorded href hservice hreferent htarget
          obtain ⟨n, hn⟩ := Option.isSome_iff_exists.1 hid
          refine Table.alter_eq_self ((htake _ targets).2 ⟨.inr rfl, hkey⟩) ?_
          exact Table.alter_eq_self hn rfl
        refine ⟨hsettled, hregistry, ?_, fun q => ?_, h.services⟩
        · simp only [htarget]
          rw [hsame]
          exact htake
        · rw [List.mem_append, h.starts, List.mem_singleton, hreferent]
          simp only [Except.ok.injEq, Referent.entity.injEq, eq_comm]

theorem congr (h : Seeded r winners showMissing graph registry keys starts services s)
    {keys' : EdgeKey → Prop} {starts' services' : String → Prop} (hkeys : ∀ k, keys k ↔ keys' k)
    (hstarts : ∀ q, starts q ↔ starts' q) (hservices : ∀ q, services q ↔ services' q) :
    Seeded r winners showMissing graph registry keys' starts' services' s := by
  refine ⟨h.settled, h.registry, fun key targets => ?_, fun q => ?_, fun q => ?_⟩
  · rw [h.edges, hkeys]
  · rw [h.starts, hstarts]
  · rw [h.services, hservices]

/-- A method: both types of its signature, and its service. -/
theorem addRpc (h : Seeded r winners showMissing graph registry keys starts services s) {q : String}
    {method : Entity} {signature : RpcSignature}
    (hmethod : registry.Method q method signature) :
    ∃ service, registry.get? signature.service = some service ∧
      Seeded r winners showMissing graph registry
        (fun key => (keys key ∨ key = ⟨service.nodeId, Build.requestField method.name⟩) ∨
          key = ⟨service.nodeId, Build.responseField method.name⟩)
        (fun t => (starts t ∨
            r.referent showMissing signature.service signature.request = .ok (.entity t)) ∨
          r.referent showMissing signature.service signature.response = .ok (.entity t))
        (fun q => services q ∨ q = signature.service)
        (s.addRpc showMissing graph method signature) := by
  have hregistry := h.registry
  obtain ⟨hsome, hrequest, hresponse⟩ := h.settled.signature (hregistry ▸ hmethod)
  obtain ⟨service, hservice⟩ := Option.isSome_iff_exists.1 (h.settled.symbols.grows.isSome hsome)
  have hboth := (h.addRpcType hrequest hsome (hregistry ▸ hservice)).addRpcType hresponse hsome
    (hregistry ▸ hservice)
  refine ⟨service, hregistry ▸ hservice, ?_⟩
  unfold Seeding.addRpc
  simp only [hservice]
  -- The service is only added to the services, so its own edges are not followed.
  refine ⟨hboth.settled, hboth.registry, hboth.edges, hboth.starts, fun q => ?_⟩
  rw [List.mem_append, hboth.services, List.mem_singleton]

end Seeded

/-- One of the two types in the signature of the method `q` means the entity `t` in the registry
`r`. -/
def Registry.SignatureReferent (r registry : Registry) (showMissing : Bool) (q t : String) : Prop :=
  ∃ method signature, registry.Method q method signature ∧
    (r.referent showMissing signature.service signature.request = .ok (.entity t) ∨
      r.referent showMissing signature.service signature.response = .ok (.entity t))

namespace Registry

variable {r registry : Registry} {showMissing : Bool} {q : String} {method : Entity}
  {signature : RpcSignature}

theorem Method.eq (h : registry.Method q method signature) {method' : Entity}
    {signature' : RpcSignature} (h' : registry.Method q method' signature') :
    method' = method ∧ signature' = signature := by
  have hmethod := Option.some.inj (h'.1.symm.trans h.1)
  refine ⟨hmethod, ?_⟩
  have hrpc := h'.2.2
  rw [hmethod, h.2.2] at hrpc
  exact (Option.some.inj hrpc).symm

theorem Method.signatureKey_iff (h : registry.Method q method signature) {service : Entity}
    (hservice : registry.get? signature.service = some service) (key : EdgeKey) :
    registry.SignatureKey q key ↔ key = ⟨service.nodeId, Build.requestField method.name⟩ ∨
      key = ⟨service.nodeId, Build.responseField method.name⟩ := by
  constructor
  · rintro ⟨method', signature', service', h', hservice', hkey⟩
    obtain ⟨rfl, rfl⟩ := h.eq h'
    rw [hservice] at hservice'
    rw [Option.some.inj hservice']
    exact hkey
  · exact fun hkey => ⟨method, signature, service, h, hservice, hkey⟩

theorem Method.signatureReferent_iff (h : registry.Method q method signature) (t : String) :
    r.SignatureReferent registry showMissing q t ↔
      r.referent showMissing signature.service signature.request = .ok (.entity t) ∨
        r.referent showMissing signature.service signature.response = .ok (.entity t) := by
  constructor
  · rintro ⟨method', signature', h', hreferent⟩
    obtain ⟨rfl, rfl⟩ := h.eq h'
    exact hreferent
  · exact fun hreferent => ⟨method, signature, h, hreferent⟩

theorem Method.methodOf_iff (h : registry.Method q method signature) (service : String) :
    registry.MethodOf q service ↔ service = signature.service := by
  constructor
  · rintro ⟨method', signature', h', hservice⟩
    obtain ⟨rfl, rfl⟩ := h.eq h'
    exact hservice
  · exact fun hservice => ⟨method, signature, h, hservice⟩

end Registry

namespace Seeded

variable {r : Registry} {winners : List Winner} {showMissing : Bool} {graph : InclusionGraph}
  {registry : Registry} {keys : EdgeKey → Prop} {starts services : String → Prop} {s : Seeding}

/-- A registered seed is one to start from. -/
theorem start (h : Seeded r winners showMissing graph registry keys starts services s)
    (seed : String) :
    Seeded r winners showMissing graph registry keys (fun q => starts q ∨ q = seed) services
      { s with starts := s.starts ++ [seed] } := by
  refine ⟨h.settled, h.registry, h.edges, fun q => ?_, h.services⟩
  rw [List.mem_append, h.starts, List.mem_singleton]

/-- One seed: itself, if it is registered, and if it is a method all that belongs to it. -/
theorem addSeed (h : Seeded r winners showMissing graph registry keys starts services s)
    (seed : String) :
    Seeded r winners showMissing graph registry
      (fun key => keys key ∨ registry.SignatureKey seed key)
      (fun q => starts q ∨ r.SignatureReferent registry showMissing seed q ∨
        q = seed ∧ (registry.get? seed).isSome)
      (fun q => services q ∨ registry.MethodOf seed q)
      (s.addSeed showMissing graph seed) := by
  unfold Seeding.addSeed
  rw [h.registry]
  cases hseed : registry.get? seed with
  | none =>
    have hno {method : Entity} {signature : RpcSignature} :
        ¬ registry.Method seed method signature := fun hm => by simp [hm.1] at hseed
    refine h.congr (fun key => ?_) (fun q => ?_) fun q => ?_
    · simp [Registry.SignatureKey, hno]
    · simp [Registry.SignatureReferent, hno]
    · simp [Registry.MethodOf, hno]
  | some entity =>
    dsimp only
    split
    · rename_i signature hkind hrpc
      have hm : registry.Method seed entity signature := ⟨hseed, hkind, hrpc⟩
      obtain ⟨service, hservice, hadded⟩ := h.addRpc hm
      refine (hadded.start seed).congr (fun key => ?_) (fun q => ?_) fun q => ?_
      · rw [hm.signatureKey_iff hservice, or_assoc]
      · rw [hm.signatureReferent_iff, or_assoc, or_assoc, or_assoc]
        simp
      · rw [hm.methodOf_iff]
    -- A registered name of another kind only starts from itself.
    · rename_i hnot
      have hno {method : Entity} {signature : RpcSignature} :
          ¬ registry.Method seed method signature := by
        rintro ⟨hget, hkind, hrpc⟩
        rw [hseed] at hget
        obtain rfl := Option.some.inj hget
        exact hnot signature hkind hrpc
      refine (h.start seed).congr (fun key => ?_) (fun q => ?_) fun q => ?_
      · simp [Registry.SignatureKey, hno]
      · simp [Registry.SignatureReferent, hno]
      · simp [Registry.MethodOf, hno]

/-- All seeds, in any order and with any repetitions. -/
theorem addSeeds (h : Seeded r winners showMissing graph registry keys starts services s)
    (seeds : List String) :
    Seeded r winners showMissing graph registry
      (fun key => keys key ∨ ∃ seed ∈ seeds, registry.SignatureKey seed key)
      (fun q => starts q ∨ ∃ seed ∈ seeds, r.SignatureReferent registry showMissing seed q ∨
        q = seed ∧ (registry.get? seed).isSome)
      (fun q => services q ∨ ∃ seed ∈ seeds, registry.MethodOf seed q)
      (seeds.foldl (Seeding.addSeed showMissing graph) s) := by
  induction seeds generalizing s keys starts services with
  | nil => exact h.congr (by simp) (by simp) (by simp)
  | cons seed seeds ih =>
    refine (ih (h.addSeed seed)).congr (fun key => ?_) (fun q => ?_) fun q => ?_
    · rw [List.exists_mem_cons_iff, or_assoc]
    · rw [List.exists_mem_cons_iff, or_assoc]
    · rw [List.exists_mem_cons_iff, or_assoc]

end Seeded

/-- The types that signatures of seeds mean, read off the symbols and off the registry that they
have grown from. -/
theorem Settled.signatureType_iff {r : Registry} {winners : List Winner} {showMissing : Bool}
    {graph : InclusionGraph} {s : Symbols} (h : Settled r winners showMissing graph s)
    (q t : String) :
    s.SignatureType showMissing q t ↔ r.SignatureReferent s.registry showMissing q t := by
  refine exists_congr fun method => exists_congr fun signature => and_congr_right fun hmethod => ?_
  have howner := (h.signature hmethod).1
  rw [h.symbols.resolve_eq h.indexed howner, h.symbols.resolve_eq h.indexed howner]

/-- The types that signatures mean are registered. -/
theorem Settled.get?_isSome_of_signatureType {r : Registry} {winners : List Winner}
    {showMissing : Bool} {graph : InclusionGraph} {s : Symbols}
    (h : Settled r winners showMissing graph s) {q t : String}
    (ht : s.SignatureType showMissing q t) : (s.registry.get? t).isSome := by
  rw [h.signatureType_iff] at ht
  obtain ⟨method, signature, hmethod, hreferent⟩ := ht
  obtain ⟨-, hrequest, hresponse⟩ := h.signature hmethod
  rcases hreferent with hreferent | hreferent
  · exact h.registered _ hrequest hreferent
  · exact h.registered _ hresponse hreferent

theorem Settled.get?_isSome_of_methodOf {r : Registry} {winners : List Winner}
    {showMissing : Bool} {graph : InclusionGraph} {s : Symbols}
    (h : Settled r winners showMissing graph s) {q service : String}
    (hservice : s.registry.MethodOf q service) : (s.registry.get? service).isSome := by
  obtain ⟨method, signature, hmethod, rfl⟩ := hservice
  exact h.symbols.grows.isSome (h.signature hmethod).1

/-- Going through the seeds of an expansion. -/
theorem Settled.seeded {r : Registry} {winners : List Winner} {showMissing : Bool}
    {graph : InclusionGraph} {s : Symbols} (h : Settled r winners showMissing graph s)
    (seeds : List String) :
    Seeded r winners showMissing graph s.registry
      (fun key => ∃ seed ∈ seeds, s.registry.SignatureKey seed key)
      (fun q => ∃ seed ∈ seeds, s.SignatureType showMissing seed q ∨
        q = seed ∧ (s.registry.get? seed).isSome)
      (fun q => ∃ seed ∈ seeds, s.registry.MethodOf seed q)
      (seeds.foldl (Seeding.addSeed showMissing graph) ⟨s, .empty, [], []⟩) := by
  have hnone : Seeded r winners showMissing graph s.registry (fun _ => False) (fun _ => False)
      (fun _ => False) ⟨s, .empty, [], []⟩ :=
    ⟨h, rfl, fun key targets => by simp [Table.get?_empty], by simp, by simp⟩
  refine (hnone.addSeeds seeds).congr (fun key => ?_) (fun q => ?_) fun q => ?_
  · rw [false_or]
  · simp only [false_or, h.signatureType_iff]
  · rw [false_or]

/-! ## The entities of a subgraph -/

namespace Registry

/-- Names that are registered are the qualified names of their entities. -/
theorem map_qualifiedName_filterMap {r : Registry} (hr : r.Indexed) {names : List String}
    (h : ∀ q ∈ names, (r.get? q).isSome) :
    (names.filterMap r.get?).map (·.qualifiedName) = names := by
  induction names with
  | nil => rfl
  | cons q names ih =>
    obtain ⟨e, he⟩ := Option.isSome_iff_exists.1 (h q (by simp))
    rw [List.filterMap_cons_some he, List.map_cons, hr.stored he,
      ih fun q hq => h q (by simp [hq])]

theorem map_qualifiedName_sortedEntities {r : Registry} (hr : r.Indexed) {names : List String}
    (h : ∀ q ∈ names, (r.get? q).isSome) :
    (r.sortedEntities names).map (·.qualifiedName) = sortDistinct names :=
  map_qualifiedName_filterMap hr fun q hq => h q ((mem_sortDistinct _ _).1 hq)

theorem get?_of_mem_sortedEntities {r : Registry} (hr : r.Indexed) {names : List String}
    {e : Entity} (h : e ∈ r.sortedEntities names) : r.get? e.qualifiedName = some e := by
  obtain ⟨q, -, he⟩ := List.mem_filterMap.1 h
  rw [hr.stored he]
  exact he

end Registry

/-! ## Subgraphs of loaded graphs -/

namespace LoadedGraph

/-- What loading gives, and what expanding any seeds leaves of it. -/
inductive Loaded : LoadedGraph → Prop
  | load {loader options renderer root g} : load loader options renderer root = .ok g → Loaded g
  | expand {g : LoadedGraph} (seeds : List String) : Loaded g →
      Loaded { g with symbols := (g.symbols.expand g.options.showMissingTypes g.graph seeds).2 }

/-- Selecting expands some seeds, or fails and changes nothing. -/
theorem Loaded.select {g : LoadedGraph} (h : Loaded g) (selection : String) :
    Loaded (g.select selection).2 := by
  unfold LoadedGraph.select Symbols.select
  cases g.symbols.registry.seedsOf g.root (splitSelection selection) with
  | error e => exact h
  | ok seeds => exact h.expand seeds

/-- A name at which a selection starts: a seed, or a type in the signature of one. -/
def Starts (g : LoadedGraph) (seeds : List String) (q : String) : Prop :=
  q ∈ seeds ∨ ∃ seed ∈ seeds, g.symbols.SignatureType g.options.showMissingTypes seed q

/-- A name to which edges lead from a start. -/
def Reaches (g : LoadedGraph) (seeds : List String) (q : String) : Prop :=
  ∃ start, g.Starts seeds start ∧ Relation.ReflTransGen (g.graph.Includes g.registry) start q

theorem Loaded.settled {g : LoadedGraph} (h : Loaded g) :
    ∃ r winners, Settled r winners g.options.showMissingTypes g.graph g.symbols := by
  induction h with
  | load h => exact load_settled h
  | expand seeds _ ih =>
    obtain ⟨r, winners, hsettled⟩ := ih
    exact ⟨r, winners, (hsettled.seeded seeds).settled⟩

/-- Seeds that are registered lead to registered names only. -/
theorem get?_isSome_of_reaches {g : LoadedGraph} {r : Registry} {winners : List Winner}
    (h : Settled r winners g.options.showMissingTypes g.graph g.symbols) {seeds : List String}
    (hseeds : ∀ seed ∈ seeds, (g.registry.get? seed).isSome) {q : String}
    (hq : g.Reaches seeds q) : (g.registry.get? q).isSome := by
  obtain ⟨start, hstart, hpath⟩ := hq
  refine Settled.get?_isSome_of_reaches ?_ hpath
  rcases hstart with hseed | ⟨seed, -, htype⟩
  · exact hseeds start hseed
  · exact h.get?_isSome_of_signatureType htype

/-- **The subgraph of some seeds is their closure.** Its entities are those that edges reach from
the seeds and from the types in the signatures of methods among them, and the services of these
methods. Its edges are all that the graph has for the entities reached, and for the two types of
each of these methods. -/
theorem expand_eq_closure {g : LoadedGraph} (h : g.Loaded) {seeds : List String}
    (hseeds : ∀ seed ∈ seeds, (g.registry.get? seed).isSome) {subgraph : Subgraph}
    (hsubgraph : (g.symbols.expand g.options.showMissingTypes g.graph seeds).1 = subgraph) :
    (subgraph.entities.map (·.qualifiedName)).Pairwise (· < ·) ∧
      (∀ e ∈ subgraph.entities, g.registry.get? e.qualifiedName = some e) ∧
      (∀ q, q ∈ subgraph.entities.map (·.qualifiedName) ↔
        g.Reaches seeds q ∨ ∃ seed ∈ seeds, g.registry.MethodOf seed q) ∧
      (∀ key targets, subgraph.edges.get? key = some targets ↔
        g.graph.edges.get? key = some targets ∧
          ((∃ q owner, g.Reaches seeds q ∧ g.registry.get? q = some owner ∧
              key.owner = owner.nodeId) ∨
            ∃ seed ∈ seeds, g.registry.SignatureKey seed key)) ∧
      subgraph.roots = seeds := by
  obtain ⟨r, winners, hsettled⟩ := h.settled
  have hseeded := hsettled.seeded seeds
  subst hsubgraph
  unfold Symbols.expand
  generalize seeds.foldl (Seeding.addSeed g.options.showMissingTypes g.graph)
    ⟨g.symbols, .empty, [], []⟩ = s at hseeded ⊢
  have hregistry : s.symbols.registry = g.registry := hseeded.registry
  have hindexed : g.registry.Indexed := hregistry ▸ hseeded.settled.symbols.coherent.indexed
  have hstarts (q : String) : q ∈ s.starts ↔ g.Starts seeds q := by
    rw [hseeded.starts]
    constructor
    · rintro ⟨seed, hseed, htype | ⟨rfl, -⟩⟩
      · exact .inr ⟨seed, hseed, htype⟩
      · exact .inl hseed
    · rintro (hseed | ⟨seed, hseed, htype⟩)
      · exact ⟨q, hseed, .inr ⟨rfl, hseeds q hseed⟩⟩
      · exact ⟨seed, hseed, .inl htype⟩
  have hreached (q : String) : q ∈ g.registry.reachable g.graph s.starts ↔ g.Reaches seeds q :=
    (hsettled.mem_reachable s.starts q).trans
      (exists_congr fun start => and_congr_left' (hstarts start))
  dsimp only
  rw [hregistry]
  generalize g.registry.reachable g.graph s.starts = reached at hreached ⊢
  have hregistered : ∀ q ∈ reached ++ s.services, (g.registry.get? q).isSome := by
    intro q hq
    rcases List.mem_append.1 hq with hq | hq
    · exact get?_isSome_of_reaches hsettled hseeds ((hreached q).1 hq)
    · obtain ⟨seed, -, hservice⟩ := (hseeded.services q).1 hq
      exact hsettled.get?_isSome_of_methodOf hservice
  have hedges : ∀ e ∈ reached.flatMap (g.registry.edgesOf g.graph),
      g.graph.edges.get? e.1 = some e.2 := by
    intro e he
    obtain ⟨q, -, he⟩ := List.mem_flatMap.1 he
    exact (hsettled.mem_edgesOf.1 he).1
  refine ⟨?_, fun e he => Registry.get?_of_mem_sortedEntities hindexed he, fun q => ?_, ?_, rfl⟩
  · rw [Registry.map_qualifiedName_sortedEntities hindexed hregistered]
    exact sortDistinct_sorted _
  · rw [Registry.map_qualifiedName_sortedEntities hindexed hregistered, mem_sortDistinct,
      List.mem_append, hreached, hseeded.services]
    rfl
  · intro key targets
    rw [hseeded.edges.foldl hedges, and_comm]
    refine and_congr_right fun hkey => ?_
    dsimp only
    -- What the seeds have brought comes first in the table, and second in the statement.
    rw [or_comm]
    refine or_congr_left ((hsettled.exists_edgesOf_iff hkey).trans (exists_congr fun q => ?_))
    rw [hreached, exists_and_left]
    rfl

/-- A unit with a service of two methods. -/
def serviceTexts : Table String String :=
  .ofList
    [("a", "message A\x7bB x=1;\x7dmessage B\x7b\x7dmessage C\x7b\x7d" ++
        "service S\x7brpc M(A)returns(A);rpc N(C)returns(C);\x7d")]

/-- One method as the seed: the other method and its type are left out. -/
theorem expand_serviceTexts : ∃ g, Loaded g ∧ (g.registry.get? "S.M").isSome ∧
    ∀ q, q ∈ ["A", "B", "S", "S.M"] ↔
      g.Reaches ["S.M"] q ∨ ∃ seed ∈ ["S.M"], g.registry.MethodOf seed q := by
  have hexpanded : (match load (.ofTable serviceTexts) ⟨false, true⟩ (fun _ _ => "") "a" with
      | .ok g => (g.registry.get? "S.M").isSome &&
          (g.symbols.expand g.options.showMissingTypes g.graph ["S.M"]).1.entities.map
            (·.qualifiedName) == ["A", "B", "S", "S.M"]
      | .error _ => false) = true := by
    decide +kernel
  cases hload : load (.ofTable serviceTexts) ⟨false, true⟩ (fun _ _ => "") "a" with
  | error e => simp [hload] at hexpanded
  | ok g =>
    simp only [hload, Bool.and_eq_true, beq_iff_eq] at hexpanded
    obtain ⟨hseed, hnames⟩ := hexpanded
    have hloaded : Loaded g := .load hload
    have hseeds : ∀ seed ∈ ["S.M"], (g.registry.get? seed).isSome := by simpa using hseed
    obtain ⟨-, -, hmem, -, -⟩ := expand_eq_closure hloaded hseeds rfl
    rw [hnames] at hmem
    exact ⟨g, hloaded, hseed, hmem⟩

end LoadedGraph
end SchemaGraph
