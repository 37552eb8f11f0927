import SchemaGraph.Proofs.Binding.Resolution
import SchemaGraph.Proofs.Name.Components
/-!
# References are bound by lexical scope

`Registry.innermost?` walks the scopes around a place from the innermost to the outermost and takes
the first one that declares the name. The binding of a reference never walks: it filters the index
of short names and takes the heaviest candidate. `heaviest_enclosing` says that both agree whenever
the qualified names are well formed, so that two candidates of one weight cannot arise. What nothing
answers stands for a placeholder, unless a declared entity has its name: such an entity is answered
in its place (`Symbols.resolve_takenNameRegistry`).
-/

namespace SchemaGraph

/-- The qualified name of an entity is its short name, which holds no dot, qualified by a namespace
of components. -/
def Entity.WellNamed (e : Entity) : Prop :=
  '.' ∉ e.name.toList ∧ ∃ outer : List String, (∀ c ∈ outer, Name.IsComponent c) ∧
    e.qualifiedName = Name.qualify (Name.join outer) e.name

theorem Entity.WellNamed.qualifiedName_eq {e : Entity} (h : e.WellNamed) :
    e.qualifiedName = Name.qualify e.namespace e.name := by
  obtain ⟨-, outer, -, hq⟩ := h
  rw [Entity.namespace, hq, Name.namespaceOf_qualify]

theorem Entity.WellNamed.head?_ne {e : Entity} (h : e.WellNamed) :
    e.qualifiedName.toList.head? ≠ some '.' := by
  obtain ⟨hdot, outer, houter, hq⟩ := h
  rw [hq]
  exact Name.head?_qualify_join houter fun hhead => hdot (List.mem_of_mem_head? hhead)

theorem Entity.WellNamed.lastComponent_eq {e : Entity} (h : e.WellNamed) :
    Name.lastComponent e.qualifiedName = e.name := by
  rw [h.qualifiedName_eq, Name.lastComponent_qualify, Name.lastComponent_eq_self h.1]

/-! ## The heaviest of several names -/

theorem heaviest_nil : heaviest [] = [] :=
  rfl

/-- A name of greatest weight that shares its weight with no other name is the only heaviest one. -/
theorem heaviest_eq_singleton {names : List (String × Nat)} {best : String} {weight : Nat}
    (hmem : (best, weight) ∈ names) (hle : ∀ x ∈ names, x.2 ≤ weight)
    (huniq : ∀ x ∈ names, x.2 = weight → x.1 = best) : heaviest names = [best] := by
  have hmax : (names.map (·.2)).foldl max 0 = weight := by
    have hmax? : (names.map (·.2)).max? = some weight := by
      refine List.max?_eq_some_iff.2 ⟨List.mem_map.2 ⟨_, hmem, rfl⟩, fun n hn => ?_⟩
      obtain ⟨x, hx, rfl⟩ := List.mem_map.1 hn
      exact hle x hx
    rw [List.foldl_max, hmax?]
    simp
  unfold heaviest
  rw [hmax]
  refine eq_singleton_of_nodup (sortDistinct_nodup _) fun name => ?_
  rw [mem_sortDistinct, List.mem_map]
  constructor
  · rintro ⟨x, hx, rfl⟩
    obtain ⟨hx, hweight⟩ := List.mem_filter.1 hx
    exact huniq x hx (by simpa using hweight)
  · rintro rfl
    exact ⟨_, List.mem_filter.2 ⟨hmem, by simp⟩, rfl⟩

namespace Registry

/-! ## Candidates -/

/-- Every entity that is no placeholder is well named. -/
def WellNamed (r : Registry) : Prop :=
  ∀ q e, r.get? q = some e → e.kind ≠ .missing → e.WellNamed

/-- Names can be tested by reading their components. -/
theorem wellNamed_of_all {r : Registry}
    (h : ∀ e ∈ r.all, '.' ∉ e.name.toList ∧
      (∀ c ∈ Name.components e.namespace, Name.IsComponent c) ∧
      e.qualifiedName = Name.qualify (Name.join (Name.components e.namespace)) e.name) :
    r.WellNamed := by
  intro q e he _
  obtain ⟨hdot, houter, hq⟩ := h e ((Table.mem_values _ e).2 ⟨q, he⟩)
  exact ⟨hdot, _, houter, hq⟩

theorem typeCandidates_nodup {r : Registry} (hr : Indexed r) (s : String) :
    (r.typeCandidates s).Nodup := by
  unfold typeCandidates
  refine (hr.nodup s).filterMap fun q q' e he he' => ?_
  rw [← hr.stored (type?_eq_some.1 he).1, ← hr.stored (type?_eq_some.1 he').1]

theorem all_nodup {r : Registry} (hr : Indexed r) : r.all.Nodup := by
  have hkey (e : String × Entity) (he : e ∈ r.entities.entries) : e.2.qualifiedName = e.1 :=
    hr.stored ((r.entities.mem_entries e.1 e.2).1 he)
  unfold all Table.values
  refine List.pairwise_map.2 (r.entities.sorted.imp_of_mem fun ha hb hlt heq => ?_)
  have := congrArg Entity.qualifiedName heq
  rw [hkey _ ha, hkey _ hb] at this
  exact KeyOrder.ne_of_lt hlt this

/-! ## The walk through the scopes -/

/-- The declared messages and enums with a short name. -/
def typesNamed (r : Registry) (shortName : String) : List Entity :=
  r.all.filter fun e => e.kind.isType && e.name = shortName

/-- The first declared message or enum that has the given name in a scope around a place. -/
def innermost? (r : Registry) (scope name : String) : Option String :=
  ((Name.scopesAround scope).map (Name.qualify · name)).find? fun q => (r.type? q).isSome

/--
The message or enum that a reference means by lexical scope.

1. After a leading dot stands a qualified name, if a message or enum has it.
2. The only message or enum with the last component as its short name is meant wherever it stands.
3. Of several ones the innermost is meant that has the name in a scope around the place.
-/
def lexicalType? (r : Registry) (scope reference : String) : Option String :=
  let name := (Name.absolute? reference).getD reference
  if (Name.absolute? reference).isSome ∧ (r.type? name).isSome then some name
  else
    match r.typesNamed (Name.lastComponent name) with
    | [only] => some only.qualifiedName
    | _ => r.innermost? scope name

theorem mem_typesNamed {r : Registry} (hr : Indexed r) (s : String) (e : Entity) :
    e ∈ r.typesNamed s ↔ r.type? e.qualifiedName = some e ∧ e.name = s := by
  unfold typesNamed all
  rw [List.mem_filter, Table.mem_values, type?_eq_some]
  simp only [Bool.and_eq_true, decide_eq_true_eq]
  constructor
  · rintro ⟨⟨q, hq⟩, hkind, hname⟩
    have hget : r.get? q = some e := hq
    rw [hr.stored hget]
    exact ⟨⟨hget, hkind⟩, hname⟩
  · rintro ⟨⟨hget, hkind⟩, hname⟩
    exact ⟨⟨_, hget⟩, hkind, hname⟩

theorem typesNamed_perm {r : Registry} (hr : Indexed r) (s : String) :
    (r.typesNamed s).Perm (r.typeCandidates s) := by
  have hnodup : (r.typesNamed s).Nodup := (all_nodup hr).filter _
  refine (List.perm_ext_iff_of_nodup hnodup (typeCandidates_nodup hr s)).2 fun e => ?_
  rw [mem_typesNamed hr, mem_typeCandidates hr]

/-- A declared type that has a name in some scope is a candidate of the name's last component. -/
theorem mem_typeCandidates_of_type? {r : Registry} (hr : Indexed r) (hnames : r.WellNamed)
    {p name : String} {e : Entity} (h : r.type? (Name.qualify p name) = some e) :
    e ∈ r.typeCandidates (Name.lastComponent name) := by
  obtain ⟨hget, hkind⟩ := type?_eq_some.1 h
  have hq := hr.stored hget
  have hlast := (hnames _ e hget (ne_missing_of_isType hkind)).lastComponent_eq
  rw [mem_typeCandidates hr, hq]
  exact ⟨h, by rw [← hlast, hq, Name.lastComponent_qualify]⟩

/-- The names that enclose a place are those of the declared types in the scopes around it. -/
theorem mem_enclosing {r : Registry} (hr : Indexed r) (hnames : r.WellNamed)
    (scope name q : String) (weight : Nat) :
    (q, weight) ∈ enclosing (r.typeCandidates (Name.lastComponent name)) scope name ↔
      ∃ p ∈ Name.scopesAround scope, q = Name.qualify p name ∧ (r.type? q).isSome ∧
        weight = if name.toList.contains '.' then q.utf8ByteSize else p.utf8ByteSize := by
  have hwell {e : Entity} (he : e ∈ r.typeCandidates (Name.lastComponent name)) :
      e.WellNamed ∧ (r.type? e.qualifiedName).isSome ∧ e.name = Name.lastComponent name := by
    obtain ⟨htype, hname⟩ := (mem_typeCandidates hr _ e).1 he
    obtain ⟨hget, hkind⟩ := type?_eq_some.1 htype
    exact ⟨hnames _ e hget (ne_missing_of_isType hkind), by rw [htype]; rfl, hname⟩
  unfold enclosing
  split
  -- A dotted name: a candidate ends with it, and what stands before encloses the place.
  · simp only [List.mem_map, List.mem_filter, Bool.and_eq_true, Prod.mk.injEq]
    constructor
    · rintro ⟨e, ⟨he, hends, hencloses⟩, rfl, rfl⟩
      obtain ⟨hwn, htype, -⟩ := hwell he
      obtain ⟨p, hp⟩ := (Name.hasComponentSuffix_iff hwn.head?_ne).1 hends
      rw [hp, Name.namespaceOf_qualify, Name.isScopePrefix_iff] at hencloses
      exact ⟨p, hencloses, hp, htype, rfl⟩
    · rintro ⟨p, hp, rfl, htype, rfl⟩
      obtain ⟨e, he⟩ := Option.isSome_iff_exists.1 htype
      have hmem := mem_typeCandidates_of_type? hr hnames he
      have hq := hr.stored (type?_eq_some.1 he).1
      refine ⟨e, ⟨hmem, ?_, ?_⟩, hq, by rw [hq]⟩
      · exact (Name.hasComponentSuffix_iff (hwell hmem).1.head?_ne).2 ⟨p, hq⟩
      · rw [hq, Name.namespaceOf_qualify]
        exact (Name.isScopePrefix_iff p scope).2 hp
  · rename_i hdot
    -- A bare name: it is the short name of every candidate.
    have hname : Name.lastComponent name = name :=
      Name.lastComponent_eq_self (by simpa using hdot)
    simp only [List.mem_map, List.mem_filter, Prod.mk.injEq]
    constructor
    · rintro ⟨e, ⟨he, hencloses⟩, rfl, rfl⟩
      obtain ⟨hwn, htype, hlast⟩ := hwell he
      refine ⟨e.namespace, (Name.isScopePrefix_iff _ _).1 hencloses, ?_, htype, rfl⟩
      rw [hwn.qualifiedName_eq, hlast, hname]
    · rintro ⟨p, hp, rfl, htype, rfl⟩
      obtain ⟨e, he⟩ := Option.isSome_iff_exists.1 htype
      have hmem := mem_typeCandidates_of_type? hr hnames he
      have hq := hr.stored (type?_eq_some.1 he).1
      have hnamespace : e.namespace = p := by
        rw [Entity.namespace, (hwell hmem).2.2, hname, hq, Name.namespaceOf_qualify]
      refine ⟨e, ⟨hmem, ?_⟩, hq, by rw [hnamespace]⟩
      rw [hnamespace]
      exact (Name.isScopePrefix_iff p scope).2 hp

/-- The walk takes a scope that no other declaring scope is longer than. -/
theorem innermost?_eq_some {r : Registry} {scope name q : String}
    (h : r.innermost? scope name = some q) :
    ∃ p ∈ Name.scopesAround scope, q = Name.qualify p name ∧ (r.type? q).isSome ∧
      ∀ p' ∈ Name.scopesAround scope, (r.type? (Name.qualify p' name)).isSome →
        p'.toList <+: p.toList := by
  unfold innermost? at h
  rw [List.find?_map] at h
  obtain ⟨p, hfound, rfl⟩ := Option.map_eq_some_iff.1 h
  obtain ⟨htype, inner, outer, hscopes, hinner⟩ := List.find?_eq_some_iff_append.1 hfound
  have hpairwise := Name.scopesAround_pairwise scope
  rw [hscopes, List.pairwise_append, List.pairwise_cons] at hpairwise
  refine ⟨p, by simp [hscopes], rfl, htype, fun p' hp' htype' => ?_⟩
  rw [hscopes] at hp'
  rcases List.mem_append.1 hp' with hp' | hp'
  · have := hinner p' hp'
    simp only [Function.comp_apply, Bool.not_eq_true'] at this
    rw [this] at htype'
    exact absurd htype' (by simp)
  · rcases List.mem_cons.1 hp' with rfl | hp'
    · exact List.prefix_rfl
    · exact hpairwise.2.1.1 p' hp'

theorem innermost?_eq_none {r : Registry} {scope name p : String}
    (h : r.innermost? scope name = none) (hp : p ∈ Name.scopesAround scope) :
    r.type? (Name.qualify p name) = none := by
  unfold innermost? at h
  have := List.find?_eq_none.1 h _ (List.mem_map_of_mem hp)
  simpa using this

/-- The heaviest enclosing candidate is the one that the walk finds. The scopes around a place are
initial parts of each other, so the heaviest candidate is the innermost one and no other one has its
weight. -/
theorem heaviest_enclosing {r : Registry} (hr : Indexed r) (hnames : r.WellNamed)
    (scope name : String) :
    heaviest (enclosing (r.typeCandidates (Name.lastComponent name)) scope name) =
      (r.innermost? scope name).toList := by
  have hmem := mem_enclosing hr hnames scope name
  cases hwalk : r.innermost? scope name with
  | none =>
    have hnil : enclosing (r.typeCandidates (Name.lastComponent name)) scope name = [] := by
      rw [List.eq_nil_iff_forall_not_mem]
      rintro ⟨q, weight⟩ hq
      obtain ⟨p, hp, rfl, htype, -⟩ := (hmem q weight).1 hq
      rw [innermost?_eq_none hwalk hp] at htype
      exact absurd htype (by simp)
    rw [hnil, heaviest_nil]
    rfl
  | some best =>
    obtain ⟨p, hp, rfl, htype, hinner⟩ := innermost?_eq_some hwalk
    have hbest := (hmem _ _).2 ⟨p, hp, rfl, htype, rfl⟩
    refine heaviest_eq_singleton hbest ?_ ?_
    · rintro ⟨q, weight⟩ hq
      obtain ⟨p', hp', rfl, htype', rfl⟩ := (hmem q weight).1 hq
      have hle := Name.utf8ByteSize_le_of_prefix (hinner p' hp' htype')
      dsimp only
      split
      · exact (Name.utf8ByteSize_qualify_le_iff ..).2 hle
      · exact hle
    -- Of two scopes around one place the longer is the inner one, so equal weights are one scope.
    · rintro ⟨q, weight⟩ hq hweight
      obtain ⟨p', hp', rfl, htype', rfl⟩ := (hmem q weight).1 hq
      have hge : p.utf8ByteSize ≤ p'.utf8ByteSize := by
        dsimp only at hweight
        split at hweight
        · exact (Name.utf8ByteSize_qualify_le_iff ..).1 (Nat.le_of_eq hweight.symm)
        · exact Nat.le_of_eq hweight.symm
      rw [Name.eq_of_prefix_of_utf8ByteSize_le (hinner p' hp' htype') hge]

/-- Binding a reference is walking through the scopes around it, and never ambiguous. -/
theorem bind_eq_lexicalType? {r : Registry} (hr : Indexed r) (hnames : r.WellNamed)
    (scope reference : String) :
    r.bind scope reference = .ok (r.lexicalType? scope reference) := by
  unfold bind lexicalType?
  generalize hname : (Name.absolute? reference).getD reference = name
  have habsolute : (Name.absolute? reference).bind r.type? =
      if (Name.absolute? reference).isSome then r.type? name else none := by
    cases habs : Name.absolute? reference with
    | none => rfl
    | some rest =>
      rw [habs] at hname
      simp only [Option.getD_some] at hname
      simp [hname]
  by_cases hdirect : (Name.absolute? reference).isSome ∧ (r.type? name).isSome
  · obtain ⟨e, he⟩ := Option.isSome_iff_exists.1 hdirect.2
    rw [if_pos hdirect, habsolute, if_pos hdirect.1, he]
    simp only [hr.stored (type?_eq_some.1 he).1]
  · have hnone : (Name.absolute? reference).bind r.type? = none := by
      rw [habsolute]
      split
      · simp_all
      · rfl
    simp only [hnone, if_neg hdirect]
    have hperm := typesNamed_perm hr (Name.lastComponent name)
    have hheaviest := heaviest_enclosing hr hnames scope name
    -- Only with several candidates does the binding compare scopes.
    cases hcandidates : r.typeCandidates (Name.lastComponent name) with
    | nil =>
      rw [hcandidates] at hperm hheaviest
      rw [List.perm_nil.1 hperm]
      cases hwalk : r.innermost? scope name with
      | none => rfl
      | some q =>
        rw [hwalk] at hheaviest
        simp [enclosing, heaviest_nil] at hheaviest
    | cons first others =>
      cases others with
      | nil =>
        rw [hcandidates] at hperm
        rw [List.perm_singleton.1 hperm]
      | cons second others =>
        rw [hcandidates] at hperm hheaviest
        have hlength := hperm.length_eq
        have hspec : (match r.typesNamed (Name.lastComponent name) with
            | [only] => some only.qualifiedName
            | _ => r.innermost? scope name) = r.innermost? scope name := by
          split
          · rename_i only honly
            rw [honly] at hlength
            simp at hlength
          · rfl
        simp only [hspec, hheaviest]
        cases r.innermost? scope name <;> rfl

theorem type?_isSome_of_lexicalType? {r : Registry} (hr : Indexed r) {scope reference q : String}
    (h : r.lexicalType? scope reference = some q) : (r.type? q).isSome := by
  unfold lexicalType? at h
  dsimp only at h
  split at h
  · rename_i hdirect
    rw [← Option.some.inj h]
    exact hdirect.2
  · split at h
    · rename_i only honly
      have hmem := (mem_typesNamed hr _ only).1 (by rw [honly]; simp)
      rw [← Option.some.inj h, hmem.1]
      rfl
    · obtain ⟨p, -, -, htype, -⟩ := innermost?_eq_some h
      exact htype

end Registry

namespace Symbols

/-- What a reference stands for by lexical scope: a scalar, a declared message or enum, or a
placeholder if `showMissing`. -/
def lexicalReferent (s : Symbols) (showMissing : Bool) (scope reference : String) :
    Except BindingError Referent :=
  if Name.isScalar reference then .ok .scalar
  else
    match s.registry.lexicalType? scope reference with
    | some q => .ok (.entity q)
    | none =>
      if showMissing then
        .ok (.entity (Registry.placeholderName (s.ownerId scope) reference))
      else .error (.unresolved scope reference)

/--
**References are bound by lexical scope.** In a registry with well-formed names, a reference that is
not bound yet stands for what the walk through the scopes around its place finds, and is never
ambiguous. The entity it stands for is registered afterwards: a message or an enum if the walk finds
one, and otherwise a placeholder with the text of the reference as its name, if nothing else has the
name that the placeholder gets.
-/
theorem resolve_eq_lexicalReferent {s : Symbols} (hreachable : s.registry.Reachable)
    (hnames : s.registry.WellNamed) (scope reference : String)
    (hnew : s.lookup scope reference = none) (showMissing : Bool) :
    (s.resolve showMissing scope reference).1 = s.lexicalReferent showMissing scope reference ∧
      (∀ place name candidates, (s.resolve showMissing scope reference).1 ≠
        .error (.ambiguous place name candidates)) ∧
      ∀ q, (s.resolve showMissing scope reference).1 = .ok (.entity q) →
        ∃ e, (s.resolve showMissing scope reference).2.registry.get? q = some e ∧
          (s.registry.lexicalType? scope reference = some q → e.kind.isType = true) ∧
          (s.registry.lexicalType? scope reference = none →
            s.registry.Reserves (s.ownerId scope) reference →
            e.kind = .missing ∧ e.name = reference) := by
  have hr := hreachable.indexed
  unfold resolve lexicalReferent
  split
  · simp
  · rw [hnew, Registry.bind_eq_lexicalType? hr hnames]
    cases hfound : s.registry.lexicalType? scope reference with
    | some q =>
      obtain ⟨e, he⟩ :=
        Option.isSome_iff_exists.1 (Registry.type?_isSome_of_lexicalType? hr hfound)
      obtain ⟨hget, htype⟩ := Registry.type?_eq_some.1 he
      simp [hget, htype]
    | none =>
      obtain ⟨hreferent, e, hget, hreserved⟩ := placeholder_spec hr scope reference
      cases showMissing with
      | false => simp
      | true => simpa [hreferent, hget] using hreserved

/-- A message `C` of the package `a.b`, and a message `M` that declares another `C` and an `N`. -/
def nestedFile : SchemaFile :=
  ⟨.proto3, some "a.b", [],
    [.message ⟨"C", [], 1⟩,
      .message ⟨"M", [.message "C" [] 3, .message "N" [] 4], 2⟩]⟩

/-- The registry of that file. -/
def nestedRegistry : Registry :=
  (Registry.empty.declareFile "nested.proto" nestedFile).2

theorem nestedRegistry_wellNamed : nestedRegistry.WellNamed :=
  Registry.wellNamed_of_all (by decide)

/-- Inside `N` the message `C` is the one that `M` declares, `b.C` the other one, and `Gone` a
placeholder. -/
theorem resolve_nestedRegistry :
    nestedRegistry.Reachable ∧ nestedRegistry.WellNamed ∧
      ((ofRegistry nestedRegistry).resolve true "a.b.M.N" "C").1 = .ok (.entity "a.b.M.C") ∧
      ((ofRegistry nestedRegistry).resolve true "a.b.M.N" "b.C").1 = .ok (.entity "a.b.C") ∧
      ∃ e, ((ofRegistry nestedRegistry).resolve true "a.b.M.N" "Gone").1 =
          .ok (.entity "missing.N_103.Gone") ∧
        ((ofRegistry nestedRegistry).resolve true "a.b.M.N" "Gone").2.registry.get?
          "missing.N_103.Gone" = some e ∧ e.kind = .missing ∧ e.name = "Gone" := by
  have hreachable : nestedRegistry.Reachable := Registry.Reachable.empty.declareFile _ _
  have hresolve (reference : String) := resolve_eq_lexicalReferent (s := ofRegistry nestedRegistry)
    hreachable nestedRegistry_wellNamed "a.b.M.N" reference rfl true
  refine ⟨hreachable, nestedRegistry_wellNamed, ?_, ?_, ?_⟩
  · rw [(hresolve "C").1]
    rfl
  · rw [(hresolve "b.C").1]
    rfl
  · obtain ⟨hreferent, -, hregistered⟩ := hresolve "Gone"
    have hgone : (ofRegistry nestedRegistry).lexicalReferent true "a.b.M.N" "Gone" =
        .ok (.entity "missing.N_103.Gone") := rfl
    rw [hgone] at hreferent
    obtain ⟨e, he, -, hplaceholder⟩ := hregistered _ hreferent
    have hfree : nestedRegistry.get? "missing.N_103.Gone" = none := rfl
    obtain ⟨hkind, hname⟩ := hplaceholder rfl fun e he => absurd (hfree.symm.trans he) (by simp)
    exact ⟨e, hreferent, he, hkind, hname⟩

/-- A service with the name that the placeholder for `Bar` inside `Foo` would have. -/
def takenNameFile : SchemaFile :=
  ⟨.proto2, some "missing.Foo_100", [], [.message ⟨"Foo", [], 1⟩, .service ⟨"Bar", [], 2⟩]⟩

/-- The registry of that file. -/
def takenNameRegistry : Registry :=
  (Registry.empty.declareFile "taken.proto" takenNameFile).2

/-- Inside `Foo` no scope has a type `Bar`, but the reference stands for the service, and there is
no placeholder. -/
theorem resolve_takenNameRegistry :
    takenNameRegistry.Reachable ∧ takenNameRegistry.WellNamed ∧
      takenNameRegistry.lexicalType? "missing.Foo_100.Foo" "Bar" = none ∧
      ((ofRegistry takenNameRegistry).resolve true "missing.Foo_100.Foo" "Bar").1 =
        .ok (.entity "missing.Foo_100.Bar") ∧
      (((ofRegistry takenNameRegistry).resolve true "missing.Foo_100.Foo" "Bar").2.registry.get?
        "missing.Foo_100.Bar").map (·.kind) = some .service :=
  ⟨Registry.Reachable.empty.declareFile _ _, Registry.wellNamed_of_all (by decide), rfl, rfl, rfl⟩

end Symbols
end SchemaGraph
