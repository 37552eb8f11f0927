import Mathlib.Data.List.Perm.Basic
import SchemaGraph.Binding
import SchemaGraph.Proofs.Registry.Placeholder
/-!
# Resolving while the registry grows

The symbols of a run keep bindings and collect placeholders. `Symbols.Extends` says that they come
from a registry `r` in this way; then they answer every reference as `r` alone would
(`Extends.resolve_eq`), so that the order in which references are resolved does not matter.
-/

namespace SchemaGraph

namespace Registry

theorem type?_eq_some {r : Registry} {q : String} {e : Entity} :
    r.type? q = some e ↔ r.get? q = some e ∧ e.kind.isType = true := by
  unfold type?
  rw [Option.filter_eq_some_iff]

theorem ne_missing_of_isType {e : Entity} (h : e.kind.isType = true) : e.kind ≠ .missing := by
  intro hkind
  rw [hkind] at h
  exact absurd h (by decide)

/-- The candidates of a short name are the declared messages and enums that have it. -/
theorem mem_typeCandidates {r : Registry} (hr : Indexed r) (s : String) (e : Entity) :
    e ∈ r.typeCandidates s ↔ r.type? e.qualifiedName = some e ∧ e.name = s := by
  unfold typeCandidates
  rw [List.mem_filterMap]
  constructor
  · rintro ⟨q, hq, htype⟩
    obtain ⟨hget, hkind⟩ := type?_eq_some.1 htype
    obtain ⟨e', he', -, hname⟩ := (hr.mem_candidates s q).1 hq
    have hee' : e = e' := Option.some.inj (hget.symm.trans he')
    rw [hr.stored hget]
    exact ⟨htype, hee' ▸ hname⟩
  · rintro ⟨htype, hname⟩
    obtain ⟨hget, hkind⟩ := type?_eq_some.1 htype
    exact ⟨e.qualifiedName,
      (hr.mem_candidates s _).2 ⟨e, hget, ne_missing_of_isType hkind, hname⟩, htype⟩

/-! ## What a reference can be bound to -/

theorem mem_of_mem_heaviest {names : List (String × Nat)} {name : String}
    (h : name ∈ heaviest names) : ∃ weight, (name, weight) ∈ names := by
  unfold heaviest at h
  obtain ⟨x, hx, rfl⟩ := List.mem_map.1 ((mem_sortDistinct _ _).1 h)
  exact ⟨x.2, (List.mem_filter.1 hx).1⟩

theorem mem_of_mem_enclosing {candidates : List Entity} {scope reference : String}
    {x : String × Nat} (h : x ∈ enclosing candidates scope reference) :
    ∃ e ∈ candidates, e.qualifiedName = x.1 := by
  unfold enclosing at h
  split at h <;>
  · obtain ⟨e, he, rfl⟩ := List.mem_map.1 h
    exact ⟨e, (List.mem_filter.1 he).1, rfl⟩

/-- A reference is only ever bound to a declared message or enum. -/
theorem type?_isSome_of_bind {r : Registry} (hr : Indexed r) {scope reference q : String}
    (h : r.bind scope reference = .ok (some q)) : (r.type? q).isSome := by
  have hcandidate {s : String} {e : Entity} (he : e ∈ r.typeCandidates s) :
      (r.type? e.qualifiedName).isSome := by
    rw [((mem_typeCandidates hr s e).1 he).1]
    rfl
  unfold bind at h
  dsimp only at h
  split at h
  · rename_i entity hentity
    obtain ⟨name, -, htype⟩ := Option.bind_eq_some_iff.1 hentity
    simp only [Except.ok.injEq, Option.some.injEq] at h
    rw [← h, hr.stored (type?_eq_some.1 htype).1, htype]
    rfl
  · split at h
    · simp at h
    · rename_i only honly
      simp only [Except.ok.injEq, Option.some.injEq] at h
      rw [← h]
      exact hcandidate (honly ▸ List.mem_singleton_self only)
    · split at h
      · simp at h
      · rename_i best hbest
        simp only [Except.ok.injEq, Option.some.injEq] at h
        obtain ⟨weight, hmem⟩ := mem_of_mem_heaviest (hbest ▸ List.mem_singleton_self best)
        obtain ⟨e, he, hname⟩ := mem_of_mem_enclosing hmem
        have htype := hcandidate he
        rw [hname] at htype
        rw [← h]
        exact htype
      · simp at h

/-! ## Binding in registries that declare the same types -/

/-- The order of the names does not matter. -/
theorem heaviest_perm {names names' : List (String × Nat)} (h : names.Perm names') :
    heaviest names = heaviest names' := by
  have hbest : (names.map (·.2)).foldl max 0 = (names'.map (·.2)).foldl max 0 :=
    (h.map _).foldl_eq 0
  unfold heaviest
  rw [hbest]
  exact sortDistinct_congr fun name => ((h.filter _).map _).mem_iff

theorem enclosing_declaration (candidates : List Entity) (scope reference : String) :
    enclosing (candidates.map Entity.declaration) scope reference =
      enclosing candidates scope reference := by
  unfold enclosing
  simp only [List.filter_map, List.map_map]
  rfl

theorem enclosing_perm {candidates candidates' : List Entity}
    (h : (candidates.map Entity.declaration).Perm (candidates'.map Entity.declaration))
    (scope reference : String) :
    (enclosing candidates scope reference).Perm (enclosing candidates' scope reference) := by
  rw [← enclosing_declaration candidates, ← enclosing_declaration candidates']
  unfold enclosing
  split
  · exact (h.filter _).map _
  · exact (h.filter _).map _

/-- A binding looks at what the types have been declared as, in whatever order they stand. -/
theorem bind_congr {r r' : Registry}
    (htype : ∀ q, (r.type? q).map Entity.declaration = (r'.type? q).map Entity.declaration)
    (hcandidates : ∀ s, ((r.typeCandidates s).map Entity.declaration).Perm
      ((r'.typeCandidates s).map Entity.declaration))
    (scope reference : String) : r.bind scope reference = r'.bind scope reference := by
  have habsolute : ((Name.absolute? reference).bind r.type?).map Entity.declaration =
      ((Name.absolute? reference).bind r'.type?).map Entity.declaration := by
    cases Name.absolute? reference with
    | none => rfl
    | some name => exact htype name
  have hcandidates :=
    hcandidates (Name.lastComponent ((Name.absolute? reference).getD reference))
  unfold bind
  dsimp only
  cases hdirect : (Name.absolute? reference).bind r.type? with
  | some e =>
    rw [hdirect] at habsolute
    obtain ⟨e', he', hdeclaration⟩ := Option.map_eq_some_iff.1 habsolute.symm
    have hname : e'.qualifiedName = e.qualifiedName := congrArg (·.qualifiedName) hdeclaration
    simp only [he', hname]
  | none =>
    rw [hdirect] at habsolute
    simp only [Option.map_eq_none_iff.1 habsolute.symm]
    generalize (Name.absolute? reference).getD reference = name at hcandidates
    generalize r.typeCandidates (Name.lastComponent name) = cs at hcandidates
    generalize r'.typeCandidates (Name.lastComponent name) = cs' at hcandidates
    have hheaviest := heaviest_perm (enclosing_perm hcandidates scope name)
    have hlength : cs.length = cs'.length := by simpa using hcandidates.length_eq
    -- None, one or several candidates: there are as many on both sides.
    rcases cs with _ | ⟨e, _ | ⟨f, es⟩⟩ <;> rcases cs' with _ | ⟨e', _ | ⟨f', es'⟩⟩ <;>
      simp only [List.length_cons, List.length_nil] at hlength <;> try omega
    · rfl
    · have hname : e.qualifiedName = e'.qualifiedName :=
        congrArg (·.qualifiedName) (List.singleton_perm_singleton.1 hcandidates)
      simp only [hname]
    · simp only [hheaviest]

theorem Grows.type?_declaration {r r' : Registry} (h : Grows r r') (q : String) :
    (r'.type? q).map Entity.declaration = (r.type? q).map Entity.declaration := by
  unfold type?
  cases hq : r.get? q with
  | none =>
    cases hq' : r'.get? q with
    | none => rfl
    | some e' => simp [h.added hq hq', EntityKind.isType]
  | some e =>
    obtain ⟨e', hq', hundrawn⟩ := h.kept hq
    rw [hq', Option.filter_some, Option.filter_some, Entity.kind_eq_of_undrawn hundrawn]
    split
    · exact congrArg some (Entity.declaration_eq_of_undrawn hundrawn)
    · rfl

/-- What a registry grows by does not change any binding. -/
theorem Grows.bind_eq {r r' : Registry} (h : Grows r r') (scope reference : String) :
    r'.bind scope reference = r.bind scope reference := by
  refine bind_congr h.type?_declaration (fun s => .of_eq ?_) scope reference
  unfold typeCandidates
  rw [List.map_filterMap, List.map_filterMap, h.candidates]
  simp only [h.type?_declaration]

end Registry

namespace Symbols

/-- What the names of the placeholders inside a scope start with: the node identifier of the entity
that the scope names, or the scope itself when it names none. -/
def ownerId (s : Symbols) (scope : String) : String :=
  match s.registry.get? scope with
  | some owner => owner.nodeId
  | none => scope

theorem placeholder_eq (s : Symbols) (scope reference : String) :
    ∃ source, s.placeholder scope reference =
      (.entity (s.registry.placeholder (s.ownerId scope) reference source).1.qualifiedName,
        { s with registry := (s.registry.placeholder (s.ownerId scope) reference source).2 }) := by
  unfold placeholder ownerId
  cases s.registry.get? scope with
  | some owner => exact ⟨owner.source, rfl⟩
  | none => exact ⟨"", rfl⟩

/-- The placeholder of a reference is registered under the name that its owner and the reference
give. It is one of this reference, if nothing else has that name. -/
theorem placeholder_spec {s : Symbols} (hr : s.registry.Indexed) (scope reference : String) :
    (s.placeholder scope reference).1 =
        .entity (Registry.placeholderName (s.ownerId scope) reference) ∧
      ∃ e, (s.placeholder scope reference).2.registry.get?
          (Registry.placeholderName (s.ownerId scope) reference) = some e ∧
        (s.registry.Reserves (s.ownerId scope) reference →
          e.kind = .missing ∧ e.name = reference) := by
  obtain ⟨source, heq⟩ := s.placeholder_eq scope reference
  have hget := Registry.get?_placeholder s.registry (s.ownerId scope) reference source
    (Registry.placeholderName (s.ownerId scope) reference)
  rw [if_pos rfl] at hget
  rw [heq, (hr.placeholder _ _ _).stored hget]
  exact ⟨rfl, _, hget, fun hreserves => hreserves.placeholder source⟩

/-- What resolving a reference may answer, and the symbols after it. -/
inductive Answers (s : Symbols) (showMissing : Bool) (scope reference : String) :
    Except BindingError Referent → Symbols → Prop where
  | scalar (h : Name.isScalar reference = true) :
      Answers s showMissing scope reference (.ok .scalar) s
  | kept {q : String} (hscalar : Name.isScalar reference = false)
      (h : s.lookup scope reference = some q) :
      Answers s showMissing scope reference (.ok (.entity q)) s
  | bound {q : String} (hscalar : Name.isScalar reference = false)
      (hnew : s.lookup scope reference = none)
      (h : s.registry.bind scope reference = .ok (some q)) :
      Answers s showMissing scope reference (.ok (.entity q))
        { s with bindings := ((scope, reference), q) :: s.bindings }
  | refused (e : BindingError) : Answers s showMissing scope reference (.error e) s
  | placeholder (hscalar : Name.isScalar reference = false)
      (hnew : s.lookup scope reference = none) (h : s.registry.bind scope reference = .ok none)
      (hshow : showMissing = true) :
      Answers s showMissing scope reference (.ok (s.placeholder scope reference).1)
        (s.placeholder scope reference).2

theorem answers_resolve (s : Symbols) (showMissing : Bool) (scope reference : String) :
    Answers s showMissing scope reference (s.resolve showMissing scope reference).1
      (s.resolve showMissing scope reference).2 := by
  unfold resolve
  by_cases hscalar : Name.isScalar reference = true
  · rw [if_pos hscalar]
    exact .scalar hscalar
  rw [if_neg hscalar]
  have hscalar : Name.isScalar reference = false := by simpa using hscalar
  cases hlookup : s.lookup scope reference with
  | some q => exact .kept hscalar hlookup
  | none =>
    dsimp only
    cases hbind : s.registry.bind scope reference with
    | error e => exact .refused e
    | ok target =>
      cases target with
      | some q => exact .bound hscalar hlookup hbind
      | none =>
        cases showMissing with
        | false => exact .refused _
        | true => exact .placeholder hscalar hlookup hbind rfl

theorem bindings_placeholder (s : Symbols) (scope reference : String) :
    (s.placeholder scope reference).2.bindings = s.bindings := by
  obtain ⟨source, heq⟩ := s.placeholder_eq scope reference
  rw [heq]

theorem lookup_cons (s : Symbols) (scope reference q scope' reference' : String) :
    lookup { s with bindings := ((scope, reference), q) :: s.bindings } scope' reference' =
      if scope' = scope ∧ reference' = reference then some q else s.lookup scope' reference' := by
  unfold lookup
  by_cases h : (scope', reference') = (scope, reference)
  · obtain ⟨rfl, rfl⟩ := Prod.mk.inj h
    rw [if_pos ⟨rfl, rfl⟩, List.lookup_cons_self]
  · have hnot : ¬(scope' = scope ∧ reference' = reference) := fun h' => h (by rw [h'.1, h'.2])
    rw [if_neg hnot, List.lookup_cons, beq_false_of_ne h]

/-- Resolving a reference gives a binding to its own pair at most, which had none before. -/
theorem lookup_resolve_cases (s : Symbols) (showMissing : Bool)
    (scope reference scope' reference' : String) :
    (s.resolve showMissing scope reference).2.lookup scope' reference' =
        s.lookup scope' reference' ∨
      (scope' = scope ∧ reference' = reference) ∧ Name.isScalar reference = false ∧
        s.lookup scope reference = none ∧ ∃ q, s.registry.bind scope reference = .ok (some q) ∧
          (s.resolve showMissing scope reference).2.lookup scope' reference' = some q := by
  have hanswers := s.answers_resolve showMissing scope reference
  generalize (s.resolve showMissing scope reference).1 = outcome at hanswers
  generalize (s.resolve showMissing scope reference).2 = s' at hanswers
  cases hanswers with
  | scalar | kept | refused => exact .inl rfl
  | bound hscalar hnew hbind =>
    rw [lookup_cons]
    by_cases hpair : scope' = scope ∧ reference' = reference
    · rw [if_pos hpair]
      exact .inr ⟨hpair, hscalar, hnew, _, hbind, rfl⟩
    · rw [if_neg hpair]
      exact .inl rfl
  | placeholder =>
    left
    rw [lookup, bindings_placeholder, lookup]

/-- A binding that is kept is never reconsidered. -/
theorem lookup_resolve {s : Symbols} {scope reference q : String}
    (h : s.lookup scope reference = some q) (showMissing : Bool) (scope' reference' : String) :
    (s.resolve showMissing scope' reference').2.lookup scope reference = some q := by
  rcases s.lookup_resolve_cases showMissing scope' reference' scope reference with
    heq | ⟨⟨rfl, rfl⟩, -, hnone, -⟩
  · rw [heq, h]
  · rw [h] at hnone
    cases hnone

/-! ## Symbols over a registry -/

/-- `s.Extends r`: the registry of `s` has grown from `r`, and the bindings kept are those of
`r`. -/
structure Extends (r : Registry) (s : Symbols) : Prop where
  grows : r.Grows s.registry
  coherent : s.registry.Coherent
  bound : ∀ {scope reference q}, s.lookup scope reference = some q →
    r.bind scope reference = .ok (some q)

theorem extends_ofRegistry {r : Registry} (hr : r.Coherent) : Extends r (ofRegistry r) :=
  ⟨Registry.Grows.refl r, hr, fun h => by cases h⟩

end Symbols

/-- What a reference stands for in a scope of a registry. -/
def Registry.referent (r : Registry) (showMissing : Bool) (scope reference : String) :
    Except BindingError Referent :=
  ((Symbols.ofRegistry r).resolve showMissing scope reference).1

/-- What a reference stands for is told by what it is bound to. -/
theorem Registry.referent_eq {r : Registry} (hr : r.Indexed) (showMissing : Bool)
    (scope reference : String) :
    r.referent showMissing scope reference =
      if Name.isScalar reference then .ok .scalar
      else
        match r.bind scope reference with
        | .error e => .error e
        | .ok (some q) => .ok (.entity q)
        | .ok none =>
          if showMissing then
            .ok (.entity (placeholderName ((Symbols.ofRegistry r).ownerId scope) reference))
          else .error (.unresolved scope reference) := by
  have hlookup : (Symbols.ofRegistry r).lookup scope reference = none := rfl
  have hname := (Symbols.placeholder_spec (s := .ofRegistry r) hr scope reference).1
  unfold referent Symbols.resolve
  rw [hlookup]
  show (if Name.isScalar reference then _ else _ : Except BindingError Referent × Symbols).1 = _
  split
  · rfl
  · show (match r.bind scope reference with
      | .error e => _
      | .ok (some q) => _
      | .ok none => _ : Except BindingError Referent × Symbols).1 = _
    split
    · rfl
    · rfl
    · split
      · exact congrArg Except.ok hname
      · rfl

namespace Symbols

theorem ownerId_of_get? {r : Registry} {scope : String} {owner : Entity}
    (h : r.get? scope = some owner) : (ofRegistry r).ownerId scope = owner.nodeId := by
  have hget : (ofRegistry r).registry.get? scope = some owner := h
  simp only [ownerId, hget]

theorem Extends.ownerId_eq {r : Registry} {s : Symbols} (h : Extends r s) {scope : String}
    (hscope : (r.get? scope).isSome) : s.ownerId scope = (ofRegistry r).ownerId scope := by
  obtain ⟨owner, howner⟩ := Option.isSome_iff_exists.1 hscope
  obtain ⟨owner', howner', -⟩ := h.grows.kept howner
  rw [ownerId_of_get? howner]
  simp only [ownerId, howner']
  exact h.grows.nodeId_eq howner howner'

/-- Whatever has been resolved before, a reference stands for what it stands for in the registry
from which the symbols come. -/
theorem Extends.resolve_eq {r : Registry} {s : Symbols} (hr : r.Indexed) (h : Extends r s)
    {scope : String} (hscope : (r.get? scope).isSome) (showMissing : Bool) (reference : String) :
    (s.resolve showMissing scope reference).1 = r.referent showMissing scope reference := by
  unfold Registry.referent resolve
  split
  · rfl
  · have hlookup : (ofRegistry r).lookup scope reference = none := rfl
    have hbind : (ofRegistry r).registry.bind scope reference = s.registry.bind scope reference :=
      (h.grows.bind_eq scope reference).symm
    rw [hlookup, hbind]
    cases hbound : s.lookup scope reference with
    | some q =>
      rw [h.grows.bind_eq, h.bound hbound]
    | none =>
      dsimp only
      split
      · rfl
      · rfl
      · cases showMissing with
        | false => rfl
        | true =>
          -- The name of a placeholder depends on the owner and the reference alone.
          have hname := (placeholder_spec h.coherent.indexed scope reference).1
          have hname' := (placeholder_spec (s := ofRegistry r) hr scope reference).1
          rw [h.ownerId_eq hscope] at hname
          simp only [if_true, hname, hname']

/-- What resolving a reference does to the symbols. -/
structure Resolved (r : Registry) (s s' : Symbols) (outcome : Except BindingError Referent) :
    Prop where
  symbols : Extends r s'
  grows : s.registry.Grows s'.registry
  registered : ∀ {q}, outcome = .ok (.entity q) → (s'.registry.get? q).isSome
  /-- What is registered already is not added again. -/
  settled : (∀ q, outcome = .ok (.entity q) → (s.registry.get? q).isSome) →
    s'.registry = s.registry

theorem Extends.placeholder {r : Registry} {s : Symbols} (h : Extends r s)
    (scope reference : String) :
    Resolved r s (s.placeholder scope reference).2 (.ok (s.placeholder scope reference).1) := by
  obtain ⟨hname, e, he, -⟩ := placeholder_spec h.coherent.indexed scope reference
  obtain ⟨source, heq⟩ := s.placeholder_eq scope reference
  have hgrows := s.registry.grows_placeholder (s.ownerId scope) reference source
  refine ⟨?_, ?_, fun {q} hq => ?_, fun hsettled => ?_⟩
  · rw [heq]
    exact ⟨h.grows.trans hgrows, h.coherent.placeholder _ _ _, h.bound⟩
  · rw [heq]
    exact hgrows
  · simp only [hname, Except.ok.injEq, Referent.entity.injEq] at hq
    exact Option.isSome_iff_exists.2 ⟨e, hq ▸ he⟩
  · have hpresent := hsettled _ (congrArg Except.ok hname)
    obtain ⟨found, hfound⟩ := Option.isSome_iff_exists.1 hpresent
    rw [heq, Registry.placeholder_of_present hfound]

theorem Extends.isSome_of_bind {r : Registry} {s : Symbols} (h : Extends r s)
    {scope reference q : String} (hbind : r.bind scope reference = .ok (some q)) :
    (s.registry.get? q).isSome := by
  rw [← h.grows.bind_eq] at hbind
  obtain ⟨e, he⟩ := Option.isSome_iff_exists.1
    (Registry.type?_isSome_of_bind h.coherent.indexed hbind)
  rw [(Registry.type?_eq_some.1 he).1]
  rfl

/-- A new binding of `r` may be kept. -/
theorem Extends.bind {r : Registry} {s : Symbols} (h : Extends r s) {scope reference q : String}
    (hbind : r.bind scope reference = .ok (some q)) :
    Extends r { s with bindings := ((scope, reference), q) :: s.bindings } := by
  refine ⟨h.grows, h.coherent, fun {scope' reference' q'} hlookup => ?_⟩
  rw [lookup_cons] at hlookup
  by_cases hpair : scope' = scope ∧ reference' = reference
  · obtain ⟨rfl, rfl⟩ := hpair
    rw [if_pos ⟨rfl, rfl⟩] at hlookup
    rw [hbind, Option.some.inj hlookup]
  · rw [if_neg hpair] at hlookup
    exact h.bound hlookup

theorem Extends.resolved {r : Registry} {s : Symbols} (h : Extends r s) (showMissing : Bool)
    (scope reference : String) :
    Resolved r s (s.resolve showMissing scope reference).2
      (s.resolve showMissing scope reference).1 := by
  have hsame (outcome : Except BindingError Referent)
      (hregistered : ∀ {q}, outcome = .ok (.entity q) → (s.registry.get? q).isSome) :
      Resolved r s s outcome :=
    ⟨h, Registry.Grows.refl _, hregistered, fun _ => rfl⟩
  have hbound {q : String} (hbind : r.bind scope reference = .ok (some q)) {q' : String}
      (hq' : (Except.ok (.entity q) : Except BindingError Referent) = .ok (.entity q')) :
      (s.registry.get? q').isSome := by
    simp only [Except.ok.injEq, Referent.entity.injEq] at hq'
    exact hq' ▸ h.isSome_of_bind hbind
  unfold resolve
  split
  · exact hsame _ fun hq => by cases hq
  · rw [h.grows.bind_eq]
    cases hlookup : s.lookup scope reference with
    | some q => exact hsame _ (hbound (h.bound hlookup))
    | none =>
      dsimp only
      split
      · exact hsame _ fun hq => by cases hq
      -- A new binding is kept, and it is one of `r`.
      · rename_i q hbind
        exact ⟨h.bind hbind, Registry.Grows.refl _, hbound hbind, fun _ => rfl⟩
      · cases showMissing with
        | false => exact hsame _ fun hq => by cases hq
        | true => exact h.placeholder scope reference

end Symbols
end SchemaGraph
