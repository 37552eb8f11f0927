import SchemaGraph.Proofs.Binding.Resolution
import SchemaGraph.Proofs.Registry.Histories
/-!
# Bindings are permanent

A history of symbols interleaves operations on the registry with references that are resolved. What
one of them does to the registry is at most one operation of the registry's own (`registry_apply`).
Two invariants carry the theorem: every binding leads to a message or an enum (`Sound`), and what
has once got a placeholder is bound to nothing until something is declared (`Stands`). So a binding
is answered for ever, and a placeholder until the next declaration, and neither answer changes
anything.
-/

namespace SchemaGraph

/-- A message or an enum stays one. -/
theorem Registry.type?_isSome_run {r : Registry} {q : String} (h : (r.type? q).isSome)
    (history : List Operation) : ((r.run history).type? q).isSome := by
  obtain ⟨e, he⟩ := Option.isSome_iff_exists.1 h
  obtain ⟨hget, hkind⟩ := type?_eq_some.1 he
  obtain ⟨e', hget', hundrawn⟩ := kept_run history hget
  have htype : (r.run history).type? q = some e' := by
    refine type?_eq_some.2 ⟨hget', ?_⟩
    rw [Entity.kind_eq_of_undrawn hundrawn]
    exact hkind
  rw [htype]
  rfl

/-- A message or an enum is no placeholder. -/
theorem Registry.not_missing_of_type? {r : Registry} {q : String} {e : Entity}
    (h : (r.type? q).isSome) (he : r.get? q = some e) : e.kind ≠ .missing := by
  obtain ⟨e', he'⟩ := Option.isSome_iff_exists.1 h
  obtain ⟨hget, hkind⟩ := type?_eq_some.1 he'
  rw [hget] at he
  rw [← Option.some.inj he]
  exact ne_missing_of_isType hkind

namespace Symbols

/-- A call that may change the registry or the bindings. -/
inductive Operation where
  | registry (op : Registry.Operation)
  | resolve (scope reference : String)

namespace Operation

/-- The symbols after the operation. -/
def apply (showMissing : Bool) (s : Symbols) : Operation → Symbols
  | registry op => { s with registry := op.apply s.registry }
  | resolve scope reference => (s.resolve showMissing scope reference).2

/-- The entity that the operation declares, unless its qualified name is taken. -/
def accepts (s : Symbols) : Operation → List Entity
  | registry op => op.accepts s.registry
  | resolve _ _ => []

end Operation

/-- The symbols after a history of operations. -/
def run (showMissing : Bool) (s : Symbols) (history : List Operation) : Symbols :=
  history.foldl (Operation.apply showMissing) s

/-- The entities that a history declares, without those whose qualified names are taken. -/
def accepted (showMissing : Bool) (s : Symbols) : List Operation → List Entity
  | [] => []
  | op :: history => op.accepts s ++ accepted showMissing (op.apply showMissing s) history

variable {showMissing : Bool} {s : Symbols}

/-- What every operation keeps, every history keeps. -/
theorem run_induction {P : Symbols → Prop}
    (hstep : ∀ s op, P s → P (Operation.apply showMissing s op)) (hs : P s)
    (history : List Operation) : P (s.run showMissing history) := by
  induction history generalizing s with
  | nil => exact hs
  | cons op history ih => exact ih (hstep s op hs)

/-! ## What happens to the registry -/

theorem registry_resolve (s : Symbols) (showMissing : Bool) (scope reference : String) :
    (s.resolve showMissing scope reference).2.registry = s.registry ∨ ∃ ownerId source,
      (s.resolve showMissing scope reference).2.registry =
        (s.registry.placeholder ownerId reference source).2 := by
  have hanswers := s.answers_resolve showMissing scope reference
  generalize (s.resolve showMissing scope reference).1 = outcome at hanswers
  generalize (s.resolve showMissing scope reference).2 = s' at hanswers
  cases hanswers with
  | scalar | kept | bound | refused => exact .inl rfl
  | placeholder =>
    obtain ⟨source, heq⟩ := s.placeholder_eq scope reference
    exact .inr ⟨s.ownerId scope, source, by rw [heq]⟩

/-- To the registry an operation is at most one of the registry's own. -/
theorem registry_apply (showMissing : Bool) (s : Symbols) (op : Operation) :
    ∃ ops, (op.apply showMissing s).registry = s.registry.run ops ∧
      s.registry.accepted ops = op.accepts s := by
  cases op with
  | registry op => exact ⟨[op], rfl, List.append_nil _⟩
  | resolve scope reference =>
    rcases s.registry_resolve showMissing scope reference with h | ⟨ownerId, source, h⟩
    · exact ⟨[], h, rfl⟩
    · exact ⟨[.placeholder ownerId reference source], h, rfl⟩

theorem lookup_apply {scope reference q : String} (h : s.lookup scope reference = some q)
    (op : Operation) : (op.apply showMissing s).lookup scope reference = some q := by
  cases op with
  | registry op => exact h
  | resolve scope' reference' => exact lookup_resolve h showMissing scope' reference'

theorem lookup_run {scope reference q : String} (h : s.lookup scope reference = some q)
    (history : List Operation) : (s.run showMissing history).lookup scope reference = some q :=
  run_induction (P := fun s => s.lookup scope reference = some q)
    (fun _ op h => lookup_apply h op) h history

/-! ## Bindings lead to messages and enums -/

/-- Operations lead to the registry, and the bindings lead to messages and enums of it. No scalar
has a binding. -/
structure Sound (s : Symbols) : Prop where
  reachable : s.registry.Reachable
  nonscalar : ∀ {scope reference q}, s.lookup scope reference = some q →
    Name.isScalar reference = false
  type? : ∀ {scope reference q}, s.lookup scope reference = some q → (s.registry.type? q).isSome

theorem sound_empty : Sound (ofRegistry .empty) :=
  ⟨.empty, nofun, nofun⟩

theorem Sound.apply (hs : Sound s) (op : Operation) : Sound (op.apply showMissing s) := by
  obtain ⟨ops, hregistry, -⟩ := registry_apply showMissing s op
  have htype {q : String} (h : (s.registry.type? q).isSome) :
      ((op.apply showMissing s).registry.type? q).isSome := by
    rw [hregistry]
    exact Registry.type?_isSome_run h ops
  have hreachable : (op.apply showMissing s).registry.Reachable := by
    rw [hregistry]
    exact Registry.reachable_run hs.reachable ops
  cases op with
  | registry op => exact ⟨hreachable, hs.nonscalar, fun h => htype (hs.type? h)⟩
  | resolve scope reference =>
    refine ⟨hreachable, fun {scope' reference' q} h => ?_, fun {scope' reference' q} h => ?_⟩
    · rcases s.lookup_resolve_cases showMissing scope reference scope' reference' with
        heq | ⟨⟨rfl, rfl⟩, hscalar, -⟩
      · exact hs.nonscalar (heq.symm.trans h)
      · exact hscalar
    · rcases s.lookup_resolve_cases showMissing scope reference scope' reference' with
        heq | ⟨-, -, -, q', hbind, heq⟩
      · exact htype (hs.type? (heq.symm.trans h))
      · -- A reference is bound to messages and enums only.
        obtain rfl := Option.some.inj (heq.symm.trans h)
        exact htype (Registry.type?_isSome_of_bind hs.reachable.indexed hbind)

theorem Sound.run (hs : Sound s) (history : List Operation) :
    Sound (s.run showMissing history) :=
  run_induction (fun _ op h => h.apply op) hs history

/-- What has a binding is answered with it, and nothing changes. -/
theorem Sound.resolve_of_lookup (hs : Sound s) {scope reference q : String}
    (h : s.lookup scope reference = some q) (showMissing : Bool) :
    s.resolve showMissing scope reference = (.ok (.entity q), s) := by
  have hscalar : ¬ Name.isScalar reference = true := by
    rw [hs.nonscalar h]
    exact Bool.false_ne_true
  rw [Symbols.resolve, if_neg hscalar, h]

/-! ## Placeholders -/

/-- The placeholder `q` stands for a reference inside a registered scope: nothing is bound to the
reference, and the placeholder is there. -/
structure Stands (s : Symbols) (scope reference q : String) : Prop where
  nonscalar : Name.isScalar reference = false
  unbound : s.lookup scope reference = none
  bind : s.registry.bind scope reference = .ok none
  owner : (s.registry.get? scope).isSome
  name : Registry.placeholderName (s.ownerId scope) reference = q
  present : (s.registry.get? q).isSome

/-- What a scope's placeholders are named after does not change once the scope is registered. -/
theorem ownerId_of_grows {s' : Symbols} (h : s.registry.Grows s'.registry) {scope : String}
    (hscope : (s.registry.get? scope).isSome) : s'.ownerId scope = s.ownerId scope := by
  obtain ⟨owner, howner⟩ := Option.isSome_iff_exists.1 hscope
  obtain ⟨owner', howner', -⟩ := h.kept howner
  simp only [ownerId, howner, howner']
  exact h.nodeId_eq howner howner'

variable {scope reference q : String}

theorem Stands.of_grows {s' : Symbols} (hs : Stands s scope reference q)
    (h : s.registry.Grows s'.registry) (hunbound : s'.lookup scope reference = none) :
    Stands s' scope reference q where
  nonscalar := hs.nonscalar
  unbound := hunbound
  bind := (h.bind_eq scope reference).trans hs.bind
  owner := h.isSome hs.owner
  name := by rw [ownerId_of_grows h hs.owner, hs.name]
  present := h.isSome hs.present

/-- Only a reference that is bound to something gets a binding. -/
theorem Stands.lookup_apply (hs : Stands s scope reference q) (op : Operation) :
    (op.apply showMissing s).lookup scope reference = none := by
  cases op with
  | registry op => exact hs.unbound
  | resolve scope' reference' =>
    rcases s.lookup_resolve_cases showMissing scope' reference' scope reference with
      heq | ⟨⟨rfl, rfl⟩, -, -, q', hbind, -⟩
    · exact heq.trans hs.unbound
    · rw [hs.bind] at hbind
      cases hbind

theorem Stands.apply (hs : Stands s scope reference q) {op : Operation} (h : op.accepts s = []) :
    Stands (op.apply showMissing s) scope reference q := by
  obtain ⟨ops, hregistry, haccepts⟩ := registry_apply showMissing s op
  refine hs.of_grows ?_ (hs.lookup_apply op)
  rw [hregistry]
  exact Registry.grows_run (haccepts.trans h)

/-- A placeholder stands as long as nothing is declared. -/
theorem Stands.run (hs : Stands s scope reference q) {history : List Operation}
    (h : s.accepted showMissing history = []) :
    Stands (s.run showMissing history) scope reference q := by
  induction history generalizing s with
  | nil => exact hs
  | cons op history ih =>
    obtain ⟨hop, hrest⟩ := List.append_eq_nil_iff.1 h
    exact ih (hs.apply hop) hrest

/-- What stands is answered, and nothing changes. -/
theorem Stands.resolve (hs : Stands s scope reference q) (hr : s.registry.Indexed) :
    s.resolve true scope reference = (.ok (.entity q), s) := by
  have hscalar : ¬ Name.isScalar reference = true := by
    rw [hs.nonscalar]
    exact Bool.false_ne_true
  have hname := (placeholder_spec hr scope reference).1
  obtain ⟨source, heq⟩ := s.placeholder_eq scope reference
  have hpresent := hs.present
  rw [← hs.name] at hpresent
  obtain ⟨found, hfound⟩ := Option.isSome_iff_exists.1 hpresent
  rw [Symbols.resolve, if_neg hscalar, hs.unbound]
  simp only [hs.bind, if_true]
  rw [hname, hs.name, heq, Registry.placeholder_of_present hfound]

/-- The answer with a placeholder makes it stand. -/
theorem Sound.stands (hs : Sound s) (hscope : (s.registry.get? scope).isSome)
    (hanswer : (s.resolve showMissing scope reference).1 = .ok (.entity q)) {e : Entity}
    (he : (s.resolve showMissing scope reference).2.registry.get? q = some e)
    (hkind : e.kind = .missing) :
    showMissing = true ∧ Stands (s.resolve showMissing scope reference).2 scope reference q := by
  have hanswers := s.answers_resolve showMissing scope reference
  generalize (s.resolve showMissing scope reference).1 = outcome at hanswers hanswer
  generalize (s.resolve showMissing scope reference).2 = s' at hanswers he
  cases hanswers with
  | scalar => cases hanswer
  | refused => cases hanswer
  | kept hscalar hlookup =>
    cases hanswer
    exact absurd hkind (Registry.not_missing_of_type? (hs.type? hlookup) he)
  | bound hscalar _ hbind =>
    cases hanswer
    have htype := Registry.type?_isSome_of_bind hs.reachable.indexed hbind
    exact absurd hkind (Registry.not_missing_of_type? htype he)
  | placeholder hscalar hnew hbind hshow =>
    have hname := (placeholder_spec hs.reachable.indexed scope reference).1
    have hq : Registry.placeholderName (s.ownerId scope) reference = q := by
      have heq := hname.symm.trans (Except.ok.inj hanswer)
      exact Referent.entity.inj heq
    have hgrows : s.registry.Grows (s.placeholder scope reference).2.registry := by
      obtain ⟨source, heq⟩ := s.placeholder_eq scope reference
      rw [heq]
      exact s.registry.grows_placeholder (s.ownerId scope) reference source
    refine ⟨hshow,
      { nonscalar := hscalar
        unbound := ?_
        bind := (hgrows.bind_eq scope reference).trans hbind
        owner := hgrows.isSome hscope
        name := by rw [ownerId_of_grows hgrows hscope, hq]
        present := Option.isSome_iff_exists.2 ⟨e, he⟩ }⟩
    unfold lookup
    rw [bindings_placeholder]
    exact hnew

/-! ## The theorem -/

/-- The symbols that a history of operations makes. -/
def after (showMissing : Bool) (history : List Operation) : Symbols :=
  (ofRegistry .empty).run showMissing history

/-- What a history has settled, whatever comes later. -/
structure Permanent (showMissing : Bool) (history later : List Operation) : Prop where
  /-- A binding is answered for ever, with a message or an enum, and the answer changes nothing. -/
  binding : ∀ {scope reference q}, (after showMissing history).lookup scope reference = some q →
    ((after showMissing history).run showMissing later).resolve showMissing scope reference =
        (.ok (.entity q), (after showMissing history).run showMissing later) ∧
      ∃ e, ((after showMissing history).run showMissing later).registry.get? q = some e ∧
        e.kind.isType = true
  /-- The answer with a placeholder inside a registered scope is given again, and changes nothing,
  until something is declared. -/
  placeholder : ∀ {scope reference q s},
    ((after showMissing history).registry.get? scope).isSome →
    (after showMissing history).resolve showMissing scope reference = (.ok (.entity q), s) →
    (∃ e, s.registry.get? q = some e ∧ e.kind = .missing) →
    s.accepted showMissing later = [] →
    (s.run showMissing later).resolve showMissing scope reference =
      (.ok (.entity q), s.run showMissing later)

/-- **Bindings are permanent.** Whatever operations on the registry and whatever references are
interleaved: a pair that has got a binding to a message or an enum keeps it, and a pair inside a
registered scope that has got a placeholder keeps it until a declaration is accepted. -/
theorem permanent_of_history (showMissing : Bool) (history later : List Operation) :
    Permanent showMissing history later := by
  have hsound : Sound (after showMissing history) := sound_empty.run history
  refine ⟨fun {scope reference q} hlookup => ?_,
    fun {scope reference q s} hscope hresolve hmissing hlater => ?_⟩
  · have hthen : Sound ((after showMissing history).run showMissing later) := hsound.run later
    have hlater : ((after showMissing history).run showMissing later).lookup scope reference =
        some q := lookup_run hlookup later
    obtain ⟨e, he⟩ := Option.isSome_iff_exists.1 (hthen.type? hlater)
    exact ⟨hthen.resolve_of_lookup hlater showMissing, e, Registry.type?_eq_some.1 he⟩
  · obtain ⟨e, he, hkind⟩ := hmissing
    have hanswer : ((after showMissing history).resolve showMissing scope reference).1 =
        .ok (.entity q) := by rw [hresolve]
    have hafter : ((after showMissing history).resolve showMissing scope reference).2 = s := by
      rw [hresolve]
    obtain ⟨hshow, hstands⟩ := hsound.stands hscope hanswer (hafter ▸ he) hkind
    have hsound' : Sound s := hafter ▸ hsound.apply (.resolve scope reference)
    rw [hafter] at hstands
    subst hshow
    exact (hstands.run hlater).resolve (hsound'.run later).reachable.indexed

/-- The one candidate for `Bar` is taken from afar, and nothing answers `Baz`. -/
def bindingHistory : List Operation :=
  [.registry (.declare ⟨"b.Bar", "Bar", .message, "Bar_7", "u", none, none, none⟩),
    .registry (.declare ⟨"a.Foo", "Foo", .message, "Foo_8", "u", none, none, none⟩),
    .resolve "a.Foo" "Bar"]

/-- A nearer `Bar` is declared. -/
def nearerHistory : List Operation :=
  [.registry (.declare ⟨"a.Bar", "Bar", .message, "Bar_9", "v", none, none, none⟩)]

/-- Other scopes get placeholders, an entity is drawn and a declaration is rejected. -/
def quietHistory : List Operation :=
  [.resolve "b.Bar" "Baz", .registry (.placeholder "Foo_8" "Qux" "u"),
    .registry (.setArtifact "a.Foo" "drawn"),
    .registry (.declare ⟨"a.Foo", "Baz", .enum, "Baz_9", "v", none, none, none⟩)]

theorem permanent_bindingHistory :
    (after true bindingHistory).lookup "a.Foo" "Bar" = some "b.Bar" ∧
    ((after true nearerHistory).resolve true "a.Foo" "Bar").1 = .ok (.entity "a.Bar") ∧
    ((after true bindingHistory).registry.get? "a.Foo").isSome ∧
    ((after true bindingHistory).resolve true "a.Foo" "Baz").1 =
      .ok (.entity "missing.Foo_8.Baz") ∧
    ((after true bindingHistory).resolve true "a.Foo" "Baz").2.accepted true quietHistory = [] ∧
    Permanent true bindingHistory nearerHistory ∧ Permanent true bindingHistory quietHistory :=
  ⟨by decide +kernel, by decide +kernel, by decide +kernel, by decide +kernel, by decide +kernel,
    permanent_of_history true bindingHistory nearerHistory,
    permanent_of_history true bindingHistory quietHistory⟩

end Symbols
end SchemaGraph
