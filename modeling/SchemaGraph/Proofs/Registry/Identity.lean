import SchemaGraph.Proofs.Registry.Declared
/-!
# Node identifiers name one entity each

A node identifier ends with a number that is given out once. `Registry.Identified` is the invariant:
the identifier of an entity leads back to its qualified name, and no identifier has the next number
yet. Declarations, placeholders and drawn fragments keep it, so two entities never share an
identifier (`Identified.qualifiedName_eq`).
-/

namespace SchemaGraph.Registry

/-! ## Numbers of node identifiers -/

/-- What follows the last occurrence of a character is determined by the whole. -/
theorem eq_of_append_cons_eq {c : Char} {as as' bs bs' : List Char} (hbs : c ∉ bs) (hbs' : c ∉ bs')
    (h : as ++ c :: bs = as' ++ c :: bs') : bs = bs' := by
  have htail (xs ys : List Char) (hys : c ∉ ys) :
      (xs ++ c :: ys).reverse.takeWhile (· ≠ c) = ys.reverse := by
    rw [List.reverse_append, List.reverse_cons, List.append_assoc, List.takeWhile_append_of_pos]
    · simp
    · intro a ha
      have hne : a ≠ c := fun heq => hys (heq ▸ List.mem_reverse.1 ha)
      simpa using hne
  have hreverse := htail as bs hbs
  rw [h, htail as' bs' hbs'] at hreverse
  exact (List.reverse_inj.1 hreverse).symm

/-- A node identifier determines its number: digits contain no underscore. -/
theorem number_inj {s s' : String} {n n' : Nat}
    (h : s ++ "_" ++ toString n = s' ++ "_" ++ toString n') : n = n' := by
  have hlist := congrArg String.toList h
  simp only [String.toList_append, List.append_assoc, Nat.toString_eq_repr, Nat.toList_repr]
    at hlist
  have hdigits := eq_of_append_cons_eq Nat.underscore_not_in_toDigits
    Nat.underscore_not_in_toDigits hlist
  have hvalue := congrArg (Nat.ofDigitChars 10 · 0) hdigits
  simpa only [Nat.ofDigitChars_ten_toDigits] using hvalue

/-! ## The invariant -/

/-- Every entity's node identifier leads back to its qualified name, and so does every identifier
that is kept for a pair of names. -/
structure Identified (r : Registry) : Prop where
  entity : ∀ {q e}, r.get? q = some e → r.nodeTarget? e.nodeId = some q
  pair : ∀ {name q id}, r.nodeIds.lookup (name, q) = some id → r.nodeTarget? id = some q
  numbered : ∀ {id q}, r.nodeTarget? id = some q →
    ∃ s n, id = nodeName s ++ "_" ++ toString n ∧ n < r.nextNumber

theorem identified_empty : Identified .empty :=
  ⟨by simp, by simp [Registry.empty], by simp [Registry.empty, nodeTarget?]⟩

/-- Entities with one node identifier have one qualified name. -/
theorem Identified.qualifiedName_eq {r : Registry} (hr : Identified r) {p q : String}
    {e f : Entity} (he : r.get? p = some e) (hf : r.get? q = some f) (h : e.nodeId = f.nodeId) :
    p = q := by
  have htarget := hr.entity he
  rw [h, hr.entity hf] at htarget
  exact (Option.some.inj htarget).symm

/-- No identifier has the next number. -/
theorem Identified.fresh {r : Registry} (hr : Identified r) (s : String) :
    r.nodeTarget? (nodeName s ++ "_" ++ toString r.nextNumber) = none := by
  cases h : r.nodeTarget? (nodeName s ++ "_" ++ toString r.nextNumber) with
  | none => rfl
  | some q =>
    obtain ⟨s', n, heq, hlt⟩ := hr.numbered h
    have := number_inj heq
    omega

/-- A request for a node identifier is answered with one that leads to the qualified name; the
others lead where they led. -/
theorem Identified.nodeIdFor {r : Registry} (hr : Identified r) (name q : String) :
    Identified (r.nodeIdFor name q).2 ∧
      (r.nodeIdFor name q).2.nodeTarget? (r.nodeIdFor name q).1 = some q ∧
      ∀ {id p}, r.nodeTarget? id = some p → (r.nodeIdFor name q).2.nodeTarget? id = some p := by
  unfold Registry.nodeIdFor
  cases hlookup : r.nodeIds.lookup (name, q) with
  | some id => exact ⟨hr, hr.pair hlookup, fun h => h⟩
  | none =>
    -- The new identifier ends with a number that no other one has.
    have hfresh := hr.fresh name
    generalize hid : nodeName name ++ "_" ++ toString r.nextNumber = id at hfresh
    let r' : Registry :=
      { r with
        nodeIds := ((name, q), id) :: r.nodeIds
        nodeTargets := (id, q) :: r.nodeTargets
        nextNumber := r.nextNumber + 1 }
    have htarget (id' : String) :
        r'.nodeTarget? id' = if id' = id then some q else r.nodeTarget? id' :=
      Entries.lookup_cons id' (id, q) r.nodeTargets
    have hkept {id' p : String} (h : r.nodeTarget? id' = some p) :
        r'.nodeTarget? id' = some p := by
      have hne : id' ≠ id := by
        rintro rfl
        rw [hfresh] at h
        cases h
      rw [htarget, if_neg hne, h]
    have hnew : r'.nodeTarget? id = some q := by rw [htarget, if_pos rfl]
    refine ⟨⟨fun {p e} he => hkept (hr.entity he), fun {name' p id'} hp => ?_,
      fun {id' p} hp => ?_⟩, hnew, hkept⟩
    · have hlookup' : r'.nodeIds.lookup (name', p) = some id' := hp
      by_cases heq : (name', p) = (name, q)
      · have hself : r'.nodeIds.lookup (name, q) = some id := List.lookup_cons_self
        rw [heq, hself] at hlookup'
        rw [← Option.some.inj hlookup', (Prod.mk.inj heq).2]
        exact hnew
      · have hrest : r'.nodeIds.lookup (name', p) = r.nodeIds.lookup (name', p) := by
          show List.lookup (name', p) (((name, q), id) :: r.nodeIds) = _
          rw [List.lookup_cons, beq_false_of_ne heq]
        exact hkept (hr.pair (hrest.symm.trans hlookup'))
    · have hp' : r'.nodeTarget? id' = some p := hp
      rw [htarget] at hp'
      split at hp'
      · rename_i heq
        exact ⟨name, r.nextNumber, by rw [heq, hid], Nat.lt_succ_self _⟩
      · obtain ⟨s, n, hs, hlt⟩ := hr.numbered hp'
        exact ⟨s, n, hs, Nat.lt_succ_of_lt hlt⟩

/-- The invariant is kept by what leaves the identifiers alone and gives every entity one that leads
to its name. -/
theorem Identified.of_get? {r r' : Registry} (hr : Identified r)
    (hentity : ∀ {q e}, r'.get? q = some e → r.nodeTarget? e.nodeId = some q)
    (hids : r'.nodeIds = r.nodeIds) (htargets : r'.nodeTargets = r.nodeTargets)
    (hnumber : r'.nextNumber = r.nextNumber) : Identified r' := by
  have htarget (id : String) : r'.nodeTarget? id = r.nodeTarget? id := by
    unfold nodeTarget?
    rw [htargets]
  refine ⟨fun he => ?_, fun h => ?_, fun h => ?_⟩
  · rw [htarget]
    exact hentity he
  · rw [htarget]
    rw [hids] at h
    exact hr.pair h
  · rw [htarget] at h
    rw [hnumber]
    exact hr.numbered h

/-! ## What keeps it -/

theorem Declares.identified {r r' : Registry} {entity : Entity} (h : Declares r entity r')
    (hr : Identified r) (hentity : r.nodeTarget? entity.nodeId = some entity.qualifiedName) :
    Identified r' := by
  refine hr.of_get? (fun {q e} he => ?_) h.nodeIds h.nodeTargets h.nextNumber
  rw [h.get?] at he
  split at he
  · rename_i heq
    rw [← Option.some.inj he, heq]
    exact hentity
  · exact hr.entity he

theorem Identified.placeholder {r : Registry} (hr : Identified r)
    (ownerId reference source : String) :
    Identified (r.placeholder ownerId reference source).2 := by
  cases h : r.get? (placeholderName ownerId reference) with
  | some found =>
    rw [placeholder_of_present h]
    exact hr
  | none =>
    obtain ⟨hids, hnew, -⟩ := hr.nodeIdFor reference (placeholderName ownerId reference)
    exact (declares_placeholder h source).identified hids hnew

theorem Identified.setArtifact {r : Registry} (hr : Identified r)
    (qualifiedName artifact : String) : Identified (r.setArtifact qualifiedName artifact) := by
  refine hr.of_get? (fun {q e} he => ?_) rfl rfl rfl
  rw [get?_setArtifact] at he
  split at he
  · obtain ⟨e', he', rfl⟩ := Option.map_eq_some_iff.1 he
    show r.nodeTarget? e'.nodeId = some q
    exact hr.entity he'
  · exact hr.entity he

theorem identified_declare {d : Declarations} (h : d.registry.Identified) (site : DeclarationSite)
    (name : String) (kind : EntityKind) (rpc : Option RpcSignature) :
    (d.declare site name kind rpc).2.registry.Identified := by
  obtain ⟨hids, hnew, -⟩ := h.nodeIdFor name (Name.qualify site.scope name)
  rcases Declarations.declare_cases d site name kind rpc with ⟨-, -, hreg⟩ | ⟨-, -, hok⟩
  · rw [hreg]
    exact hids
  · exact (declares_of_declare hok).identified hids hnew

theorem Identified.declareFile {r : Registry} (h : r.Identified) (source : String)
    (file : SchemaFile) : (r.declareFile source file).2.Identified := by
  obtain ⟨d, hsteps, hreg⟩ := r.declareFile_steps source file
  rw [hreg]
  exact hsteps.induction (P := fun d => d.registry.Identified)
    (fun d site name kind rpc hd => identified_declare hd site name kind rpc) h

end SchemaGraph.Registry
