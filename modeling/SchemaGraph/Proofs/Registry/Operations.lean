import SchemaGraph.Registry.Declare
import SchemaGraph.Proofs.Table.Lookup
/-!
# What the operations of a registry do

For each operation one lemma says what it does to the entities (`get?`) and one what it does to the
index of short names (`candidates`). A registry is `Reachable` when operations lead to it from the
empty one. `Reachable.indexed` is the invariant that carries the index: a short name lists, each
once, exactly the qualified names of the entities that have it and are no placeholders.
-/

namespace SchemaGraph.Registry

/-! ## Single operations -/

@[simp] theorem get?_empty (q : String) : Registry.empty.get? q = none :=
  rfl

@[simp] theorem candidates_empty (s : String) : Registry.empty.candidates s = [] :=
  rfl

/-- What a declaration does that is not rejected. -/
structure Declares (r : Registry) (entity : Entity) (r' : Registry) : Prop where
  absent : r.get? entity.qualifiedName = none
  get? : ∀ q, r'.get? q = if q = entity.qualifiedName then some entity else r.get? q
  candidates : ∀ s, r'.candidates s =
    if s = entity.name ∧ entity.kind ≠ .missing then r.candidates s ++ [entity.qualifiedName]
    else r.candidates s
  nodeIds : r'.nodeIds = r.nodeIds
  nodeTargets : r'.nodeTargets = r.nodeTargets
  nextNumber : r'.nextNumber = r.nextNumber

theorem declares_of_declare {r r' : Registry} {entity : Entity}
    (h : r.declare entity = .ok r') : Declares r entity r' := by
  unfold declare at h
  cases hget : r.get? entity.qualifiedName with
  | some found => simp [hget] at h
  | none =>
    simp only [hget, Except.ok.injEq] at h
    subst h
    refine ⟨hget, fun q => Table.get?_insert .., fun s => ?_, rfl, rfl, rfl⟩
    unfold candidates
    by_cases hkind : entity.kind = .missing
    · simp [hkind]
    · simp only [if_neg hkind, Table.get?_alter]
      by_cases hs : s = entity.name <;> simp [hs, hkind]

/-- A declaration is rejected just when its qualified name is taken. -/
theorem declare_of_absent {r : Registry} {entity : Entity}
    (h : r.get? entity.qualifiedName = none) : ∃ r', r.declare entity = .ok r' := by
  unfold declare
  rw [h]
  exact ⟨_, rfl⟩

theorem declare_of_present {r : Registry} {entity found : Entity}
    (h : r.get? entity.qualifiedName = some found) :
    r.declare entity = .error ⟨entity.qualifiedName, found.source⟩ := by
  unfold declare
  rw [h]

@[simp] theorem entities_nodeIdFor (r : Registry) (shortName qualifiedName : String) :
    (r.nodeIdFor shortName qualifiedName).2.entities = r.entities := by
  unfold nodeIdFor
  split <;> rfl

@[simp] theorem get?_nodeIdFor (r : Registry) (shortName qualifiedName q : String) :
    (r.nodeIdFor shortName qualifiedName).2.get? q = r.get? q := by
  simp [get?]

@[simp] theorem candidates_nodeIdFor (r : Registry) (shortName qualifiedName s : String) :
    (r.nodeIdFor shortName qualifiedName).2.candidates s = r.candidates s := by
  unfold nodeIdFor
  split <;> rfl

theorem get?_setArtifact (r : Registry) (qualifiedName artifact q : String) :
    (r.setArtifact qualifiedName artifact).get? q =
      if q = qualifiedName then (r.get? q).map fun e => { e with artifact := some artifact }
      else r.get? q :=
  Table.get?_modify ..

@[simp] theorem candidates_setArtifact (r : Registry) (qualifiedName artifact s : String) :
    (r.setArtifact qualifiedName artifact).candidates s = r.candidates s :=
  rfl

/-- A placeholder that is there already is answered again, and nothing changes. -/
theorem placeholder_of_present {r : Registry} {ownerId reference : String} {found : Entity}
    (h : r.get? (placeholderName ownerId reference) = some found) (source : String) :
    r.placeholder ownerId reference source = (found, r) := by
  simp only [placeholder, h]

/-- The entity that a new placeholder is. -/
def newPlaceholder (r : Registry) (ownerId reference source : String) : Entity :=
  { qualifiedName := placeholderName ownerId reference
    name := reference
    kind := .missing
    nodeId := (r.nodeIdFor reference (placeholderName ownerId reference)).1
    source
    parent := none
    artifact := none
    rpc := none }

theorem placeholder_of_absent {r : Registry} {ownerId reference : String}
    (h : r.get? (placeholderName ownerId reference) = none) (source : String) :
    r.placeholder ownerId reference source =
      (r.newPlaceholder ownerId reference source,
        { (r.nodeIdFor reference (placeholderName ownerId reference)).2 with
          entities := r.entities.insert (placeholderName ownerId reference)
            (r.newPlaceholder ownerId reference source) }) := by
  simp only [placeholder, h, newPlaceholder, entities_nodeIdFor]

theorem get?_placeholder (r : Registry) (ownerId reference source q : String) :
    (r.placeholder ownerId reference source).2.get? q =
      if q = placeholderName ownerId reference then
        some (r.placeholder ownerId reference source).1
      else r.get? q := by
  cases h : r.get? (placeholderName ownerId reference) with
  | some found =>
    rw [placeholder_of_present h]
    split <;> simp_all
  | none =>
    rw [placeholder_of_absent h]
    exact Table.get?_insert ..

@[simp] theorem candidates_placeholder (r : Registry) (ownerId reference source s : String) :
    (r.placeholder ownerId reference source).2.candidates s = r.candidates s := by
  cases h : r.get? (placeholderName ownerId reference) with
  | some found => rw [placeholder_of_present h]
  | none =>
    rw [placeholder_of_absent h]
    exact candidates_nodeIdFor r reference _ s

/-- A new placeholder is declared like any other entity, once its node identifier is given out. -/
theorem declares_placeholder {r : Registry} {ownerId reference : String}
    (h : r.get? (placeholderName ownerId reference) = none) (source : String) :
    Declares (r.nodeIdFor reference (placeholderName ownerId reference)).2
      (r.newPlaceholder ownerId reference source) (r.placeholder ownerId reference source).2 := by
  rw [placeholder_of_absent h]
  refine ⟨by rwa [get?_nodeIdFor], fun q => ?_, fun s => ?_, rfl, rfl, rfl⟩
  · rw [get?_nodeIdFor]
    exact Table.get?_insert ..
  · simp [candidates, newPlaceholder]

/-! ## Registries that operations lead to -/

/-- `r.Reachable`: operations lead from the empty registry to `r`, with any arguments and in any
order. -/
inductive Reachable : Registry → Prop where
  | empty : Reachable .empty
  | declare {r r' : Registry} {entity : Entity} (h : Reachable r)
      (hok : r.declare entity = .ok r') : Reachable r'
  | nodeIdFor {r : Registry} (h : Reachable r) (shortName qualifiedName : String) :
      Reachable (r.nodeIdFor shortName qualifiedName).2
  | placeholder {r : Registry} (h : Reachable r) (ownerId reference source : String) :
      Reachable (r.placeholder ownerId reference source).2
  | setArtifact {r : Registry} (h : Reachable r) (qualifiedName artifact : String) :
      Reachable (r.setArtifact qualifiedName artifact)

/-- The entities stand under their own names, and the index lists those that are no placeholders. -/
structure Indexed (r : Registry) : Prop where
  stored : ∀ {q e}, r.get? q = some e → e.qualifiedName = q
  mem_candidates : ∀ s q, q ∈ r.candidates s ↔
    ∃ e, r.get? q = some e ∧ e.kind ≠ .missing ∧ e.name = s
  nodup : ∀ s, (r.candidates s).Nodup

theorem indexed_empty : Indexed .empty :=
  ⟨by simp, by simp, by simp⟩

theorem Declares.indexed {r r' : Registry} {entity : Entity} (h : Declares r entity r')
    (hr : Indexed r) : Indexed r' := by
  have hnew (s : String) : entity.qualifiedName ∉ r.candidates s := by
    intro hmem
    obtain ⟨e, he, -⟩ := (hr.mem_candidates s _).1 hmem
    simp [h.absent] at he
  refine ⟨fun {q e} he => ?_, fun s q => ?_, fun s => ?_⟩
  · rw [h.get?] at he
    split at he
    · simp_all
    · exact hr.stored he
  · rw [h.candidates, h.get?]
    by_cases hq : q = entity.qualifiedName
    · subst hq
      by_cases hs : s = entity.name ∧ entity.kind ≠ .missing
      · rw [if_pos hs, if_pos rfl]
        simp [hs.1, hs.2]
      · rw [if_neg hs, if_pos rfl]
        simp only [hnew s, Option.some.injEq, exists_eq_left', false_iff]
        exact fun hk => hs ⟨hk.2.symm, hk.1⟩
    · rw [if_neg hq, ← hr.mem_candidates s q]
      split <;> simp [hq]
  · rw [h.candidates]
    split
    · exact List.nodup_append.2 ⟨hr.nodup s, List.nodup_singleton _, by
        rintro a ha b hb rfl
        rw [List.mem_singleton] at hb
        exact hnew s (hb ▸ ha)⟩
    · exact hr.nodup s

/-- What keeps the index and every entity but its drawn fragment, and adds placeholders only under
their own names, keeps the invariant. -/
theorem Indexed.of_get? {r r' : Registry} (hr : Indexed r)
    (hcandidates : ∀ s, r'.candidates s = r.candidates s)
    (hstored : ∀ {q e}, r'.get? q = some e → e.qualifiedName = q)
    (hget : ∀ q s, (∃ e, r'.get? q = some e ∧ e.kind ≠ .missing ∧ e.name = s) ↔
      ∃ e, r.get? q = some e ∧ e.kind ≠ .missing ∧ e.name = s) : Indexed r' := by
  refine ⟨hstored, fun s q => ?_, fun s => ?_⟩
  · rw [hcandidates, hr.mem_candidates, hget]
  · rw [hcandidates]
    exact hr.nodup s

theorem Indexed.nodeIdFor {r : Registry} (hr : Indexed r) (shortName qualifiedName : String) :
    Indexed (r.nodeIdFor shortName qualifiedName).2 :=
  hr.of_get? (by simp) (fun h => hr.stored (by simpa using h)) (by simp)

theorem Indexed.placeholder {r : Registry} (hr : Indexed r) (ownerId reference source : String) :
    Indexed (r.placeholder ownerId reference source).2 := by
  cases h : r.get? (placeholderName ownerId reference) with
  | some found =>
    rw [placeholder_of_present h]
    exact hr
  | none => exact (declares_placeholder h source).indexed (hr.nodeIdFor reference _)

theorem Indexed.setArtifact {r : Registry} (hr : Indexed r) (qualifiedName artifact : String) :
    Indexed (r.setArtifact qualifiedName artifact) := by
  refine hr.of_get? (by simp) (fun {q e} he => ?_) fun q s => ?_
  · rw [get?_setArtifact] at he
    split at he
    · obtain ⟨e', he', rfl⟩ := Option.map_eq_some_iff.1 he
      show e'.qualifiedName = q
      exact hr.stored he'
    · exact hr.stored he
  · rw [get?_setArtifact]
    split
    · cases r.get? q <;> simp
    · rfl

/-- Every reachable registry is indexed. -/
theorem Reachable.indexed {r : Registry} (h : r.Reachable) : Indexed r := by
  induction h with
  | empty => exact indexed_empty
  | declare _ hok ih => exact (declares_of_declare hok).indexed ih
  | nodeIdFor _ shortName qualifiedName ih => exact ih.nodeIdFor shortName qualifiedName
  | placeholder _ ownerId reference source ih => exact ih.placeholder ownerId reference source
  | setArtifact _ qualifiedName artifact ih => exact ih.setArtifact qualifiedName artifact

end SchemaGraph.Registry
