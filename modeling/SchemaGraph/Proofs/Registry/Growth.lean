import SchemaGraph.Proofs.Registry.Identity
/-!
# Registries only grow

After the declarations of all files a registry is changed in two ways only: entities get their drawn
fragments, and placeholders are added. `Registry.Grows` relates the registries before and after, and
`Coherent` are the invariants of a single one.
-/

namespace SchemaGraph

/-- The entity without its drawn fragment. -/
def Entity.undrawn (e : Entity) : Entity :=
  { e with artifact := none }

/-- What has not been drawn is without its fragment as it is. -/
theorem Entity.undrawn_eq_self {e : Entity} (h : e.artifact = none) : e.undrawn = e := by
  cases e
  simp only at h
  rw [h]
  rfl

/-- Entities that differ in their drawn fragments only. -/
theorem Entity.eq_of_undrawn {e f : Entity} (h : e.undrawn = f.undrawn) :
    e = { f with artifact := e.artifact } := by
  cases e
  cases f
  simp_all [undrawn]

theorem Entity.kind_eq_of_undrawn {e f : Entity} (h : e.undrawn = f.undrawn) : e.kind = f.kind := by
  rw [eq_of_undrawn h]

/-- What has been declared of an entity: all but its node identifier and its drawn fragment. -/
def Entity.declaration (e : Entity) : Entity :=
  { e with nodeId := "", artifact := none }

theorem Entity.declaration_eq_of_undrawn {e f : Entity} (h : e.undrawn = f.undrawn) :
    e.declaration = f.declaration := by
  rw [eq_of_undrawn h]
  rfl

namespace Registry

/-- `r.Grows r'`: the entities of `r` are in `r'`, drawn or not, with the same index, and the other
ones of `r'` are placeholders. -/
structure Grows (r r' : Registry) : Prop where
  candidates : ∀ s, r'.candidates s = r.candidates s
  kept : ∀ {q e}, r.get? q = some e → ∃ e', r'.get? q = some e' ∧ e'.undrawn = e.undrawn
  added : ∀ {q e'}, r.get? q = none → r'.get? q = some e' → e'.kind = .missing

theorem Grows.refl (r : Registry) : Grows r r :=
  ⟨fun _ => rfl, fun h => ⟨_, h, rfl⟩, fun h h' => by simp [h] at h'⟩

theorem Grows.trans {r r' r'' : Registry} (h : Grows r r') (h' : Grows r' r'') : Grows r r'' := by
  refine ⟨fun s => (h'.candidates s).trans (h.candidates s), fun he => ?_,
    fun {q e''} hq he'' => ?_⟩
  · obtain ⟨e', he', hundrawn⟩ := h.kept he
    obtain ⟨e'', he'', hundrawn'⟩ := h'.kept he'
    exact ⟨e'', he'', hundrawn'.trans hundrawn⟩
  · cases hq' : r'.get? q with
    | none => exact h'.added hq' he''
    | some e' =>
      obtain ⟨f, hf, hundrawn⟩ := h'.kept hq'
      rw [he''] at hf
      obtain rfl := Option.some.inj hf
      have hkind := h.added hq hq'
      rw [Entity.eq_of_undrawn hundrawn]
      exact hkind

theorem Grows.isSome {r r' : Registry} (h : Grows r r') {q : String} (hq : (r.get? q).isSome) :
    (r'.get? q).isSome := by
  obtain ⟨e, he⟩ := Option.isSome_iff_exists.1 hq
  obtain ⟨e', he', -⟩ := h.kept he
  exact Option.isSome_iff_exists.2 ⟨e', he'⟩

/-- What is not a placeholder has been there from the start. -/
theorem Grows.declared {r r' : Registry} (h : r.Grows r') {q : String} {e' : Entity}
    (he' : r'.get? q = some e') (hkind : e'.kind ≠ .missing) :
    ∃ e, r.get? q = some e ∧ e'.undrawn = e.undrawn := by
  cases hq : r.get? q with
  | none => exact absurd (h.added hq he') hkind
  | some e =>
    obtain ⟨f, hf, hundrawn⟩ := h.kept hq
    rw [he'] at hf
    exact ⟨e, rfl, Option.some.inj hf ▸ hundrawn⟩

/-- An entity keeps its node identifier. -/
theorem Grows.nodeId_eq {r r' : Registry} (h : Grows r r') {q : String} {e e' : Entity}
    (he : r.get? q = some e) (he' : r'.get? q = some e') : e'.nodeId = e.nodeId := by
  obtain ⟨f, hf, hundrawn⟩ := h.kept he
  rw [he'] at hf
  rw [Option.some.inj hf, Entity.eq_of_undrawn hundrawn]

theorem grows_setArtifact (r : Registry) (qualifiedName artifact : String) :
    Grows r (r.setArtifact qualifiedName artifact) := by
  have hget (q : String) := get?_setArtifact r qualifiedName artifact q
  refine ⟨fun s => candidates_setArtifact r qualifiedName artifact s, fun {q e} he => ?_,
    fun {q e'} hq he' => ?_⟩
  · rw [hget, he]
    split
    · exact ⟨_, rfl, rfl⟩
    · exact ⟨_, rfl, rfl⟩
  · rw [hget, hq] at he'
    split at he' <;> simp at he'

theorem grows_placeholder (r : Registry) (ownerId reference source : String) :
    Grows r (r.placeholder ownerId reference source).2 := by
  have hget (q : String) := get?_placeholder r ownerId reference source q
  refine ⟨fun s => candidates_placeholder r ownerId reference source s, fun {q e} he => ?_,
    fun {q e'} hq he' => ?_⟩
  · rw [hget]
    split
    · rename_i heq
      rw [heq] at he
      rw [placeholder_of_present he]
      exact ⟨e, rfl, rfl⟩
    · exact ⟨e, he, rfl⟩
  · rw [hget] at he'
    split at he'
    · rename_i heq
      rw [heq] at hq
      rw [placeholder_of_absent hq] at he'
      rw [← Option.some.inj he']
      rfl
    · simp [hq] at he'

/-- The invariants of a registry: its entities stand under their names in the index, and their node
identifiers lead back to them. -/
structure Coherent (r : Registry) : Prop where
  indexed : r.Indexed
  identified : r.Identified

theorem Coherent.placeholder {r : Registry} (hr : Coherent r) (ownerId reference source : String) :
    Coherent (r.placeholder ownerId reference source).2 :=
  ⟨hr.indexed.placeholder .., hr.identified.placeholder ..⟩

theorem Coherent.setArtifact {r : Registry} (hr : Coherent r) (qualifiedName artifact : String) :
    Coherent (r.setArtifact qualifiedName artifact) :=
  ⟨hr.indexed.setArtifact .., hr.identified.setArtifact ..⟩

theorem coherent_declareFiles (files : List (String × SchemaFile)) :
    Coherent (Registry.empty.declareFiles files) := by
  have hall (r : Registry) (hreachable : r.Reachable) (hids : r.Identified) :
      (r.declareFiles files).Reachable ∧ (r.declareFiles files).Identified := by
    induction files generalizing r with
    | nil => exact ⟨hreachable, hids⟩
    | cons file files ih =>
      exact ih _ (hreachable.declareFile file.1 file.2) (hids.declareFile file.1 file.2)
  obtain ⟨hreachable, hids⟩ := hall .empty .empty identified_empty
  exact ⟨hreachable.indexed, hids⟩

end Registry
end SchemaGraph
