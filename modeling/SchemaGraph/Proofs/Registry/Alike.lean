import SchemaGraph.Proofs.Binding.LexicalScope
import SchemaGraph.Proofs.Registry.Winners
/-!
# Registries that declare the same

Two registries may hold the same declarations under other node identifiers, and list them in another
order under their short names. `Registry.Alike` relates them: it follows when both hold the same
winners (`Takes.alike`), and it is enough for references to be bound alike (`Alike.bind_eq`).
-/

namespace SchemaGraph

/-- What a registry keeps of a declaration, apart from the node identifier. -/
def Winner.declaration (w : Winner) : Entity :=
  { qualifiedName := w.qualifiedName, name := w.name, kind := w.kind, nodeId := "",
    source := w.source, parent := w.parent, artifact := none, rpc := w.rpc }

theorem Winner.Describes.declaration_eq {w : Winner} {e : Entity} (h : w.Describes e)
    (hname : e.qualifiedName = w.qualifiedName) : e.declaration = w.declaration := by
  unfold Entity.declaration Winner.declaration
  rw [hname, h.name, h.kind, h.source, h.parent, h.rpc]

namespace Registry

/-- Both registries hold the same declarations. -/
def Alike (r r' : Registry) : Prop :=
  ∀ q, (r.get? q).map Entity.declaration = (r'.get? q).map Entity.declaration

variable {r r' : Registry}

theorem Alike.symm (h : r.Alike r') : r'.Alike r :=
  fun q => (h q).symm

theorem Alike.isSome_iff (h : r.Alike r') (q : String) :
    (r.get? q).isSome ↔ (r'.get? q).isSome := by
  have hq := congrArg Option.isSome (h q)
  rw [Option.isSome_map, Option.isSome_map] at hq
  rw [hq]

/-- A registry without entities before and the same winners afterwards. -/
theorem Takes.alike {ws ws' : List Winner} (h : Takes .empty ws r) (h' : Takes .empty ws' r')
    (hr : r.Indexed) (hr' : r'.Indexed) (hmem : ∀ w, w ∈ ws ↔ w ∈ ws') : r.Alike r' := by
  intro q
  cases hq : r.get? q with
  | none =>
    cases hq' : r'.get? q with
    | none => rfl
    | some e' =>
      obtain ⟨w, hw, rfl, -⟩ := h'.exists_winner hq'
      have hsome := (h.get?_isSome w.qualifiedName).2 ⟨w, (hmem w).2 hw, rfl⟩
      rw [hq] at hsome
      cases hsome
  | some e =>
    obtain ⟨w, hw, rfl, hdescribes⟩ := h.exists_winner hq
    obtain ⟨-, e', hq', hdescribes'⟩ := h'.won w ((hmem w).1 hw)
    rw [hq', Option.map_some, Option.map_some, hdescribes.declaration_eq (hr.stored hq),
      hdescribes'.declaration_eq (hr'.stored hq')]

/-! ## Bindings -/

theorem Alike.type?_declaration (h : r.Alike r') (q : String) :
    (r.type? q).map Entity.declaration = (r'.type? q).map Entity.declaration := by
  have hfilter (r : Registry) : (r.type? q).map Entity.declaration =
      ((r.get? q).map Entity.declaration).filter (·.kind.isType) := by
    unfold type?
    cases r.get? q with
    | none => rfl
    | some e =>
      show (Option.filter _ (some e)).map _ = Option.filter _ (some e.declaration)
      rw [Option.filter_some, Option.filter_some]
      show (if e.kind.isType then some e else none).map _ = if e.kind.isType then _ else _
      split <;> rfl
  rw [hfilter, hfilter, h q]

/-- The candidates of a short name have the same declarations, each of them once. -/
theorem Alike.typeCandidates_perm (h : r.Alike r') (hr : r.Indexed) (hr' : r'.Indexed)
    (s : String) : ((r.typeCandidates s).map Entity.declaration).Perm
      ((r'.typeCandidates s).map Entity.declaration) := by
  have hnodup {r : Registry} (hr : r.Indexed) :
      ((r.typeCandidates s).map Entity.declaration).Nodup := by
    refine List.Nodup.map_on (fun e he f hf heq => ?_) (typeCandidates_nodup hr s)
    have hname : e.qualifiedName = f.qualifiedName := congrArg (·.qualifiedName) heq
    have htype := ((mem_typeCandidates hr s e).1 he).1
    rw [hname, ((mem_typeCandidates hr s f).1 hf).1] at htype
    exact (Option.some.inj htype).symm
  have hsub {r r' : Registry} (h : r.Alike r') (hr : r.Indexed) (hr' : r'.Indexed) {d : Entity}
      (hd : d ∈ (r.typeCandidates s).map Entity.declaration) :
      d ∈ (r'.typeCandidates s).map Entity.declaration := by
    obtain ⟨e, he, rfl⟩ := List.mem_map.1 hd
    obtain ⟨htype, hname⟩ := (mem_typeCandidates hr s e).1 he
    have halike := h.type?_declaration e.qualifiedName
    rw [htype] at halike
    obtain ⟨e', htype', hsame⟩ := Option.map_eq_some_iff.1 halike.symm
    have hq : e'.qualifiedName = e.qualifiedName := congrArg (·.qualifiedName) hsame
    have hname' : e'.name = e.name := congrArg (·.name) hsame
    exact List.mem_map.2
      ⟨e', (mem_typeCandidates hr' s e').2 ⟨hq ▸ htype', hname'.trans hname⟩, hsame⟩
  exact (List.perm_ext_iff_of_nodup (hnodup hr) (hnodup hr')).2 fun d =>
    ⟨hsub h hr hr', hsub h.symm hr' hr⟩

/-- Registries that declare the same bind every reference to the same entity. -/
theorem Alike.bind_eq (h : r.Alike r') (hr : r.Indexed) (hr' : r'.Indexed)
    (scope reference : String) : r.bind scope reference = r'.bind scope reference :=
  bind_congr h.type?_declaration (h.typeCandidates_perm hr hr') scope reference

end Registry
end SchemaGraph
