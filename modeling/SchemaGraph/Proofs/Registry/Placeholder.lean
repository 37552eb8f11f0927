import SchemaGraph.Proofs.Registry.Growth
/-!
# Names of placeholders

The name of a placeholder tells its owner and its reference apart, because node identifiers hold no
dot (`placeholderName_inj`). Whether it is also the name of a declared entity is another matter:
`Reserves` says for one owner and one reference that nothing else has the name of their placeholder,
`Distinguishes` that nothing has such a name yet, and `SparesPlaceholders` that no name starts like
one.
-/

namespace SchemaGraph.Registry

/-- No entity has a name that starts like those of placeholders. -/
def SparesPlaceholders (r : Registry) : Prop :=
  ∀ q, (r.get? q).isSome → ¬ "missing.".toList <+: q.toList

theorem sparesPlaceholders_iff {r : Registry} :
    r.SparesPlaceholders ↔ ∀ q ∈ r.entities.keys, ¬ "missing.".toList <+: q.toList := by
  unfold SparesPlaceholders get?
  simp only [Table.mem_keys]

theorem SparesPlaceholders.get?_eq_none {r : Registry} (h : r.SparesPlaceholders)
    (ownerId reference : String) : r.get? (placeholderName ownerId reference) = none := by
  refine Option.not_isSome_iff_eq_none.1 fun hsome => h _ hsome ?_
  refine ⟨ownerId.toList ++ ".".toList ++ reference.toList, ?_⟩
  simp [placeholderName]

/-- No entity has the name of a placeholder inside another one. -/
def Distinguishes (r : Registry) : Prop :=
  ∀ p owner reference, r.get? p = some owner →
    r.get? (placeholderName owner.nodeId reference) = none

theorem SparesPlaceholders.distinguishes {r : Registry} (h : r.SparesPlaceholders) :
    r.Distinguishes :=
  fun _ owner reference _ => h.get?_eq_none owner.nodeId reference

/-- Nothing but the placeholder for a reference inside an owner has its name. -/
def Reserves (r : Registry) (ownerId reference : String) : Prop :=
  ∀ e, r.get? (placeholderName ownerId reference) = some e → e.kind = .missing ∧ e.name = reference

/-- What is answered as the placeholder under a reserved name is the placeholder. -/
theorem Reserves.placeholder {r : Registry} {ownerId reference : String}
    (h : r.Reserves ownerId reference) (source : String) :
    (r.placeholder ownerId reference source).1.kind = .missing ∧
      (r.placeholder ownerId reference source).1.name = reference := by
  cases hfound : r.get? (placeholderName ownerId reference) with
  | some found =>
    rw [placeholder_of_present hfound]
    exact h found hfound
  | none =>
    rw [placeholder_of_absent hfound]
    exact ⟨rfl, rfl⟩

/-- The identifier of a node is made of letters, digits and underscores. -/
theorem Identified.dot_not_mem {r : Registry} (hr : r.Identified) {q : String} {e : Entity}
    (he : r.get? q = some e) : '.' ∉ e.nodeId.toList := by
  obtain ⟨s, n, hid, -⟩ := hr.numbered (hr.entity he)
  have hname : '.' ∉ (nodeName s).toList := by
    unfold nodeName
    rw [String.toList_ofList, List.mem_map]
    rintro ⟨c, -, hc⟩
    split at hc
    · rename_i hnode
      rw [hc] at hnode
      exact absurd hnode (by decide)
    · exact absurd hc (by decide)
  have hnumber : '.' ∉ Nat.toDigits 10 n := fun hmem =>
    absurd (Nat.isDigit_of_mem_toDigits (by decide) (by decide) hmem) (by decide)
  rw [hid, String.toList_append, String.toList_append]
  simp [hname, hnumber]

/-- What stands before the first dot is determined by the whole. -/
theorem eq_of_append_dot_eq {as as' bs bs' : List Char} (has : '.' ∉ as) (has' : '.' ∉ as')
    (h : as ++ '.' :: bs = as' ++ '.' :: bs') : as = as' ∧ bs = bs' := by
  have hbefore (xs ys : List Char) (hxs : '.' ∉ xs) :
      (xs ++ '.' :: ys).takeWhile (· ≠ '.') = xs := by
    rw [List.takeWhile_append_of_pos, List.takeWhile_cons_of_neg (by simp), List.append_nil]
    intro c hc
    have hne : c ≠ '.' := fun heq => hxs (heq ▸ hc)
    simpa using hne
  have heq := hbefore as bs has
  rw [h, hbefore as' bs' has'] at heq
  subst heq
  exact ⟨rfl, List.cons.inj (List.append_cancel_left h) |>.2⟩

theorem placeholderName_inj {id id' reference reference' : String} (hid : '.' ∉ id.toList)
    (hid' : '.' ∉ id'.toList)
    (h : placeholderName id reference = placeholderName id' reference') :
    id = id' ∧ reference = reference' := by
  have hlist := congrArg String.toList h
  simp only [placeholderName, String.toList_append, List.append_assoc] at hlist
  have htail := List.append_cancel_left hlist
  obtain ⟨hids, hreferences⟩ := eq_of_append_dot_eq hid hid' htail
  exact ⟨String.toList_inj.1 hids, String.toList_inj.1 hreferences⟩

end SchemaGraph.Registry
