import Mathlib.Algebra.Ring.Nat
import Mathlib.Data.List.Nodup
import SchemaGraph.Table
/-!
# What a table holds

A table is determined by what it answers: `get?_ext` makes two tables with the same answers equal,
and `mem_entries` says that an entry is the same thing as an answer. The other lemmas give the
answers after `modify` and `ofList`, and the members of `sortDistinct`.
-/

namespace SchemaGraph

variable {κ : Type} {α : Type}

/-- A list without repetition whose only member is `a` is that member alone. -/
theorem eq_singleton_of_nodup {xs : List α} {a : α} (hnd : xs.Nodup) (h : ∀ x, x ∈ xs ↔ x = a) :
    xs = [a] := by
  have hperm : xs.Perm [a] :=
    (List.perm_ext_iff_of_nodup hnd (List.nodup_singleton a)).2 (by simpa using h)
  exact List.perm_singleton.1 hperm

theorem KeyOrder.ne_of_lt [LT κ] [KeyOrder κ] {a b : κ} (h : a < b) : a ≠ b := by
  intro heq
  subst heq
  exact KeyOrder.lt_irrefl a h

namespace Table

theorem total_eq_sum [LT κ] (t : Table κ α) (measure : α → Nat) :
    t.total measure = (t.values.map measure).sum := by
  unfold total values
  rw [List.map_map, List.sum, List.foldr_map]
  rfl

variable [LT κ] [KeyOrder κ]

/-- Later entries have greater keys, so a key stands in one entry only. -/
theorem eq_of_mem_of_key_eq {t : Table κ α} {a b : κ × α} (ha : a ∈ t.entries)
    (hb : b ∈ t.entries) (h : a.1 = b.1) : a = b := by
  have hne : t.entries.Pairwise fun x y => x.1 ≠ y.1 := t.sorted.imp KeyOrder.ne_of_lt
  have hnd : (t.entries.map (·.1)).Nodup := List.pairwise_map.2 hne
  exact List.inj_on_of_nodup_map hnd ha hb h

theorem mem_entries [DecidableEq κ] (t : Table κ α) (key : κ) (value : α) :
    (key, value) ∈ t.entries ↔ t.get? key = some value := by
  unfold get?
  constructor
  · intro hmem
    cases hfound : t.entries.lookup key with
    | none =>
      have hall := List.lookup_eq_none_iff.1 hfound _ hmem
      simp at hall
    | some found =>
      obtain ⟨before, after, heq, -⟩ := List.lookup_eq_some_iff.1 hfound
      have hmem' : (key, found) ∈ t.entries := by simp [heq]
      have := eq_of_mem_of_key_eq hmem hmem' rfl
      simp_all
  · intro hfound
    obtain ⟨before, after, heq, -⟩ := List.lookup_eq_some_iff.1 hfound
    simp [heq]

theorem mem_values [DecidableEq κ] (t : Table κ α) (value : α) :
    value ∈ t.values ↔ ∃ key, t.get? key = some value := by
  unfold values
  simp only [List.mem_map, Prod.exists, exists_eq_right, mem_entries]

theorem mem_keys [DecidableEq κ] (t : Table κ α) (key : κ) :
    key ∈ t.keys ↔ (t.get? key).isSome := by
  unfold keys
  simp only [List.mem_map, Prod.exists, mem_entries, Option.isSome_iff_exists]
  constructor
  · rintro ⟨k, v, h, rfl⟩
    exact ⟨v, h⟩
  · rintro ⟨v, h⟩
    exact ⟨key, v, h, rfl⟩

theorem contains_eq_of_keys_eq [DecidableEq κ] {t u : Table κ α} (h : t.keys = u.keys)
    (key : κ) : t.contains key = u.contains key := by
  rw [contains, contains, Bool.eq_iff_iff, ← mem_keys, ← mem_keys, h]

omit [KeyOrder κ] in
theorem keys_sorted (t : Table κ α) : t.keys.Pairwise (· < ·) :=
  List.pairwise_map.2 t.sorted

theorem keys_nodup (t : Table κ α) : t.keys.Nodup :=
  t.keys_sorted.imp KeyOrder.ne_of_lt

/-- Tables that answer alike are the same. -/
theorem get?_ext [DecidableEq κ] {t u : Table κ α} (h : ∀ key, t.get? key = u.get? key) :
    t = u := by
  have hmem : ∀ e, e ∈ t.entries ↔ e ∈ u.entries := by
    rintro ⟨key, value⟩
    rw [mem_entries, mem_entries, h key]
  have hnodup (w : Table κ α) : w.entries.Nodup :=
    w.sorted.imp fun hlt heq => KeyOrder.ne_of_lt hlt (congrArg Prod.fst heq)
  have hperm : t.entries.Perm u.entries :=
    (List.perm_ext_iff_of_nodup (hnodup t) (hnodup u)).2 hmem
  have hentries : t.entries = u.entries := by
    refine hperm.eq_of_pairwise ?_ t.sorted u.sorted
    intro a b _ _ hab hba
    exact absurd (KeyOrder.lt_trans hab hba) (KeyOrder.lt_irrefl _)
  cases t
  cases u
  simp_all

omit [KeyOrder κ] in
theorem get?_modify [DecidableEq κ] (t : Table κ α) (key key' : κ) (f : α → α) :
    (t.modify key f).get? key' = if key' = key then (t.get? key').map f else t.get? key' := by
  show List.lookup key' (t.entries.map fun e => if e.1 = key then (e.1, f e.2) else e) = _
  unfold get?
  induction t.entries with
  | nil => simp
  | cons head rest ih =>
    obtain ⟨k, v⟩ := head
    rw [List.map_cons, Entries.lookup_cons, Entries.lookup_cons]
    by_cases hk : k = key
    · by_cases hk' : key' = key <;> simp_all
    · by_cases hk' : key' = key
      · have hne : key ≠ k := Ne.symm hk
        simp_all
      · simp_all

/-- Altering a key to what it has already changes nothing. -/
theorem alter_eq_self [DecidableEq κ] [DecidableLT κ] {t : Table κ α} {key : κ} {value : α}
    {f : Option α → α} (hget : t.get? key = some value) (hf : f (some value) = value) :
    t.alter key f = t := by
  refine get?_ext fun key' => ?_
  rw [get?_alter]
  split
  · rename_i heq
    rw [heq, hget, hf]
  · rfl

theorem get?_ofList_isSome [DecidableEq κ] [DecidableLT κ] (entries : List (κ × α)) (key : κ) :
    ((ofList entries).get? key).isSome ↔ key ∈ entries.map (·.1) := by
  have step (t : Table κ α) : ((entries.foldl (fun t e => t.insert e.1 e.2) t).get? key).isSome ↔
      (t.get? key).isSome ∨ key ∈ entries.map (·.1) := by
    induction entries generalizing t with
    | nil => simp
    | cons e rest ih =>
      rw [List.foldl_cons, ih, get?_insert]
      by_cases hk : key = e.1 <;> simp [hk]
  unfold ofList
  rw [step, get?_empty]
  simp

end Table

variable [LT κ] [DecidableLT κ] [KeyOrder κ] [DecidableEq κ]

theorem mem_sortDistinct (keys : List κ) (key : κ) : key ∈ sortDistinct keys ↔ key ∈ keys := by
  unfold sortDistinct
  rw [Table.mem_keys, Table.get?_ofList_isSome]
  simp

omit [DecidableEq κ] in
theorem sortDistinct_sorted (keys : List κ) : (sortDistinct keys).Pairwise (· < ·) :=
  Table.keys_sorted _

omit [DecidableEq κ] in
theorem sortDistinct_nodup (keys : List κ) : (sortDistinct keys).Nodup :=
  (sortDistinct_sorted keys).imp KeyOrder.ne_of_lt

/-- Only the members count, not their order. -/
theorem sortDistinct_congr {keys keys' : List κ} (h : ∀ key, key ∈ keys ↔ key ∈ keys') :
    sortDistinct keys = sortDistinct keys' := by
  have hmem (key : κ) : key ∈ sortDistinct keys ↔ key ∈ sortDistinct keys' := by
    rw [mem_sortDistinct, mem_sortDistinct, h]
  have hperm : (sortDistinct keys).Perm (sortDistinct keys') :=
    (List.perm_ext_iff_of_nodup (sortDistinct_nodup _) (sortDistinct_nodup _)).2 hmem
  refine hperm.eq_of_pairwise ?_ (sortDistinct_sorted _) (sortDistinct_sorted _)
  intro a b _ _ hab hba
  exact absurd (KeyOrder.lt_trans hab hba) (KeyOrder.lt_irrefl _)

end SchemaGraph
