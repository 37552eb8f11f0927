/-!
# Sorted tables

A `Table` holds one value per key, in ascending order of the keys. The order is part of the type,
so a table has no key twice. `get?_alter` and `get?_insert` say what the operations do to the
values.
-/

namespace SchemaGraph

/-- A strict linear order. Keys need one. -/
class KeyOrder (κ : Type) [LT κ] : Prop where
  lt_irrefl : ∀ a : κ, ¬ a < a
  lt_trans : ∀ {a b c : κ}, a < b → b < c → a < c
  /-- Two keys of which neither comes first are the same. -/
  eq_of_not_lt : ∀ {a b : κ}, ¬ a < b → ¬ b < a → a = b

instance : KeyOrder String where
  lt_irrefl := String.lt_irrefl
  lt_trans := String.lt_trans
  eq_of_not_lt hab hba := String.le_antisymm (String.not_lt.1 hba) (String.not_lt.1 hab)

variable {κ : Type} {α : Type}

namespace Entries

/-- The entries with the value of `key` replaced by `f` of what stood there. -/
def alter [LT κ] [DecidableLT κ] (key : κ) (f : Option α → α) : List (κ × α) → List (κ × α)
  | [] => [(key, f none)]
  | (k, v) :: rest =>
    if key < k then (key, f none) :: (k, v) :: rest
    else if k < key then (k, v) :: alter key f rest
    else (k, f (some v)) :: rest

variable [LT κ] [DecidableLT κ]

theorem key_of_mem_alter {key : κ} {f : Option α → α} {entries : List (κ × α)} {e : κ × α}
    (h : e ∈ alter key f entries) : e.1 = key ∨ ∃ e' ∈ entries, e'.1 = e.1 := by
  induction entries with
  | nil => simp [alter] at h; simp [h]
  | cons head rest ih =>
    obtain ⟨k, v⟩ := head
    rw [alter] at h
    split at h
    · rcases List.mem_cons.1 h with rfl | h
      · exact .inl rfl
      · exact .inr ⟨e, h, rfl⟩
    · split at h
      · rcases List.mem_cons.1 h with rfl | h
        · exact .inr ⟨(k, v), by simp, rfl⟩
        · rcases ih h with h | ⟨e', he', heq⟩
          · exact .inl h
          · exact .inr ⟨e', by simp [he'], heq⟩
      · rcases List.mem_cons.1 h with rfl | h
        · exact .inr ⟨(k, v), by simp, rfl⟩
        · exact .inr ⟨e, by simp [h], rfl⟩

theorem sorted_alter [KeyOrder κ] (key : κ) (f : Option α → α) {entries : List (κ × α)}
    (h : entries.Pairwise (·.1 < ·.1)) :
    (alter key f entries).Pairwise (·.1 < ·.1) := by
  induction entries with
  | nil => simp [alter]
  | cons head rest ih =>
    obtain ⟨k, v⟩ := head
    rw [List.pairwise_cons] at h
    rw [alter]
    split
    · rename_i hlt
      refine List.pairwise_cons.2 ⟨fun e he => ?_, List.pairwise_cons.2 h⟩
      rcases List.mem_cons.1 he with rfl | he
      · exact hlt
      · exact KeyOrder.lt_trans hlt (h.1 e he)
    · split
      · rename_i hlt
        refine List.pairwise_cons.2 ⟨fun e he => ?_, ih h.2⟩
        rcases key_of_mem_alter he with heq | ⟨e', he', heq⟩
        · simpa [heq] using hlt
        · simpa [← heq] using h.1 e' he'
      · exact List.pairwise_cons.2 ⟨h.1, h.2⟩

omit [DecidableLT κ] in
/-- A key before all others has no value. -/
theorem lookup_eq_none_of_lt [DecidableEq κ] [KeyOrder κ] {key : κ} {entries : List (κ × α)}
    (h : ∀ e ∈ entries, key < e.1) : entries.lookup key = none := by
  rw [List.lookup_eq_none_iff]
  intro e he
  have hlt := h e he
  have hne : key ≠ e.1 := fun heq => KeyOrder.lt_irrefl _ (heq ▸ hlt)
  simpa using hne

omit [LT κ] [DecidableLT κ] in
theorem lookup_cons [DecidableEq κ] (key : κ) (e : κ × α) (entries : List (κ × α)) :
    (e :: entries).lookup key = if key = e.1 then some e.2 else entries.lookup key := by
  rw [List.lookup_cons]
  by_cases h : key = e.1
  · simp [h]
  · rw [if_neg h, beq_false_of_ne h]

theorem lookup_alter [DecidableEq κ] [KeyOrder κ] (key key' : κ) (f : Option α → α)
    {entries : List (κ × α)} (h : entries.Pairwise (·.1 < ·.1)) :
    (alter key f entries).lookup key' =
      if key' = key then some (f (entries.lookup key)) else entries.lookup key' := by
  induction entries with
  | nil => rw [alter, lookup_cons, List.lookup_nil, List.lookup_nil]
  | cons head rest ih =>
    obtain ⟨k, v⟩ := head
    rw [List.pairwise_cons] at h
    rw [alter]
    split
    · rename_i hlt
      have hnone : List.lookup key ((k, v) :: rest) = none :=
        lookup_eq_none_of_lt fun e he => by
          rcases List.mem_cons.1 he with rfl | he
          · exact hlt
          · exact KeyOrder.lt_trans hlt (h.1 e he)
      rw [hnone, lookup_cons key']
    · split
      · rename_i hlt
        have hne : key ≠ k := fun heq => KeyOrder.lt_irrefl _ (heq ▸ hlt)
        rw [lookup_cons, lookup_cons, lookup_cons, ih h.2, if_neg hne]
        by_cases hk : key' = k
        · rw [if_pos hk, if_pos hk, if_neg (hk ▸ Ne.symm hne)]
        · rw [if_neg hk, if_neg hk]
      · rename_i hkey hk
        have heq : key = k := KeyOrder.eq_of_not_lt hkey hk
        rw [lookup_cons, lookup_cons, lookup_cons, if_pos heq, heq]
        split <;> rfl

end Entries

/-- One value per key, in ascending order of the keys. -/
structure Table (κ : Type) (α : Type) [LT κ] where
  entries : List (κ × α)
  sorted : entries.Pairwise (·.1 < ·.1)

namespace Table

variable [LT κ] [DecidableLT κ]

/-- The table without entries. -/
def empty : Table κ α :=
  ⟨[], .nil⟩

/-- The value of a key. -/
def get? [DecidableEq κ] (t : Table κ α) (key : κ) : Option α :=
  t.entries.lookup key

/-- Whether a key has a value. -/
def contains [DecidableEq κ] (t : Table κ α) (key : κ) : Bool :=
  (t.get? key).isSome

/-- The keys, in ascending order. -/
def keys (t : Table κ α) : List κ :=
  t.entries.map (·.1)

/-- The values, in ascending order of their keys. -/
def values (t : Table κ α) : List α :=
  t.entries.map (·.2)

/-- The sum of a measure of the values. -/
def total (t : Table κ α) (measure : α → Nat) : Nat :=
  t.entries.foldr (fun e n => measure e.2 + n) 0

/-- The number of entries. -/
def size (t : Table κ α) : Nat :=
  t.entries.length

/-- The table in which `key` has the value `f` of what stood there. -/
def alter [KeyOrder κ] (t : Table κ α) (key : κ) (f : Option α → α) : Table κ α :=
  ⟨Entries.alter key f t.entries, Entries.sorted_alter key f t.sorted⟩

/-- The table in which `key` has the given value. -/
def insert [KeyOrder κ] (t : Table κ α) (key : κ) (value : α) : Table κ α :=
  t.alter key fun _ => value

/-- The table in which the value of `key`, if there is one, is replaced by `f` of it. -/
def modify [DecidableEq κ] (t : Table κ α) (key : κ) (f : α → α) : Table κ α :=
  ⟨t.entries.map fun e => if e.1 = key then (e.1, f e.2) else e, by
    refine List.Pairwise.map _ (fun a b h => ?_) t.sorted
    have key_eq (e : κ × α) : (if e.1 = key then (e.1, f e.2) else e).1 = e.1 := by split <;> rfl
    rw [key_eq, key_eq]
    exact h⟩

/-- The table of the entries whose keys satisfy `p`. -/
def filterKeys (t : Table κ α) (p : κ → Bool) : Table κ α :=
  ⟨t.entries.filter fun e => p e.1, t.sorted.filter _⟩

/-! ## What the operations do to the values -/

omit [DecidableLT κ] in
theorem get?_empty [DecidableEq κ] (key : κ) : (empty : Table κ α).get? key = none :=
  rfl

theorem get?_alter [DecidableEq κ] [KeyOrder κ] (t : Table κ α) (key key' : κ)
    (f : Option α → α) :
    (t.alter key f).get? key' = if key' = key then some (f (t.get? key)) else t.get? key' :=
  Entries.lookup_alter key key' f t.sorted

theorem get?_insert [DecidableEq κ] [KeyOrder κ] (t : Table κ α) (key key' : κ) (value : α) :
    (t.insert key value).get? key' = if key' = key then some value else t.get? key' :=
  t.get?_alter key key' fun _ => value

/-- The table of a list of entries; of two entries for a key the later one counts. -/
def ofList [KeyOrder κ] (entries : List (κ × α)) : Table κ α :=
  entries.foldl (fun t e => t.insert e.1 e.2) empty

end Table

/-- The members of a list in ascending order, each once. -/
def sortDistinct [LT κ] [DecidableLT κ] [KeyOrder κ] (keys : List κ) : List κ :=
  (Table.ofList (keys.map fun key => (key, ()))).keys

end SchemaGraph
