import Mathlib.Data.List.Forall2
import Mathlib.Data.Nat.Digits.Defs
import Mathlib.Tactic.Ring
import SchemaGraph.Schema.Grammar
/-!
# What integer literals denote

`Denotes digits v` says which number the text of an integer literal stands for, in positional
notation: hexadecimal, octal or decimal, as the text starts. A literal has the value that it denotes
if that fits in 63 bits, and no value otherwise (`Reader.integerValue?_eq_some_iff`).
-/

namespace SchemaGraph

/-- The character is a digit of a base for `d`, in either case. -/
def IsDigit (base : Nat) (c : Char) (d : Nat) : Prop :=
  d < base ∧ (c = d.digitChar ∨ c = d.digitChar.toUpper)

/-- The digits `cs` stand for `v` in a base; the first one weighs most. -/
def IsNumeral (base : Nat) (cs : List Char) (v : Nat) : Prop :=
  ∃ ds, ds ≠ [] ∧ List.Forall₂ (IsDigit base) cs ds ∧ v = Nat.ofDigits base ds.reverse

/-- The number that the text of an integer literal denotes. -/
inductive Denotes : List Char → Nat → Prop where
  | hexadecimal {x : Char} {cs : List Char} {v : Nat} (hx : x = 'x' ∨ x = 'X')
      (h : IsNumeral 16 cs v) : Denotes ('0' :: x :: cs) v
  | octal {c : Char} {cs : List Char} {v : Nat} (hc : c ≠ 'x' ∧ c ≠ 'X')
      (h : IsNumeral 8 ('0' :: c :: cs) v) : Denotes ('0' :: c :: cs) v
  | decimal {c : Char} {cs : List Char} {v : Nat} (hc : c = '0' → cs = [])
      (h : IsNumeral 10 (c :: cs) v) : Denotes (c :: cs) v

namespace Reader

variable {base value v d : Nat} {c : Char} {cs : List Char}

/-! ## Digits -/

/-- No digit comes after the letter `f`. -/
theorem toNat_lt_of_digitValue? (h : digitValue? 16 c = some d) : c.toNat < 103 := by
  unfold digitValue? at h
  obtain ⟨hvalue, -⟩ := Option.filter_eq_some_iff.1 h
  split at hvalue
  · rename_i hrange
    exact Nat.lt_of_le_of_lt hrange.2 (by decide)
  split at hvalue
  · rename_i hrange
    exact Nat.lt_of_le_of_lt hrange.2 (by decide)
  split at hvalue
  · rename_i hrange
    exact Nat.lt_of_le_of_lt hrange.2 (by decide)
  · cases hvalue

theorem digitValue?_sixteen : digitValue? 16 c = some d ↔ IsDigit 16 c d := by
  constructor
  · intro h
    have hall : ∀ n : Fin 103, ∀ d ∈ digitValue? 16 (Char.ofNat n), d < 16 ∧
        (Char.ofNat n = d.digitChar ∨ Char.ofNat n = d.digitChar.toUpper) := by decide
    have hdigit := hall ⟨c.toNat, toNat_lt_of_digitValue? h⟩ d
    rw [Char.ofNat_toNat] at hdigit
    exact hdigit h
  · rintro ⟨hd, hc⟩
    have hall : ∀ d : Fin 16, digitValue? 16 (Nat.digitChar d) = some d.val ∧
        digitValue? 16 (Nat.digitChar d).toUpper = some d.val := by decide
    rcases hc with rfl | rfl
    · exact (hall ⟨d, hd⟩).1
    · exact (hall ⟨d, hd⟩).2

/-- A digit of a base up to sixteen is one of base sixteen. -/
theorem digitValue?_eq_some_iff (hbase : base ≤ 16) :
    digitValue? base c = some d ↔ IsDigit base c d := by
  have hfilter : digitValue? base c = some d ↔ digitValue? 16 c = some d ∧ d < base := by
    simp only [digitValue?, Option.filter_eq_some_iff, decide_eq_true_eq, and_assoc]
    exact and_congr_right fun _ => ⟨fun h => ⟨h.trans_le hbase, h⟩, fun h => h.2⟩
  rw [hfilter, digitValue?_sixteen, IsDigit, IsDigit]
  exact ⟨fun h => ⟨h.2, h.1.2⟩, fun h => ⟨⟨h.1.trans_le hbase, h.2⟩, h.1⟩⟩

/-! ## Texts of digits -/

/-- The digits after `value` are those of a number whose first digits make up `value`. -/
theorem digitsValueFrom?_eq_some_iff (hbase : base ≤ 16) :
    digitsValueFrom? base value cs = some v ↔ ∃ ds, List.Forall₂ (IsDigit base) cs ds ∧
      v = value * base ^ cs.length + Nat.ofDigits base ds.reverse := by
  induction cs generalizing value with
  | nil => simp [digitsValueFrom?, eq_comm]
  | cons c cs ih =>
    have hcons (d : Nat) (ds : List Nat) (hlength : cs.length = ds.length) :
        (value * base + d) * base ^ cs.length + Nat.ofDigits base ds.reverse =
          value * base ^ (cs.length + 1) + Nat.ofDigits base (d :: ds).reverse := by
      rw [List.reverse_cons, Nat.ofDigits_append, Nat.ofDigits_singleton, List.length_reverse,
        hlength, Nat.pow_succ]
      ring
    simp only [digitsValueFrom?, Option.bind_eq_some_iff, ih, digitValue?_eq_some_iff hbase]
    constructor
    · rintro ⟨d, hd, ds, hds, rfl⟩
      exact ⟨d :: ds, .cons hd hds, hcons d ds hds.length_eq⟩
    · rintro ⟨_, hds, rfl⟩
      cases hds with
      | cons hd hds => exact ⟨_, hd, _, hds, (hcons _ _ hds.length_eq).symm⟩

theorem digitsValue?_eq_some_iff (hbase : base ≤ 16) :
    digitsValue? base cs = some v ↔ IsNumeral base cs v := by
  unfold digitsValue?
  cases cs with
  | nil =>
    refine ⟨nofun, ?_⟩
    rintro ⟨ds, hds, hdigits, -⟩
    cases hdigits
    exact absurd rfl hds
  | cons c cs =>
    rw [if_neg (by simp), digitsValueFrom?_eq_some_iff hbase]
    simp only [Nat.zero_mul, Nat.zero_add]
    constructor
    · rintro ⟨ds, hds, hv⟩
      cases hds with
      | cons hd hds => exact ⟨_, List.cons_ne_nil _ _, .cons hd hds, hv⟩
    · rintro ⟨ds, -, hds, hv⟩
      exact ⟨ds, hds, hv⟩

/-- A zero in front changes nothing. -/
theorem isNumeral_zero_cons (hbase : 0 < base) (hle : base ≤ 16) (hcs : cs ≠ []) :
    IsNumeral base ('0' :: cs) v ↔ IsNumeral base cs v := by
  have hzero : IsDigit base '0' 0 := ⟨hbase, .inl rfl⟩
  have hvalue (ds : List Nat) :
      Nat.ofDigits base (0 :: ds).reverse = Nat.ofDigits base ds.reverse := by
    rw [List.reverse_cons, Nat.ofDigits_append_zero]
  constructor
  · rintro ⟨_, -, hds, rfl⟩
    cases hds with
    | @cons _ d _ ds hd hds =>
      -- A character is a digit for one number only.
      have heq := (digitValue?_eq_some_iff hle).2 hd
      rw [(digitValue?_eq_some_iff hle).2 hzero] at heq
      obtain rfl := Option.some.inj heq
      refine ⟨ds, ?_, hds, hvalue ds⟩
      rintro rfl
      exact hcs (List.forall₂_nil_right_iff.1 hds)
  · rintro ⟨ds, -, hds, rfl⟩
    exact ⟨0 :: ds, List.cons_ne_nil _ _, .cons hzero hds, (hvalue ds).symm⟩

/-! ## Literals -/

theorem denotes_hexadecimal (h : c = 'x' ∨ c = 'X') :
    Denotes ('0' :: c :: cs) v ↔ IsNumeral 16 cs v := by
  refine ⟨fun hv => ?_, .hexadecimal h⟩
  cases hv with
  | hexadecimal _ hv => exact hv
  | octal hc => exact (h.elim hc.1 hc.2).elim
  | decimal hc => exact absurd (hc rfl) (List.cons_ne_nil c cs)

theorem denotes_octal (h : c ≠ 'x' ∧ c ≠ 'X') :
    Denotes ('0' :: c :: cs) v ↔ IsNumeral 8 ('0' :: c :: cs) v := by
  refine ⟨fun hv => ?_, .octal h⟩
  cases hv with
  | hexadecimal hc => exact (hc.elim h.1 h.2).elim
  | octal _ hv => exact hv
  | decimal hc => exact absurd (hc rfl) (List.cons_ne_nil c cs)

theorem denotes_decimal (h : ∀ c cs', cs = '0' :: c :: cs' → False) :
    Denotes cs v ↔ IsNumeral 10 cs v := by
  constructor
  · intro hv
    cases hv with
    | hexadecimal | octal => exact (h _ _ rfl).elim
    | decimal _ hv => exact hv
  · intro hv
    cases cs with
    | nil =>
      obtain ⟨ds, hne, hds, -⟩ := hv
      exact absurd (List.forall₂_nil_left_iff.1 hds) hne
    | cons c cs =>
      refine .decimal (fun hc => ?_) hv
      cases cs with
      | nil => rfl
      | cons c' cs => exact (h c' cs (hc ▸ rfl)).elim

/-- A literal has the value that it denotes, up to the largest integer. -/
theorem integerValue?_eq_some_iff {digits : String} :
    integerValue? digits = some v ↔ Denotes digits.toList v ∧ v ≤ maxInteger := by
  unfold integerValue?
  rw [Option.filter_eq_some_iff, decide_eq_true_eq]
  refine and_congr_left fun _ => ?_
  split
  · rename_i cs hdigits
    rw [hdigits, denotes_hexadecimal (.inl rfl), digitsValue?_eq_some_iff (Nat.le_refl 16)]
  · rename_i cs hdigits
    rw [hdigits, denotes_hexadecimal (.inr rfl), digitsValue?_eq_some_iff (Nat.le_refl 16)]
  · rename_i c cs hx hX hdigits
    rw [hdigits, denotes_octal ⟨hx, hX⟩, digitsValue?_eq_some_iff (by decide),
      isNumeral_zero_cons (by decide) (by decide) (List.cons_ne_nil c cs)]
  · rename_i hoctal
    rw [denotes_decimal hoctal, digitsValue?_eq_some_iff (by decide)]

/-- A literal has no value if nothing that it denotes fits in 63 bits. -/
theorem integerValue?_eq_none_iff {digits : String} :
    integerValue? digits = none ↔ ∀ v, Denotes digits.toList v → 2 ^ 63 ≤ v := by
  rw [Option.eq_none_iff_forall_ne_some]
  refine forall_congr' fun v => ?_
  rw [Ne, integerValue?_eq_some_iff, not_and]
  exact imp_congr_right fun _ => Nat.not_le

end Reader
end SchemaGraph
