import SchemaGraph.Lexical.Pattern
/-!
# Longest matches

`Pattern.longest` takes one character after the other and goes on with what may follow it. That
finds the longest text of the pattern at the start of what it is given (`longest_eq_some_iff`),
because the pattern that follows a character describes just the rests of the texts that start with
it (`matches_after`). -/

namespace SchemaGraph.Lexical.Pattern

variable {r a b : Pattern} {c : Char} {s cs : List Char} {n : Nat}

/-! ## Texts of the constructors -/

theorem not_matches_never : ¬ never.Matches s :=
  nofun

@[simp] theorem matches_empty : empty.Matches s ↔ s = [] :=
  ⟨fun h => by cases h; rfl, fun h => h ▸ .empty⟩

@[simp] theorem matches_one {test : Char → Bool} :
    (one test).Matches s ↔ ∃ c, test c = true ∧ s = [c] :=
  ⟨fun h => by cases h with | one h => exact ⟨_, h, rfl⟩, fun ⟨_, h, hs⟩ => hs ▸ .one h⟩

theorem matches_seq :
    (seq a b).Matches s ↔ ∃ u v, s = u ++ v ∧ a.Matches u ∧ b.Matches v :=
  ⟨fun h => by cases h with | seq ha hb => exact ⟨_, _, rfl, ha, hb⟩,
    fun ⟨_, _, hs, ha, hb⟩ => hs ▸ .seq ha hb⟩

theorem matches_either : (either a b).Matches s ↔ a.Matches s ∨ b.Matches s := by
  constructor
  · intro h
    cases h with
    | left h => exact .inl h
    | right h => exact .inr h
  · rintro (h | h)
    · exact .left h
    · exact .right h

/-- The first part of a repetition that is not empty starts it. -/
theorem matches_many_cons : (many a).Matches (c :: s) ↔
    ∃ u v, s = u ++ v ∧ a.Matches (c :: u) ∧ (many a).Matches v := by
  constructor
  · intro h
    generalize hr : many a = r at h
    generalize ht : c :: s = t at h
    -- Empty parts before the first one that is not empty are passed over.
    induction h with
    | manyNil => cases ht
    | @manyCons a' u v ha hv _ ih =>
      obtain rfl := Pattern.many.inj hr
      cases u with
      | nil => exact ih rfl ht
      | cons d u =>
        obtain ⟨rfl, rfl⟩ := List.cons.inj ht
        exact ⟨u, v, rfl, ha, hv⟩
    | empty | one | seq | left | right => cases hr
  · rintro ⟨u, v, rfl, ha, hv⟩
    exact .manyCons ha hv

/-! ## What may follow a character -/

theorem nullable_iff : r.nullable = true ↔ r.Matches [] := by
  induction r with
  | never => simp [nullable, not_matches_never]
  | empty => simp [nullable]
  | one => simp [nullable]
  | seq a b iha ihb =>
    rw [nullable, Bool.and_eq_true, iha, ihb, matches_seq]
    constructor
    · rintro ⟨ha, hb⟩
      exact ⟨[], [], rfl, ha, hb⟩
    · rintro ⟨u, v, huv, ha, hb⟩
      obtain ⟨rfl, rfl⟩ := List.append_eq_nil_iff.1 huv.symm
      exact ⟨ha, hb⟩
  | either a b iha ihb => rw [nullable, Bool.or_eq_true, iha, ihb, matches_either]
  | many => simp [nullable, Matches.manyNil]

theorem matches_andThen : (a.andThen b).Matches s ↔ (seq a b).Matches s := by
  unfold andThen
  split
  · simp [matches_seq, not_matches_never]
  · simp [matches_seq, not_matches_never]
  · rw [matches_seq]
    constructor
    · exact fun h => ⟨[], s, rfl, .empty, h⟩
    · rintro ⟨u, v, rfl, hu, hv⟩
      rwa [matches_empty.1 hu]
  · exact Iff.rfl

theorem matches_orElse : (a.orElse b).Matches s ↔ a.Matches s ∨ b.Matches s := by
  unfold orElse
  split
  · simp [not_matches_never]
  · simp [not_matches_never]
  · exact matches_either

/-- A text whose first part may be empty starts in its first or in its second part. -/
theorem matches_seq_cons : (seq a b).Matches (c :: s) ↔
    (∃ u v, s = u ++ v ∧ a.Matches (c :: u) ∧ b.Matches v) ∨
      (a.nullable = true ∧ b.Matches (c :: s)) := by
  rw [matches_seq, nullable_iff]
  constructor
  · rintro ⟨u, v, huv, ha, hb⟩
    cases u with
    | nil => exact .inr ⟨ha, huv ▸ hb⟩
    | cons d u =>
      obtain ⟨rfl, rfl⟩ := List.cons.inj huv
      exact .inl ⟨u, v, rfl, ha, hb⟩
  · rintro (⟨u, v, rfl, ha, hb⟩ | ⟨ha, hb⟩)
    · exact ⟨c :: u, v, rfl, ha, hb⟩
    · exact ⟨[], c :: s, rfl, ha, hb⟩

/-- The pattern after a character describes the rests of the texts that start with it. -/
theorem matches_after : (r.after c).Matches s ↔ r.Matches (c :: s) := by
  induction r generalizing s with
  | never => simp [after, not_matches_never]
  | empty => simp [after, not_matches_never]
  | one test =>
    rw [after, matches_one]
    split
    · rename_i hc
      rw [matches_empty]
      constructor
      · rintro rfl
        exact ⟨c, hc, rfl⟩
      · rintro ⟨_, -, hs⟩
        exact (List.cons.inj hs).2
    · rename_i hc
      constructor
      · exact fun h => absurd h not_matches_never
      · rintro ⟨_, hd, hs⟩
        exact absurd ((List.cons.inj hs).1 ▸ hd) hc
  | seq a b iha ihb =>
    rw [matches_seq_cons, after]
    split
    · rename_i hnullable
      rw [matches_orElse, matches_andThen, matches_seq, ihb]
      simp only [iha, hnullable, true_and]
    · rename_i hnot
      rw [matches_andThen, matches_seq]
      simp only [iha, hnot, Bool.false_eq_true, false_and, or_false]
  | either a b iha ihb => rw [after, matches_orElse, iha, ihb, matches_either]
  | many a iha =>
    rw [after, matches_andThen, matches_seq, matches_many_cons]
    simp only [iha]

/-! ## The longest match -/

@[simp] theorem longest_never (cs : List Char) : never.longest cs = none := by
  cases cs <;> rfl

theorem longest_nil : r.longest [] = if r.nullable then some 0 else none := by
  cases r <;> rfl

theorem longest_cons : r.longest (c :: cs) =
    match (r.after c).longest cs with
    | some n => some (n + 1)
    | none => if r.nullable then some 0 else none := by
  cases r with
  | never => simp [after, nullable]
  | empty | one | seq | either | many => rfl

/-- The longest match is a text of the pattern, and no longer one starts what is given. -/
theorem longest_spec (r : Pattern) (cs : List Char) :
    (∀ n, r.longest cs = some n → n ≤ cs.length ∧ r.Matches (cs.take n)) ∧
      ∀ m ≤ cs.length, r.Matches (cs.take m) → ∃ n, r.longest cs = some n ∧ m ≤ n := by
  -- The pattern changes with each character that is taken.
  induction cs generalizing r with
  | nil =>
    rw [longest_nil]
    refine ⟨fun n h => ?_, fun m hm hmatches => ?_⟩
    · split at h
      · rename_i hnullable
        rw [← Option.some.inj h]
        exact ⟨Nat.le_refl _, nullable_iff.1 hnullable⟩
      · cases h
    · rw [List.take_nil, ← nullable_iff] at hmatches
      exact ⟨0, if_pos hmatches, hm⟩
  | cons c cs ih =>
    obtain ⟨hsound, hlongest⟩ := ih (r.after c)
    rw [longest_cons]
    refine ⟨fun n h => ?_, fun m hm hmatches => ?_⟩
    · split at h
      · rename_i k hk
        obtain ⟨hle, hmatches⟩ := hsound k hk
        rw [← Option.some.inj h]
        exact ⟨Nat.succ_le_succ hle, matches_after.1 hmatches⟩
      · split at h
        · rename_i hnullable
          rw [← Option.some.inj h]
          exact ⟨Nat.zero_le _, nullable_iff.1 hnullable⟩
        · cases h
    · cases m with
      | zero =>
        cases (r.after c).longest cs with
        | some k => exact ⟨k + 1, rfl, Nat.zero_le _⟩
        | none => exact ⟨0, if_pos (nullable_iff.2 hmatches), Nat.le_refl _⟩
      | succ m =>
        obtain ⟨k, hk, hmk⟩ := hlongest m (Nat.le_of_succ_le_succ hm) (matches_after.2 hmatches)
        rw [hk]
        exact ⟨k + 1, rfl, Nat.succ_le_succ hmk⟩

theorem matches_of_longest (h : r.longest cs = some n) : r.Matches (cs.take n) :=
  ((longest_spec r cs).1 n h).2

/-- The longest match is the greatest length at which a text of the pattern ends. -/
theorem longest_eq_some_iff : r.longest cs = some n ↔
    n ≤ cs.length ∧ r.Matches (cs.take n) ∧
      ∀ m ≤ cs.length, r.Matches (cs.take m) → m ≤ n := by
  obtain ⟨hsound, hlongest⟩ := longest_spec r cs
  constructor
  · intro h
    refine ⟨(hsound n h).1, (hsound n h).2, fun m hm hmatches => ?_⟩
    obtain ⟨k, hk, hmk⟩ := hlongest m hm hmatches
    rw [h] at hk
    exact Option.some.inj hk ▸ hmk
  · rintro ⟨hn, hmatches, hmax⟩
    obtain ⟨k, hk, hnk⟩ := hlongest n hn hmatches
    obtain ⟨hkle, hkmatches⟩ := hsound k hk
    rw [hk, Nat.le_antisymm (hmax k hkle hkmatches) hnk]

/-- There is no match when no text of the pattern starts what is given. -/
theorem longest_eq_none_iff : r.longest cs = none ↔ ∀ m ≤ cs.length, ¬ r.Matches (cs.take m) := by
  obtain ⟨hsound, hlongest⟩ := longest_spec r cs
  constructor
  · intro h m hm hmatches
    obtain ⟨k, hk, -⟩ := hlongest m hm hmatches
    rw [h] at hk
    cases hk
  · intro h
    cases hk : r.longest cs with
    | none => rfl
    | some k => exact absurd (hsound k hk).2 (h k (hsound k hk).1)

end SchemaGraph.Lexical.Pattern
