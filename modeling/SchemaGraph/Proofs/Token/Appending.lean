import SchemaGraph.Proofs.Token.MaximalMunch
/-!
# Texts on lines of their own

No token but a block comment has a line feed in it, and a block comment ends before the text does.
So a text, a line feed and another text have the lexemes of the first and then those of the second,
moved behind it (`tokenize_append`).
-/

namespace SchemaGraph

open Lexical

/-! ## Patterns that avoid a character -/

namespace Lexical.Pattern

/-- Whether no test in the pattern accepts the character. -/
def avoids (c : Char) : Pattern → Bool
  | never | empty => true
  | one test => !test c
  | seq a b | either a b => a.avoids c && b.avoids c
  | many a => a.avoids c

variable {c : Char} {cs rest s : List Char} {r : Pattern}

theorem not_mem_of_avoids (h : r.avoids c = true) (hs : r.Matches s) : c ∉ s := by
  induction hs with
  | empty | manyNil => exact List.not_mem_nil
  | one htest =>
    rintro hc
    obtain rfl := List.mem_singleton.1 hc
    simp [avoids, htest] at h
  | seq _ _ iha ihb =>
    obtain ⟨ha, hb⟩ := Bool.and_eq_true_iff.1 h
    simp [iha ha, ihb hb]
  | left _ ih => exact ih (Bool.and_eq_true_iff.1 h).1
  | right _ ih => exact ih (Bool.and_eq_true_iff.1 h).2
  | manyCons _ _ iha iht => simp [iha h, iht h]

/-- The longest text is that of the first part if no text reaches beyond it. -/
theorem longest_append_of_le {cs rest : List Char}
    (hbefore : ∀ n ≤ (cs ++ rest).length, r.Matches ((cs ++ rest).take n) → n ≤ cs.length) :
    r.longest (cs ++ rest) = r.longest cs := by
  have htake {n : Nat} (hn : n ≤ cs.length) : (cs ++ rest).take n = cs.take n :=
    List.take_append_of_le_length hn
  refine Option.ext fun n => ?_
  rw [longest_eq_some_iff, longest_eq_some_iff]
  constructor
  · rintro ⟨hn, hmatches, hmax⟩
    have hle := hbefore n hn hmatches
    rw [htake hle] at hmatches
    refine ⟨hle, hmatches, fun m hm hmatches' => hmax m ?_ (by rwa [htake hm])⟩
    rw [List.length_append]
    exact Nat.le_add_right_of_le hm
  · rintro ⟨hn, hmatches, hmax⟩
    refine ⟨?_, by rwa [htake hn], fun m hm hmatches' => ?_⟩
    · rw [List.length_append]
      exact Nat.le_add_right_of_le hn
    · have hle := hbefore m hm hmatches'
      exact hmax m hle (by rwa [htake hle] at hmatches')

/-- The longest text stands before a character that is in no text. -/
theorem longest_append (h : r.avoids c = true) (cs rest : List Char) :
    r.longest (cs ++ c :: rest) = r.longest cs := by
  refine longest_append_of_le fun n hn hmatches => ?_
  by_contra hlt
  obtain ⟨k, rfl⟩ := Nat.exists_eq_add_of_le (Nat.le_of_not_le hlt)
  refine not_mem_of_avoids h hmatches ?_
  rw [List.take_length_add_append]
  cases k with
  | zero => simp at hlt
  | succ k => simp

end Lexical.Pattern

/-! ## Before a line feed -/

variable {offset line skip n : Nat} {cs rest body : List Char} {token : Token}
  {lexemes : List Lexeme}

theorem munch_append (cs rest : List Char) : munch (cs ++ '\n' :: rest) = munch cs := by
  have hall : ∀ k ∈ TokenClass.all, k.pattern.avoids '\n' = true := by decide
  unfold munch
  congr 1
  refine List.map_congr_left fun k hk => ?_
  rw [Pattern.longest_append (hall k hk)]

/-- A comment that has an end has it in every longer text. -/
theorem commentBody_append (h : commentBody cs = some body) (rest : List Char) :
    commentBody (cs ++ rest) = some body := by
  fun_induction commentBody cs generalizing body with
  | case1 => cases h
  | case2 tail =>
    cases h
    rfl
  | case3 c cs hnot ih =>
    obtain ⟨inner, hinner, rfl⟩ := Option.map_eq_some_iff.1 h
    cases cs with
    | nil => cases hinner
    | cons d cs =>
      have hrest : commentBody (d :: (cs ++ rest)) = some inner := ih hinner
      rw [List.cons_append, List.cons_append, commentBody, hrest, Option.map_some]
      rintro tail rfl heq
      obtain ⟨rfl, -⟩ := List.cons.inj heq
      exact hnot cs rfl rfl

theorem length_le_of_firstToken (h : firstToken cs = .ok (token, n)) : n ≤ cs.length := by
  obtain ⟨s, rest, rfl, rfl, -⟩ := munched_of_firstToken h
  rw [List.length_append]
  exact Nat.le_add_right ..

/-- The first token of a text stays the first one before a line feed. -/
theorem firstToken_newline (h : firstToken cs = .ok (token, n)) (rest : List Char) :
    firstToken (cs ++ '\n' :: rest) = .ok (token, n) := by
  have hlength := length_le_of_firstToken h
  unfold firstToken at h ⊢
  rw [munch_append]
  cases hmunch : munch cs with
  | none =>
    rw [hmunch] at h
    cases cs with
    | nil => cases h
    | cons c cs =>
      dsimp only at h
      split at h <;> cases h
  | some best =>
    obtain ⟨k, m⟩ := best
    obtain ⟨hm, -⟩ := isLongest_of_munch hmunch
    have htake : (cs ++ '\n' :: rest).take m = cs.take m := List.take_append_of_le_length hm
    rw [hmunch] at h
    cases k with
    | blockOpener =>
      dsimp only at h ⊢
      rw [List.drop_append_of_le_length hm]
      cases hbody : commentBody (cs.drop m) with
      | none =>
        rw [hbody] at h
        cases h
      | some body =>
        rw [hbody] at h
        obtain ⟨rfl, rfl⟩ := Prod.mk.inj (Except.ok.inj h)
        rw [commentBody_append hbody]
        dsimp only
        rw [List.take_append_of_le_length hlength]
    | _ =>
      dsimp only at h ⊢
      rwa [htake]

/-! ## Lexemes further down -/

/-- The lexeme in a text that has more before it: as many lines and bytes as are given. -/
def Lexeme.down (lines bytes : Nat) (l : Lexeme) : Lexeme :=
  ⟨l.token, ⟨l.span.start + bytes, l.span.stop + bytes⟩, l.line + lines⟩

@[simp] theorem Lexeme.token_down (lines bytes : Nat) (l : Lexeme) :
    (l.down lines bytes).token = l.token :=
  rfl

theorem Lexeme.down_zero (l : Lexeme) : l.down 0 0 = l :=
  rfl

theorem lexemesFrom_of_firstToken {c : Char} (hc : ¬ isSeparator c = true)
    (h : firstToken (c :: cs) = .ok (token, n)) : lexemesFrom offset line 0 (c :: cs) =
      (lexemesFrom (offset + c.utf8Size) (nextLine c line) (n - 1) cs).map
        (⟨token, ⟨offset, offset + byteLength ((c :: cs).take n)⟩, line⟩ :: ·) := by
  rw [lexemesFrom, if_neg hc, h]

/-- Where a text starts only moves its lexemes. -/
theorem lexemesFrom_down (lines bytes : Nat) (h : lexemesFrom offset line skip cs = .ok lexemes) :
    lexemesFrom (offset + bytes) (line + lines) skip cs =
      .ok (lexemes.map (Lexeme.down lines bytes)) := by
  have hnext (c : Char) (line : Nat) : nextLine c (line + lines) = nextLine c line + lines := by
    unfold nextLine
    split <;> omega
  replace h := lexes_of_lexemesFrom h
  induction h with
  | nil => rfl
  | taken _ ih => rw [lexemesFrom, hnext, Nat.add_right_comm, ih]
  | separator hc _ ih => rw [lexemesFrom, if_pos hc, hnext, Nat.add_right_comm, ih]
  | @token offset line n c cs others token hc hfirst _ ih =>
    rw [lexemesFrom_of_firstToken hc hfirst, hnext, Nat.add_right_comm offset bytes c.utf8Size, ih]
    simp [Except.map, Lexeme.down, Nat.add_right_comm]

/-- Behind a text and a line feed another text starts anew. -/
theorem lexemesFrom_append (h : lexemesFrom offset line skip cs = .ok lexemes)
    (hskip : skip ≤ cs.length) (rest : List Char) :
    lexemesFrom offset line skip (cs ++ '\n' :: rest) =
      (lexemesFrom (offset + byteLength cs + 1) (line + cs.count '\n' + 1) 0 rest).map
        (lexemes ++ ·) := by
  have hsize (c : Char) (cs : List Char) : byteLength (c :: cs) = c.utf8Size + byteLength cs := rfl
  have hlines (c : Char) (line : Nat) (cs : List Char) :
      nextLine c line + cs.count '\n' = line + (c :: cs).count '\n' := by
    by_cases hc : c = '\n' <;> simp [nextLine, hc, Nat.add_comm, Nat.add_left_comm]
  replace h := lexes_of_lexemesFrom h
  induction h with
  | nil =>
    obtain rfl := Nat.le_zero.1 hskip
    have hmap (answer : Except Unreadable (List Lexeme)) : answer.map ([] ++ ·) = answer := by
      cases answer <;> rfl
    rw [hmap]
    rfl
  | @taken offset line skip c cs others _ ih =>
    rw [List.cons_append, lexemesFrom, ih (Nat.le_of_succ_le_succ hskip), hsize, hlines,
      Nat.add_assoc offset]
  | @separator offset line c cs others hc _ ih =>
    rw [List.cons_append, lexemesFrom, if_pos hc, ih (Nat.zero_le _), hsize, hlines,
      Nat.add_assoc offset]
  | @token offset line n c cs others token hc hfirst _ ih =>
    have hlength := length_le_of_firstToken hfirst
    have hskip : n - 1 ≤ cs.length := Nat.sub_le_of_le_add hlength
    have htake : (c :: cs ++ '\n' :: rest).take n = (c :: cs).take n :=
      List.take_append_of_le_length hlength
    have hfirst := firstToken_newline hfirst rest
    rw [List.cons_append] at hfirst htake ⊢
    rw [lexemesFrom_of_firstToken hc hfirst, htake, ih hskip, hsize, hlines, Nat.add_assoc offset]
    cases lexemesFrom (offset + (c.utf8Size + byteLength cs) + 1)
      (line + (c :: cs).count '\n' + 1) 0 rest <;> rfl

/-- How many lines a text and a line feed take. -/
def linesOf (source : String) : Nat :=
  source.toList.count '\n' + 1

/-- A text, a line feed and another text have the lexemes of the two, those of the second moved. -/
theorem tokenize_append {source source' : String} {lexemes lexemes' : List Lexeme}
    (h : tokenize source = .ok lexemes) (h' : tokenize source' = .ok lexemes') :
    tokenize (source ++ "\n" ++ source') = .ok (lexemes ++ lexemes'.map
      (Lexeme.down (linesOf source) (byteLength source.toList + 1))) := by
  have hdown := lexemesFrom_down (linesOf source) (byteLength source.toList + 1) h'
  have happend := lexemesFrom_append h (Nat.zero_le _) source'.toList
  have hline : 1 + source.toList.count '\n' + 1 = 1 + linesOf source := Nat.add_assoc ..
  rw [Nat.add_assoc 0, hline, hdown] at happend
  have htext : (source ++ "\n" ++ source').toList = source.toList ++ '\n' :: source'.toList := by
    simp
  unfold tokenize
  rw [htext, happend]
  rfl

end SchemaGraph
