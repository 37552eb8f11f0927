import SchemaGraph.Proofs.Token.Munch
/-!
# Characters inside quotes

`Text.quote` writes a text so that messages can show it, and literals are decoded by `unescape`.
Both know the same escapes but one: a character that does not print on its own is written by its
code point, and read as the characters of this writing (`readBack`). So a quoted text is a literal,
but its value is the text only where every character is written back
(`flatMap_readBack_eq_self_iff`).
-/

namespace SchemaGraph

/-- The hexadecimal digits. -/
def hexDigits : List Char :=
  "0123456789abcdef".toList

theorem mem_hexDigits_of_mem_toDigits {n : Nat} {c : Char} (h : c ∈ Nat.toDigits 16 n) :
    c ∈ hexDigits := by
  have hdigit : ∀ d < 16, Nat.digitChar d ∈ hexDigits := by decide
  induction n using Nat.strongRecOn with
  | ind n ih =>
    rw [Nat.toDigits_eq_if (by decide)] at h
    split at h
    · rename_i hlt
      exact List.mem_singleton.1 h ▸ hdigit n hlt
    · have hless : n / 16 < n := Nat.div_lt_self (by omega) (by decide)
      rcases List.mem_append.1 h with h | h
      · exact ih _ hless h
      · exact List.mem_singleton.1 h ▸ hdigit _ (Nat.mod_lt _ (by decide))

/-- Whether a character is written inside quotes as itself, or by an escape that literals have. -/
def isWrittenBack (c : Char) : Bool :=
  ['"', '\\', '\n', '\r', '\t', '\x00'].contains c || Text.isPrintable c

/-- How a character is written by its code point, without the backslash before it. -/
def codePoint (c : Char) : List Char :=
  'u' :: '\x7b' :: Nat.toDigits 16 c.toNat ++ ['\x7d']

/-- The characters that are read where a character is written inside quotes. -/
def readBack (c : Char) : List Char :=
  if isWrittenBack c then [c] else codePoint c

variable {c : Char} {s rest : List Char}

theorem isPlain_codePoint (c : Char) : IsPlain (codePoint c) := by
  have hplain : '"' ∉ hexDigits ∧ '\\' ∉ hexDigits ∧ '\n' ∉ hexDigits := by decide
  intro d hd
  simp only [codePoint, List.cons_append, List.mem_cons, List.mem_append, List.not_mem_nil,
    or_false] at hd
  rcases hd with rfl | rfl | hd | rfl
  · decide
  · decide
  · have hd := mem_hexDigits_of_mem_toDigits hd
    exact ⟨ne_of_mem_of_not_mem hd hplain.1, ne_of_mem_of_not_mem hd hplain.2.1,
      ne_of_mem_of_not_mem hd hplain.2.2⟩
  · decide

/-- A character is written as itself, by an escape of literals, or by its code point. -/
theorem quoteChar_cases (c : Char) :
    (isWrittenBack c = true ∧ Text.quoteChar c = [c] ∧ c ≠ '"' ∧ c ≠ '\\' ∧ c ≠ '\n') ∨
    (isWrittenBack c = true ∧ ∃ d, Text.quoteChar c = ['\\', d] ∧ d ≠ '\n' ∧
      ∀ rest, unescape ('\\' :: d :: rest) = c :: unescape rest) ∨
    isWrittenBack c = false ∧ Text.quoteChar c = '\\' :: codePoint c := by
  by_cases hescape : c ∈ ['"', '\\', '\n', '\r', '\t', '\x00']
  · refine .inr (.inl ⟨by simp [isWrittenBack, hescape], ?_⟩)
    simp only [List.mem_cons, List.not_mem_nil, or_false] at hescape
    rcases hescape with rfl | rfl | rfl | rfl | rfl | rfl
    · exact ⟨'"', rfl, by decide, fun _ => rfl⟩
    · exact ⟨'\\', rfl, by decide, fun _ => rfl⟩
    · exact ⟨'n', rfl, by decide, fun _ => rfl⟩
    · exact ⟨'r', rfl, by decide, fun _ => rfl⟩
    · exact ⟨'t', rfl, by decide, fun _ => rfl⟩
    · exact ⟨'0', rfl, by decide, fun _ => rfl⟩
  · have hother := hescape
    simp only [List.mem_cons, List.not_mem_nil, or_false, not_or] at hother
    obtain ⟨hquote, hslash, hline, hreturn, htab, hnul⟩ := hother
    cases hprintable : Text.isPrintable c with
    | true =>
      refine .inl ⟨by simp [isWrittenBack, hprintable], ?_, hquote, hslash, hline⟩
      simp [Text.quoteChar, hquote, hslash, hline, hreturn, htab, hnul, hprintable]
    | false =>
      refine .inr (.inr ⟨by simp [isWrittenBack, hescape, hprintable], ?_⟩)
      simp [Text.quoteChar, codePoint, hquote, hslash, hline, hreturn, htab, hnul, hprintable]

theorem isItems_quoteChar_append (c : Char) (h : IsItems rest) :
    IsItems (Text.quoteChar c ++ rest) := by
  obtain ⟨-, heq, hplain⟩ | ⟨-, d, heq, hd, -⟩ | ⟨-, heq⟩ := quoteChar_cases c
  · rw [heq]
    exact .plain hplain h
  · rw [heq]
    exact .escaped hd h
  · rw [heq]
    have htail : IsPlain ('\x7b' :: Nat.toDigits 16 c.toNat ++ ['\x7d']) :=
      (List.forall_mem_cons.1 (isPlain_codePoint c)).2
    exact .escaped (by decide) (htail.isItems_append h)

theorem unescape_quoteChar_append (c : Char) (rest : List Char) :
    unescape (Text.quoteChar c ++ rest) = readBack c ++ unescape rest := by
  unfold readBack
  obtain ⟨hback, heq, -, hslash, -⟩ | ⟨hback, d, heq, -, hread⟩ | ⟨hback, heq⟩ := quoteChar_cases c
  · rw [heq, if_pos hback]
    exact unescape_append (by simpa using hslash.symm) rest
  · rw [heq, if_pos hback]
    exact hread rest
  · rw [heq, hback, if_neg (by decide)]
    have htail : '\\' ∉ '\x7b' :: Nat.toDigits 16 c.toNat ++ ['\x7d'] := fun hmem =>
      (isPlain_codePoint c '\\' (List.mem_cons_of_mem _ hmem)).2.1 rfl
    exact congrArg ('u' :: ·) (unescape_append htail rest)

/-- A quoted text stands between its quotes as a literal does. -/
theorem isItems_flatMap (s : List Char) : IsItems (s.flatMap Text.quoteChar) := by
  induction s with
  | nil => exact .manyNil
  | cons c s ih => exact isItems_quoteChar_append c ih

theorem unescape_flatMap (s : List Char) :
    unescape (s.flatMap Text.quoteChar) = s.flatMap readBack := by
  induction s with
  | nil => rfl
  | cons c s ih => rw [List.flatMap_cons, unescape_quoteChar_append, ih, List.flatMap_cons]

theorem length_le_readBack (s : List Char) : s.length ≤ (s.flatMap readBack).length := by
  induction s with
  | nil => exact Nat.le_refl _
  | cons c s ih =>
    have hone : 1 ≤ (readBack c).length := by
      unfold readBack
      split <;> simp [codePoint]
    rw [List.flatMap_cons, List.length_append, List.length_cons]
    omega

/-- A text is read back as it is exactly if each of its characters is. -/
theorem flatMap_readBack_eq_self_iff :
    s.flatMap readBack = s ↔ ∀ c ∈ s, isWrittenBack c = true := by
  induction s with
  | nil => simp
  | cons c s ih =>
    rw [List.flatMap_cons, List.forall_mem_cons]
    cases hback : isWrittenBack c with
    | true => simp [readBack, hback, ih]
    | false =>
      -- The writing of a code point is longer than the character, and nothing else is shorter.
      refine iff_of_false (fun heq => ?_) (by simp)
      have hlength := congrArg List.length heq
      have hle := length_le_readBack s
      simp only [readBack, hback, codePoint, Bool.false_eq_true, if_false, List.length_append,
        List.length_cons] at hlength
      omega

end SchemaGraph
