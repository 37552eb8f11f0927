import SchemaGraph.Proofs.Lexical.Longest
import SchemaGraph.Token.Scan
/-!
# The first token of a text and its lexemes

`munch` finds the longest match of all classes: what it finds is the longest match of its class
(`longest_of_munch`), and a class is found if the longest matches of the others are shorter
(`munch_eq_some`). The first character of a text leaves few classes to compare
(`TokenClass.starts_of_matches`), so that names, numbers, literals and marks are read back from
texts in which they stand first (`firstToken_name` and the lemmas after it). A text that starts with
a token and has no line feed in it gives this token and then the lexemes of what follows
(`lexemesFrom_token`). `Lexes` has one case for each step through a text that can be read.
-/

namespace SchemaGraph

open Lexical

variable {cs s rest : List Char} {c : Char} {n : Nat} {k : TokenClass}

namespace TokenClass

/-! ## Texts of the classes -/

@[simp] theorem matches_exactly : (Pattern.exactly c).Matches s ↔ s = [c] := by
  simp [Pattern.exactly]

/-- A text of several characters that pass a test. -/
theorem matches_many_one {test : Char → Bool} :
    (Pattern.many (.one test)).Matches s ↔ ∀ c ∈ s, test c = true := by
  induction s with
  | nil => simp [Pattern.Matches.manyNil]
  | cons c s ih =>
    rw [Pattern.matches_many_cons, List.forall_mem_cons, ← ih]
    constructor
    · rintro ⟨u, v, rfl, hu, hv⟩
      obtain ⟨_, htest, heq⟩ := Pattern.matches_one.1 hu
      obtain ⟨rfl, rfl⟩ := List.cons.inj heq
      exact ⟨htest, hv⟩
    · rintro ⟨htest, hs⟩
      exact ⟨[], s, rfl, .one htest, hs⟩

theorem matches_some1_one {test : Char → Bool} :
    (Pattern.some1 (.one test)).Matches s ↔ s ≠ [] ∧ ∀ c ∈ s, test c = true := by
  unfold Pattern.some1
  rw [Pattern.matches_seq]
  constructor
  · rintro ⟨_, v, rfl, hu, hv⟩
    obtain ⟨c, hc, rfl⟩ := Pattern.matches_one.1 hu
    exact ⟨by simp, List.forall_mem_cons.2 ⟨hc, matches_many_one.1 hv⟩⟩
  · rintro ⟨hne, hs⟩
    obtain ⟨c, s, rfl⟩ := List.exists_cons_of_ne_nil hne
    obtain ⟨hc, hs⟩ := List.forall_mem_cons.1 hs
    exact ⟨[c], s, rfl, .one hc, matches_many_one.2 hs⟩

/-- A name: one character that may start it, and others that may continue it. -/
theorem matches_ident : ident.pattern.Matches s ↔
    ∃ c t, s = c :: t ∧ isWordStart c = true ∧ ∀ d ∈ t, isWordChar d = true := by
  rw [pattern, Pattern.matches_seq]
  constructor
  · rintro ⟨_, v, rfl, hu, hv⟩
    obtain ⟨c, hc, rfl⟩ := Pattern.matches_one.1 hu
    exact ⟨c, v, rfl, hc, matches_many_one.1 hv⟩
  · rintro ⟨c, t, rfl, hc, ht⟩
    exact ⟨[c], t, rfl, .one hc, matches_many_one.2 ht⟩

/-- A number is made of decimal digits, or has a letter after its first digits. -/
theorem matches_int (h : int.pattern.Matches s) :
    (s ≠ [] ∧ ∀ c ∈ s, isDigit c = true) ∨
      ∃ c t, s = '0' :: c :: t ∧ (c = 'x' ∨ c = 'X') := by
  rw [pattern, Pattern.matches_either] at h
  rcases h with h | h
  · obtain ⟨_, v, rfl, hu, hv⟩ := Pattern.matches_seq.1 h
    obtain rfl := matches_exactly.1 hu
    obtain ⟨_, w, rfl, hx, -⟩ := Pattern.matches_seq.1 hv
    obtain ⟨c, hc, rfl⟩ := Pattern.matches_one.1 hx
    exact .inr ⟨c, w, rfl, by simpa using hc⟩
  · exact .inl (matches_some1_one.1 h)

/-- A floating-point number has a dot or an exponent after its first digits. -/
theorem matches_float (h : float.pattern.Matches s) :
    ∃ ds c t, s = ds ++ c :: t ∧ (∀ d ∈ ds, isDigit d = true) ∧
      (c = '.' ∧ (ds = [] → ∃ d ∈ t.head?, isDigit d = true) ∨
        (c = 'e' ∨ c = 'E') ∧ ds ≠ []) := by
  rw [pattern, Pattern.matches_either, Pattern.matches_either] at h
  rcases h with h | h | h
  · obtain ⟨ds, v, rfl, hds, hv⟩ := Pattern.matches_seq.1 h
    obtain ⟨hne, hds⟩ := matches_some1_one.1 hds
    obtain ⟨_, w, rfl, hdot, -⟩ := Pattern.matches_seq.1 hv
    obtain rfl := matches_exactly.1 hdot
    exact ⟨ds, '.', w, rfl, hds, .inl ⟨rfl, fun hnil => absurd hnil hne⟩⟩
  · obtain ⟨ds, v, rfl, hds, hv⟩ := Pattern.matches_seq.1 h
    obtain ⟨hne, hds⟩ := matches_some1_one.1 hds
    obtain ⟨_, w, rfl, he, -⟩ := Pattern.matches_seq.1 hv
    obtain ⟨c, hc, rfl⟩ := Pattern.matches_one.1 he
    exact ⟨ds, c, w, rfl, hds, .inr ⟨by simpa using hc, hne⟩⟩
  · obtain ⟨_, v, rfl, hdot, hv⟩ := Pattern.matches_seq.1 h
    obtain rfl := matches_exactly.1 hdot
    obtain ⟨ds, w, rfl, hds, -⟩ := Pattern.matches_seq.1 hv
    obtain ⟨hne, hds⟩ := matches_some1_one.1 hds
    obtain ⟨d, ds, rfl⟩ := List.exists_cons_of_ne_nil hne
    exact ⟨[], '.', _, rfl, by simp, .inl ⟨rfl, fun _ => ⟨d, by simp, hds d List.mem_cons_self⟩⟩⟩

/-! ## First characters -/

/-- The character with which all texts of the class start, if there is one. -/
def opener? : TokenClass → Option Char
  | lineComment | blockOpener => some '/'
  | str quote => some quote
  | mark m => some m.char
  | ident | int | float => none

/-- Whether a text of the class can start with the character. -/
def starts (c : Char) : TokenClass → Bool
  | ident => isWordStart c
  | int => isDigit c
  | float => isDigit c || c == '.'
  | k => k.opener? == some c

theorem starts_of_matches (h : k.pattern.Matches s) : ∃ c t, s = c :: t ∧ k.starts c = true := by
  cases k with
  | lineComment =>
    obtain ⟨_, v, rfl, hword, -⟩ := Pattern.matches_seq.1 h
    obtain ⟨_, w, rfl, hslash, -⟩ := Pattern.matches_seq.1 hword
    obtain rfl := matches_exactly.1 hslash
    exact ⟨'/', _, rfl, rfl⟩
  | blockOpener =>
    obtain ⟨_, w, rfl, hslash, -⟩ := Pattern.matches_seq.1 h
    obtain rfl := matches_exactly.1 hslash
    exact ⟨'/', _, rfl, rfl⟩
  | ident =>
    obtain ⟨c, t, rfl, hc, -⟩ := matches_ident.1 h
    exact ⟨c, t, rfl, hc⟩
  | int =>
    rcases matches_int h with ⟨hne, hs⟩ | ⟨c, t, rfl, -⟩
    · obtain ⟨c, t, rfl⟩ := List.exists_cons_of_ne_nil hne
      exact ⟨c, t, rfl, hs c List.mem_cons_self⟩
    · exact ⟨'0', c :: t, rfl, by decide⟩
  | float =>
    obtain ⟨ds, c, t, rfl, hds, hc⟩ := matches_float h
    cases ds with
    | nil =>
      rcases hc with ⟨rfl, -⟩ | ⟨-, hne⟩
      · exact ⟨'.', t, rfl, by decide⟩
      · exact absurd rfl hne
    | cons d ds => exact ⟨d, _, rfl, by simp [starts, hds d List.mem_cons_self]⟩
  | str quote =>
    obtain ⟨_, v, rfl, hquote, -⟩ := Pattern.matches_seq.1 h
    obtain rfl := matches_exactly.1 hquote
    exact ⟨quote, v, rfl, by simp [starts, opener?]⟩
  | mark m =>
    obtain rfl := matches_exactly.1 h
    exact ⟨m.char, [], rfl, by simp [starts, opener?]⟩

/-- A class that cannot start with the first character has no match. -/
theorem longest_eq_none (h : k.starts c = false) : k.pattern.longest (c :: cs) = none := by
  refine Pattern.longest_eq_none_iff.2 fun m _ hm => ?_
  obtain ⟨d, t, heq, hd⟩ := starts_of_matches hm
  cases m with
  | zero => cases heq
  | succ m =>
    obtain ⟨rfl, -⟩ := List.cons.inj heq
    rw [h] at hd
    cases hd

/-- A class whose texts all start with one character is not that of a name or a number. -/
theorem isWordChar_opener (hk : k ∈ all) (hc : k.opener? = some c) : isWordChar c = false := by
  have hall : (all.all fun k => k.opener?.all fun c => !isWordChar c) = true := by decide
  have hopener := List.all_eq_true.1 hall k hk
  rw [hc] at hopener
  simpa using hopener

theorem isWordChar_of_isWordStart (h : isWordStart c = true) : isWordChar c = true := by
  rw [isWordChar, h, Bool.true_or]

theorem isWordChar_of_isDigit (h : isDigit c = true) : isWordChar c = true := by
  rw [isWordChar, h, Bool.or_true]

theorem isDigit_of_isWordStart (h : isWordStart c = true) : isDigit c = false := by
  simp only [isWordStart, isDigit, Bool.or_eq_true, Bool.and_eq_true, decide_eq_true_eq, beq_iff_eq,
    Bool.and_eq_false_iff, decide_eq_false_iff_not, Char.le_def, UInt32.le_iff_toNat_le] at h ⊢
  rcases h with (h | h) | rfl
  · have hless : ('9'.val).toNat < ('A'.val).toNat := by decide
    omega
  · have hless : ('9'.val).toNat < ('a'.val).toNat := by decide
    omega
  · decide

/-- A character that can continue a name starts only names and numbers. -/
theorem opener?_eq_none (hk : k ∈ all) (hc : isWordChar c = true) (h : k.starts c = true) :
    k.opener? = none := by
  have hnot (hopener : k.opener? = some c) : k.opener? = none := by
    rw [isWordChar_opener hk hopener] at hc
    cases hc
  cases k with
  | ident | int | float => rfl
  | lineComment | blockOpener | str | mark => exact hnot (by simpa [starts] using h)

end TokenClass

/-! ## The best match -/

/-- The best of several matches is one of them. -/
theorem mem_of_foldr_betterMatch {ks : List TokenClass} {f : TokenClass → Option Nat}
    (h : (ks.map fun k => (f k).map (k, ·)).foldr betterMatch none = some (k, n)) :
    k ∈ ks ∧ f k = some n := by
  induction ks with
  | nil => cases h
  | cons k' ks ih =>
    rw [List.map_cons, List.foldr_cons] at h
    generalize (ks.map fun k => (f k).map (k, ·)).foldr betterMatch none = best at h ih
    have hothers (hbest : best = some (k, n)) : k ∈ k' :: ks ∧ f k = some n :=
      ⟨List.mem_cons_of_mem _ (ih hbest).1, (ih hbest).2⟩
    have hfirst {m : Nat} (hm : f k' = some m) (heq : some (k', m) = some (k, n)) :
        k ∈ k' :: ks ∧ f k = some n := by
      cases heq
      exact ⟨List.mem_cons_self, hm⟩
    cases hf : f k' with
    | none =>
      rw [hf] at h
      exact hothers h
    | some m =>
      rw [hf, Option.map_some] at h
      cases best with
      | none => exact hfirst hf h
      | some best =>
        rw [betterMatch] at h
        split at h
        · exact hothers h
        · exact hfirst hf h

/-- The best of several matches is the one that is longer than all others. -/
theorem foldr_betterMatch_eq_some {ks : List TokenClass} {f : TokenClass → Option Nat}
    (hk : k ∈ ks) (hn : f k = some n) (hmax : ∀ k' ∈ ks, k' ≠ k → ∀ m, f k' = some m → m < n) :
    (ks.map fun k => (f k).map (k, ·)).foldr betterMatch none = some (k, n) := by
  induction ks with
  | nil => cases hk
  | cons k' ks ih =>
    rw [List.map_cons, List.foldr_cons]
    by_cases heq : k' = k
    · subst heq
      rw [hn, Option.map_some]
      cases hbest : (ks.map fun k => (f k).map (k, ·)).foldr betterMatch none with
      | none => rfl
      | some best =>
        obtain ⟨hmem, hm⟩ := mem_of_foldr_betterMatch hbest
        have hle : ¬ n < best.2 := by
          by_cases hsame : best.1 = k'
          · rw [hsame, hn] at hm
            rw [Option.some.inj hm]
            exact Nat.lt_irrefl _
          · exact Nat.lt_asymm (hmax _ (List.mem_cons_of_mem _ hmem) hsame _ hm)
        simp [betterMatch, hle]
    · rw [ih ((List.mem_cons.1 hk).resolve_left (Ne.symm heq)) fun c hc =>
        hmax c (List.mem_cons_of_mem _ hc)]
      cases hf : f k' with
      | none => rfl
      | some m => simp [betterMatch, hmax k' List.mem_cons_self heq m hf]

theorem longest_of_munch (h : munch cs = some (k, n)) : k.pattern.longest cs = some n :=
  (mem_of_foldr_betterMatch h).2

/-- A class whose longest match is longer than those of the others is found. -/
theorem munch_eq_some (hk : k ∈ TokenClass.all) (hn : k.pattern.longest cs = some n)
    (hmax : ∀ k' ∈ TokenClass.all, k' ≠ k → ∀ m, k'.pattern.longest cs = some m → m < n) :
    munch cs = some (k, n) :=
  foldr_betterMatch_eq_some hk hn hmax

theorem firstToken_of_munch (h : munch cs = some (k, n)) (hk : k ≠ .blockOpener) :
    firstToken cs = .ok (decodeToken k (cs.take n), n) := by
  unfold firstToken
  rw [h]
  cases k with
  | blockOpener => exact absurd rfl hk
  | _ => rfl

/-- The longest match of a class is read if no other class that can start with the first character
has a match. -/
theorem firstToken_append (hhead : s.head? = some c) (hk : k ∈ TokenClass.all)
    (hopener : k ≠ .blockOpener) (hn : k.pattern.longest (s ++ rest) = some s.length)
    (hothers : ∀ k' ∈ TokenClass.all, k' ≠ k → k'.starts c = true →
      k'.pattern.longest (s ++ rest) = none) :
    firstToken (s ++ rest) = .ok (decodeToken k s, s.length) := by
  have hmunch : munch (s ++ rest) = some (k, s.length) := by
    refine munch_eq_some hk hn fun k' hk' hne m hm => ?_
    cases hstarts : k'.starts c with
    | false =>
      obtain ⟨t, rfl⟩ := List.head?_eq_some_iff.1 hhead
      rw [List.cons_append, TokenClass.longest_eq_none hstarts] at hm
      cases hm
    | true =>
      rw [hothers k' hk' hne hstarts] at hm
      cases hm
  rw [firstToken_of_munch hmunch hopener, List.take_left]

/-! ## Names, numbers, literals and marks -/

/-- A text that can be read as a name. -/
def IsName (s : List Char) : Prop :=
  ∃ c t, s = c :: t ∧ TokenClass.isWordStart c = true ∧ ∀ d ∈ t, TokenClass.isWordChar d = true

theorem IsName.isWordChar (h : IsName s) : ∀ c ∈ s, TokenClass.isWordChar c = true := by
  obtain ⟨c, t, rfl, hc, ht⟩ := h
  exact List.forall_mem_cons.2 ⟨TokenClass.isWordChar_of_isWordStart hc, ht⟩

/-- What is read as a name can be read as one. -/
theorem isName_of_firstToken {name : String} (h : firstToken cs = .ok (.ident name, n)) :
    IsName name.toList := by
  unfold firstToken at h
  split at h
  · split at h
    · cases h
    · simp [decodeToken] at h
  · rename_i k m _ hmunch
    rw [Except.ok.injEq, Prod.mk.injEq] at h
    have hmatches := Pattern.matches_of_longest (longest_of_munch hmunch)
    cases k with
    | ident =>
      rw [← Token.ident.inj h.1, String.toList_ofList]
      exact TokenClass.matches_ident.1 hmatches
    | lineComment | blockOpener | int | float | str | mark => simp [decodeToken] at h
  · split at h
    · split at h <;> cases h
    · cases h

/-- What passes a test ends where the next character does not. -/
theorem le_length_of_all {test : Char → Bool} {m : Nat} (hrest : ∀ c ∈ rest.head?, test c = false)
    (hm : m ≤ (s ++ rest).length) (h : ∀ c ∈ (s ++ rest).take m, test c = true) :
    m ≤ s.length := by
  refine Nat.le_of_not_lt fun hlt => ?_
  obtain ⟨k, hk⟩ := Nat.exists_eq_add_of_lt hlt
  cases rest with
  | nil =>
    rw [List.append_nil] at hm
    omega
  | cons c rest =>
    have hmem : c ∈ (s ++ c :: rest).take m := by
      rw [hk, Nat.add_assoc, List.take_length_add_append, List.take_succ_cons]
      simp
    have hpasses := h c hmem
    rw [hrest c (by simp)] at hpasses
    cases hpasses

/-- The character after what passes a test is determined by the whole. -/
theorem head?_of_take_eq {test : Char → Bool} {m : Nat} {u t : List Char}
    (hs : ∀ c ∈ s, test c = true) (hrest : ∀ c ∈ rest.head?, test c = false)
    (hu : ∀ c ∈ u, test c = true) (hc : test c = false) (h : (s ++ rest).take m = u ++ c :: t) :
    rest.head? = some c := by
  have hwhole : s ++ rest = u ++ c :: (t ++ (s ++ rest).drop m) := by
    rw [← List.cons_append, ← List.append_assoc, ← h, List.take_append_drop]
  have hdrop := congrArg (List.dropWhile test) hwhole
  rw [List.dropWhile_append_of_pos hs, List.dropWhile_append_of_pos hu,
    List.dropWhile_cons_of_neg (by simp [hc])] at hdrop
  cases rest with
  | nil => cases hdrop
  | cons d rest =>
    rw [List.dropWhile_cons_of_neg (by simp [hrest d (by simp)])] at hdrop
    rw [(List.cons.inj hdrop).1]
    rfl

/-- A name is read up to the first character that cannot continue it. -/
theorem firstToken_name (hs : IsName s)
    (hrest : ∀ c ∈ rest.head?, TokenClass.isWordChar c = false) :
    firstToken (s ++ rest) = .ok (.ident (String.ofList s), s.length) := by
  obtain ⟨c, t, rfl, hc, ht⟩ := hs
  have hlongest : TokenClass.ident.pattern.longest ((c :: t) ++ rest) = some (c :: t).length := by
    refine Pattern.longest_eq_some_iff.2 ⟨by simp, ?_, fun m hm hmatches => ?_⟩
    · rw [List.take_left]
      exact TokenClass.matches_ident.2 ⟨c, t, rfl, hc, ht⟩
    · exact le_length_of_all hrest hm (IsName.isWordChar (TokenClass.matches_ident.1 hmatches))
  refine firstToken_append rfl (by decide) (by simp) hlongest fun k hk hne hstarts => ?_
  have hopener := TokenClass.opener?_eq_none hk (TokenClass.isWordChar_of_isWordStart hc) hstarts
  have hdigit := TokenClass.isDigit_of_isWordStart hc
  cases k with
  | ident => exact absurd rfl hne
  | int => simp [TokenClass.starts, hdigit] at hstarts
  | float =>
    simp only [TokenClass.starts, hdigit, Bool.false_or, beq_iff_eq] at hstarts
    rw [hstarts] at hc
    exact absurd hc (by decide)
  | lineComment | blockOpener | str | mark => cases hopener

/-- A number is read up to the blank after it. -/
theorem firstToken_number (hne : s ≠ []) (hs : ∀ c ∈ s, TokenClass.isDigit c = true)
    (hrest : ∀ c ∈ rest.head?, isSeparator c = true) :
    firstToken (s ++ rest) = .ok (.int (String.ofList s), s.length) := by
  have hblank : ∀ c ∈ rest.head?, c ∉ ['.', 'e', 'E', 'x', 'X'] := by
    intro c hc hmem
    have hall : ['.', 'e', 'E', 'x', 'X'].all (!isSeparator ·) = true := by decide
    have hnot := List.all_eq_true.1 hall c hmem
    rw [hrest c hc] at hnot
    cases hnot
  have hstop : ∀ c ∈ rest.head?, TokenClass.isDigit c = false := by
    intro c hc
    have hsep := hrest c hc
    simp only [isSeparator, Bool.or_eq_true, beq_iff_eq] at hsep
    rcases hsep with (((rfl | rfl) | rfl) | rfl) | rfl <;> decide
  have hlongest : TokenClass.int.pattern.longest (s ++ rest) = some s.length := by
    refine Pattern.longest_eq_some_iff.2 ⟨by simp, ?_, fun m hm hmatches => ?_⟩
    · rw [List.take_left]
      exact .right (TokenClass.matches_some1_one.2 ⟨hne, hs⟩)
    · rcases TokenClass.matches_int hmatches with ⟨-, hdigits⟩ | ⟨c, t, heq, hc⟩
      · exact le_length_of_all hstop hm hdigits
      · -- A number in another base goes on with a letter, and a blank is none.
        have hnot : TokenClass.isDigit c = false := by rcases hc with rfl | rfl <;> decide
        have hzero : ∀ c ∈ ['0'], TokenClass.isDigit c = true :=
          List.forall_mem_singleton.2 (by decide)
        have hhead := head?_of_take_eq hs hstop (u := ['0']) hzero hnot heq
        rcases hc with rfl | rfl <;> exact absurd (by decide) (hblank _ hhead)
  obtain ⟨c, t, rfl⟩ := List.exists_cons_of_ne_nil hne
  have hc := hs c List.mem_cons_self
  refine firstToken_append rfl (by decide) (by simp) hlongest fun k hk hne hstarts => ?_
  have hopener := TokenClass.opener?_eq_none hk (TokenClass.isWordChar_of_isDigit hc) hstarts
  cases k with
  | int => exact absurd rfl hne
  | ident =>
    rw [TokenClass.isDigit_of_isWordStart hstarts] at hc
    cases hc
  | float =>
    refine Pattern.longest_eq_none_iff.2 fun m _ hmatches => ?_
    obtain ⟨ds, d, t', heq, hds, hd⟩ := TokenClass.matches_float hmatches
    have hnot : TokenClass.isDigit d = false := by
      rcases hd with ⟨rfl, -⟩ | ⟨rfl | rfl, -⟩ <;> decide
    have hhead := head?_of_take_eq hs hstop hds hnot heq
    rcases hd with ⟨rfl, -⟩ | ⟨rfl | rfl, -⟩ <;> exact absurd (by decide) (hblank _ hhead)
  | lineComment | blockOpener | str | mark => cases hopener

/-! A literal ends at the first quote. -/

/-- The characters can stand between the double quotes of a literal: a quote or a backslash only
behind a backslash, and no line feed. -/
abbrev IsItems (s : List Char) : Prop :=
  (Pattern.many (TokenClass.strItem '"')).Matches s

/-- The first item of a literal is a plain character, or a backslash with the one after it. -/
theorem IsItems.cons_cases (h : IsItems (c :: s)) :
    (c ≠ '"' ∧ c ≠ '\\' ∧ c ≠ '\n') ∧ IsItems s ∨
      ∃ d t, c = '\\' ∧ s = d :: t ∧ d ≠ '\n' ∧ IsItems t := by
  obtain ⟨u, v, rfl, hitem, hv⟩ := Pattern.matches_many_cons.1 h
  rcases Pattern.matches_either.1 hitem with hitem | hitem
  · obtain ⟨d, hd, heq⟩ := Pattern.matches_one.1 hitem
    obtain ⟨rfl, rfl⟩ := List.cons.inj heq
    exact .inl ⟨by simpa [and_assoc] using hd, hv⟩
  · obtain ⟨_, w, heq, hslash, hw⟩ := Pattern.matches_seq.1 hitem
    obtain ⟨d, hd, rfl⟩ := Pattern.matches_one.1 hw
    rw [TokenClass.matches_exactly.1 hslash] at heq
    obtain ⟨rfl, rfl⟩ := List.cons.inj heq
    exact .inr ⟨d, v, rfl, rfl, by simpa using hd, hv⟩

theorem IsItems.plain (hc : c ≠ '"' ∧ c ≠ '\\' ∧ c ≠ '\n') (h : IsItems s) : IsItems (c :: s) :=
  .manyCons (s := [c]) (.left (.one (by simp [hc]))) h

theorem IsItems.escaped (hc : c ≠ '\n') (h : IsItems s) : IsItems ('\\' :: c :: s) :=
  have hitem : (TokenClass.strItem '"').Matches (['\\'] ++ [c]) :=
    .right (.seq (TokenClass.matches_exactly.2 rfl) (.one (by simp [hc])))
  .manyCons hitem h

/-- What stands in a literal that starts with some items and a quote ends with these items. -/
theorem IsItems.length_le {u t v : List Char} (hs : IsItems s) (hu : IsItems u)
    (heq : u ++ t = s ++ '"' :: v) : u.length ≤ s.length := by
  induction hn : u.length using Nat.strongRecOn generalizing u s with
  | _ n ih =>
    subst hn
    cases u with
    | nil => exact Nat.zero_le _
    | cons c u =>
      cases s with
      | nil =>
        -- No item of a literal starts with the quote.
        obtain ⟨rfl, -⟩ := List.cons.inj heq
        rcases hu.cons_cases with ⟨hc, -⟩ | ⟨_, _, hc, -⟩
        · exact absurd rfl hc.1
        · exact absurd hc (by decide)
      | cons d s =>
        obtain ⟨rfl, htail⟩ := List.cons.inj heq
        rcases hu.cons_cases with ⟨hc, hu⟩ | ⟨e, u, rfl, rfl, -, hu⟩
        · rcases hs.cons_cases with ⟨-, hs⟩ | ⟨_, _, hslash, -⟩
          · exact Nat.succ_le_succ (ih u.length (Nat.lt_succ_self _) hs hu htail rfl)
          · exact absurd hslash hc.2.1
        · rcases hs.cons_cases with ⟨hc, -⟩ | ⟨e', s, -, rfl, -, hs⟩
          · exact absurd rfl hc.2.1
          · obtain ⟨-, htail⟩ := List.cons.inj htail
            have hless : u.length < ('\\' :: e :: u).length :=
              Nat.lt_succ_of_lt (Nat.lt_succ_self _)
            exact Nat.succ_le_succ (Nat.succ_le_succ (ih u.length hless hs hu htail rfl))

/-- Items between double quotes are read as the literal of what they stand for. -/
theorem firstToken_items (hs : IsItems s) :
    firstToken ('"' :: s ++ '"' :: rest) =
      .ok (.str (String.ofList (unescape s)), s.length + 2) := by
  have hquote : (Pattern.exactly '"').Matches ['"'] := TokenClass.matches_exactly.2 rfl
  have hwhole := Pattern.Matches.seq hquote (.seq hs hquote)
  have hlongest : (TokenClass.str '"').pattern.longest (('"' :: s ++ ['"']) ++ rest) =
      some ('"' :: s ++ ['"']).length := by
    refine Pattern.longest_eq_some_iff.2 ⟨by simp, ?_, fun m hm hmatches => ?_⟩
    · rw [List.take_left]
      exact hwhole
    · obtain ⟨_, w, htake, hquote, hw⟩ := Pattern.matches_seq.1 hmatches
      obtain ⟨u, _, rfl, hu, hlast⟩ := Pattern.matches_seq.1 hw
      -- A longer match has items that go past the quote after the text.
      obtain rfl := TokenClass.matches_exactly.1 hquote
      obtain rfl := TokenClass.matches_exactly.1 hlast
      have htext := List.take_append_drop m (('"' :: s ++ ['"']) ++ rest)
      rw [htake] at htext
      simp only [List.cons_append, List.nil_append, List.append_assoc, List.cons.injEq,
        true_and] at htext
      have hle := hs.length_le hu htext
      have hlength := congrArg List.length htake
      rw [List.length_take, Nat.min_eq_left hm] at hlength
      simp only [List.length_append, List.length_cons, List.length_nil] at hlength ⊢
      omega
  have hread := firstToken_append (c := '"') rfl (by decide) (by simp) hlongest
    fun k hk hne hstarts => by
      have hall : ∀ k ∈ TokenClass.all, k.starts '"' = true → k = .str '"' := by decide
      exact absurd (hall k hk hstarts) hne
  rw [List.append_assoc, List.cons_append, List.singleton_append] at hread
  rw [List.cons_append, hread, decodeToken]
  simp

/-- A text that a literal between double quotes can hold as it is. -/
def IsPlain (s : List Char) : Prop :=
  ∀ c ∈ s, c ≠ '"' ∧ c ≠ '\\' ∧ c ≠ '\n'

theorem IsPlain.isItems_append (hs : IsPlain s) (h : IsItems rest) : IsItems (s ++ rest) := by
  induction s with
  | nil => exact h
  | cons c s ih =>
    obtain ⟨hc, hs⟩ := List.forall_mem_cons.1 hs
    exact .plain hc (ih hs)

/-- What is written without a backslash stands for itself. -/
theorem unescape_append (hs : '\\' ∉ s) (rest : List Char) :
    unescape (s ++ rest) = s ++ unescape rest := by
  induction s with
  | nil => rfl
  | cons c s ih =>
    obtain ⟨hc, hs⟩ := not_or.1 (mt List.mem_cons.2 hs)
    rw [List.cons_append, unescape, ih hs]
    · rfl
    · exact fun _ _ heq => absurd heq.symm hc
    · exact fun heq _ => absurd heq.symm hc

/-- A plain text between double quotes is read as the literal of this text. -/
theorem firstToken_literal (hs : IsPlain s) :
    firstToken ('"' :: s ++ '"' :: rest) = .ok (.str (String.ofList s), s.length + 2) := by
  have hvalue : unescape (s ++ []) = s ++ [] := unescape_append (fun h => (hs _ h).2.1 rfl) []
  have hitems : IsItems (s ++ []) := hs.isItems_append .manyNil
  rw [List.append_nil] at hvalue hitems
  rw [firstToken_items hitems, hvalue]

/-- A mark is read when nothing longer starts with it: a slash may start a comment, and a dot before
a digit a number. -/
theorem firstToken_mark {m : Mark} (hslash : m ≠ .slash)
    (hdot : m = .dot → ∀ c ∈ rest.head?, TokenClass.isDigit c = false) :
    firstToken (m.char :: rest) = .ok (.mark m, 1) := by
  have hmem : TokenClass.mark m ∈ TokenClass.all :=
    List.mem_append_right _ (List.mem_map_of_mem (by cases m <;> decide))
  have hlongest : (TokenClass.mark m).pattern.longest ([m.char] ++ rest) = some 1 := by
    refine Pattern.longest_eq_some_iff.2 ⟨by simp, ?_, fun n hn hmatches => ?_⟩
    · exact TokenClass.matches_exactly.2 rfl
    · have hlength := congrArg List.length (TokenClass.matches_exactly.1 hmatches)
      rw [List.length_take, Nat.min_eq_left hn] at hlength
      exact Nat.le_of_eq hlength
  refine firstToken_append rfl hmem (by simp) hlongest fun k hk hne hstarts => ?_
  have hall : ∀ m ∈ Mark.all, ∀ k ∈ TokenClass.all, k.starts m.char = true →
      k = .mark m ∨ m = .slash ∨ (m = .dot ∧ k = .float) := by
    decide
  rcases hall m (by cases m <;> decide) k hk hstarts with rfl | rfl | ⟨rfl, rfl⟩
  · exact absurd rfl hne
  · exact absurd rfl hslash
  · refine Pattern.longest_eq_none_iff.2 fun n _ hmatches => ?_
    obtain ⟨ds, c, t, heq, hds, hc⟩ := TokenClass.matches_float hmatches
    cases n with
    | zero => simp at heq
    | succ n =>
      rw [List.singleton_append, List.take_succ_cons] at heq
      cases ds with
      | nil =>
        obtain ⟨-, rfl⟩ := List.cons.inj heq
        rcases hc with ⟨-, hdigit⟩ | ⟨-, hne⟩
        · obtain ⟨d, hd, hpasses⟩ := hdigit rfl
          have hhead : d ∈ rest.head? := by
            cases n with
            | zero => simp at hd
            | succ n => rwa [List.head?_take, if_neg (Nat.succ_ne_zero n)] at hd
          rw [hdot rfl d hhead] at hpasses
          cases hpasses
        · exact absurd rfl hne
      | cons d ds =>
        obtain ⟨rfl, -⟩ := List.cons.inj heq
        exact absurd (hds _ List.mem_cons_self) (by decide)

/-! ## The lexemes of a text -/

variable {offset line : Nat} {token : Token}

/-- The characters of a token already taken are passed over. -/
theorem lexemesFrom_skip (h : ∀ c ∈ s, c ≠ '\n') :
    lexemesFrom offset line s.length (s ++ rest) =
      lexemesFrom (offset + byteLength s) line 0 rest := by
  induction s generalizing offset with
  | nil => rfl
  | cons c s ih =>
    obtain ⟨hc, hs⟩ := List.forall_mem_cons.1 h
    have hsize : byteLength (c :: s) = c.utf8Size + byteLength s := rfl
    rw [List.length_cons, List.cons_append, lexemesFrom, nextLine, if_neg hc, ih hs, hsize,
      Nat.add_assoc]

/-- One token of a text on one line. -/
theorem lexemesFrom_token (hne : s ≠ []) (hline : ∀ c ∈ s, c ≠ '\n')
    (hstart : ∀ c ∈ s.head?, isSeparator c = false)
    (h : firstToken (s ++ rest) = .ok (token, s.length)) :
    lexemesFrom offset line 0 (s ++ rest) =
      (lexemesFrom (offset + byteLength s) line 0 rest).map fun lexemes =>
        ⟨token, ⟨offset, offset + byteLength s⟩, line⟩ :: lexemes := by
  obtain ⟨c, s, rfl⟩ := List.exists_cons_of_ne_nil hne
  obtain ⟨hc, hs⟩ := List.forall_mem_cons.1 hline
  have hskip : lexemesFrom (offset + c.utf8Size) line s.length (s ++ rest) =
      lexemesFrom (offset + c.utf8Size + byteLength s) line 0 rest := lexemesFrom_skip hs
  have hsize : byteLength (c :: s) = c.utf8Size + byteLength s := rfl
  rw [List.cons_append] at h ⊢
  rw [lexemesFrom, hstart c rfl, h]
  simp only [Bool.false_eq_true, if_false, nextLine, if_neg hc, List.length_cons,
    Nat.add_sub_cancel]
  rw [hskip, hsize, Nat.add_assoc, ← List.cons_append, ← List.length_cons, List.take_left, hsize]

theorem lexemesFrom_space :
    lexemesFrom offset line 0 (' ' :: rest) = lexemesFrom (offset + 1) line 0 rest :=
  rfl

/-- The lexemes of a text that can be read, one case for each step through it. -/
inductive Lexes : (offset line skip : Nat) → List Char → List Lexeme → Prop where
  | nil {offset line skip : Nat} : Lexes offset line skip [] []
  /-- A character of a token already taken. -/
  | taken {offset line skip : Nat} {c : Char} {cs : List Char} {lexemes : List Lexeme}
      (others : Lexes (offset + c.utf8Size) (nextLine c line) skip cs lexemes) :
      Lexes offset line (skip + 1) (c :: cs) lexemes
  | separator {offset line : Nat} {c : Char} {cs : List Char} {lexemes : List Lexeme}
      (hc : isSeparator c = true)
      (others : Lexes (offset + c.utf8Size) (nextLine c line) 0 cs lexemes) :
      Lexes offset line 0 (c :: cs) lexemes
  | token {offset line n : Nat} {c : Char} {cs : List Char} {lexemes : List Lexeme} {token : Token}
      (hc : ¬ isSeparator c = true) (hfirst : firstToken (c :: cs) = .ok (token, n))
      (others : Lexes (offset + c.utf8Size) (nextLine c line) (n - 1) cs lexemes) :
      Lexes offset line 0 (c :: cs)
        (⟨token, ⟨offset, offset + byteLength ((c :: cs).take n)⟩, line⟩ :: lexemes)

theorem lexes_of_lexemesFrom {skip : Nat} {lexemes : List Lexeme}
    (h : lexemesFrom offset line skip cs = .ok lexemes) : Lexes offset line skip cs lexemes := by
  fun_induction lexemesFrom offset line skip cs generalizing lexemes with
  | case1 =>
    cases h
    exact .nil
  | case2 offset line skip c cs ih => exact .taken (ih h)
  | case3 offset line c cs hc ih => exact .separator hc (ih h)
  | case4 => cases h
  | case5 offset line c cs hc token n hfirst ih =>
    cases hothers : lexemesFrom (offset + c.utf8Size) (nextLine c line) (n - 1) cs with
    | error place =>
      rw [hothers] at h
      cases h
    | ok others =>
      rw [hothers] at h
      cases h
      exact .token hc hfirst (ih hothers)

/-- Every lexeme of a text is the first one of what is left of the text somewhere. -/
theorem exists_firstToken_of_mem {skip : Nat} {lexemes : List Lexeme}
    (h : lexemesFrom offset line skip cs = .ok lexemes) {t : Lexeme} (ht : t ∈ lexemes) :
    ∃ rest n, firstToken rest = .ok (t.token, n) := by
  replace h := lexes_of_lexemesFrom h
  induction h with
  | nil => cases ht
  | taken _ ih | separator _ _ ih => exact ih ht
  | token _ hfirst _ ih =>
    rcases List.mem_cons.1 ht with rfl | ht
    · exact ⟨_, _, hfirst⟩
    · exact ih ht

/-- Among the lexemes of a text every name can be read as one. -/
theorem isName_of_mem_lexemesFrom {skip : Nat} {lexemes : List Lexeme}
    (h : lexemesFrom offset line skip cs = .ok lexemes) {t : Lexeme} (ht : t ∈ lexemes)
    {name : String} (hname : t.token = .ident name) : IsName name.toList := by
  obtain ⟨rest, n, hfirst⟩ := exists_firstToken_of_mem h ht
  rw [hname] at hfirst
  exact isName_of_firstToken hfirst

end SchemaGraph
