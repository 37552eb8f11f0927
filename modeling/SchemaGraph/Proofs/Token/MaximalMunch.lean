import Mathlib.Data.List.DropRight
import Mathlib.Data.List.TakeWhile
import SchemaGraph.Proofs.Token.Words
/-!
# Maximal munch

What `tokenize` answers is said by the patterns of the token classes alone. `Munched t s rest` says
that the token `t` is read from the characters `s` when `rest` follows: they are the longest text of
any class there, and `t` is what they stand for. `Tiles before text rest lexemes` says that the
lexemes cover a text up to the blanks between them. `tokenize_isMaximalMunch` puts the two together:
the lexemes of a text tile it, and a text without lexemes is tiled up to a place where no class has
a text, or where a comment is opened that has no end.
-/

namespace SchemaGraph

open Lexical

/-! ## What tokens stand for -/

/-- The text `inner` is the text `whole` without the blanks at its ends. -/
structure Trims (whole inner : List Char) : Prop where
  cut : ∃ left right, whole = left ++ inner ++ right ∧
    (∀ c ∈ left, Text.isBlank c = true) ∧ ∀ c ∈ right, Text.isBlank c = true
  head : ∀ c ∈ inner.head?, Text.isBlank c = false
  last : ∀ c ∈ inner.getLast?, Text.isBlank c = false

/-- The value of the text inside a literal, from left to right: a backslash goes with the character
after it, and the two stand for a control character or for the second of them. -/
inductive Unescapes : List Char → List Char → Prop where
  | nil : Unescapes [] []
  | plain {c : Char} {s value : List Char} (hc : c ≠ '\\') (h : Unescapes s value) :
      Unescapes (c :: s) (c :: value)
  | control {c d : Char} {s value : List Char}
      (hd : (c, d) ∈ [('n', '\n'), ('t', '\t'), ('r', '\r'), ('0', '\x00')])
      (h : Unescapes s value) : Unescapes ('\\' :: c :: s) (d :: value)
  | itself {c : Char} {s value : List Char} (hc : c ∉ ['n', 't', 'r', '0'])
      (h : Unescapes s value) : Unescapes ('\\' :: c :: s) (c :: value)

/-- `s` belongs to the class `k`, and no text of any class that starts `s ++ rest` is longer. -/
structure IsLongest (k : TokenClass) (s rest : List Char) : Prop where
  mem : k ∈ TokenClass.all
  isText : k.pattern.Matches s
  length_le : ∀ k' ∈ TokenClass.all, ∀ t, t <+: s ++ rest → k'.pattern.Matches t →
    t.length ≤ s.length

/-- The token that is read from the characters `s` when `rest` follows. A block comment goes on from
its opener to the first `*/` behind it. -/
inductive Munched : Token → (s rest : List Char) → Prop where
  | lineComment {s value rest : List Char}
      (longest : IsLongest .lineComment ('/' :: '/' :: s) rest) (trims : Trims s value) :
      Munched (.lineComment (String.ofList value)) ('/' :: '/' :: s) rest
  | blockComment {s value rest : List Char}
      (longest : IsLongest .blockOpener ['/', '*'] (s ++ '*' :: '/' :: rest))
      (first : ∀ u v, s ++ '*' :: '/' :: rest = u ++ '*' :: '/' :: v → s.length ≤ u.length)
      (trims : Trims s value) :
      Munched (.blockComment (String.ofList value)) ('/' :: '*' :: s ++ ['*', '/']) rest
  | ident {s rest : List Char} (longest : IsLongest .ident s rest) :
      Munched (.ident (String.ofList s)) s rest
  | int {s rest : List Char} (longest : IsLongest .int s rest) :
      Munched (.int (String.ofList s)) s rest
  | float {s rest : List Char} (longest : IsLongest .float s rest) :
      Munched (.float (String.ofList s)) s rest
  | str {quote : Char} {s value rest : List Char}
      (longest : IsLongest (.str quote) (quote :: s ++ [quote]) rest)
      (unescapes : Unescapes s value) :
      Munched (.str (String.ofList value)) (quote :: s ++ [quote]) rest
  | mark {m : Mark} {rest : List Char} (longest : IsLongest (.mark m) [m.char] rest) :
      Munched (.mark m) [m.char] rest

/-- No token starts the text: no class has a text there, or the longest one opens a comment that
has no end. -/
inductive IsUnread : List Char → Prop where
  | noText {cs : List Char} (h : ∀ k ∈ TokenClass.all, ∀ t, t <+: cs → ¬ k.pattern.Matches t) :
      IsUnread cs
  | openComment {cs : List Char} (longest : IsLongest .blockOpener ['/', '*'] cs)
      (h : ∀ u v, cs ≠ u ++ '*' :: '/' :: v) : IsUnread ('/' :: '*' :: cs)

/-- Behind the characters `before` and ahead of `rest`, the lexemes stand in `text` one after the
other, and every byte outside of them belongs to a blank. -/
structure Tiles (before text rest : List Char) (lexemes : List Lexeme) : Prop where
  munched : ∀ l ∈ lexemes, ∃ u s v, text = u ++ s ++ v ∧ Munched l.token s (v ++ rest) ∧
    l.span = ⟨byteLength (before ++ u), byteLength (before ++ u ++ s)⟩ ∧
    l.line = (before ++ u).count '\n' + 1
  start_lt_stop : ∀ l ∈ lexemes, l.span.start < l.span.stop
  ordered : lexemes.Pairwise fun l l' => l.span.stop ≤ l'.span.start
  blank : ∀ u c v, text = u ++ c :: v → ∀ place, byteLength (before ++ u) ≤ place →
    place < byteLength (before ++ u ++ [c]) →
    (∀ l ∈ lexemes, ¬ (l.span.start ≤ place ∧ place < l.span.stop)) → isSeparator c = true

/-- What is answered to the text behind `before`: the lexemes that tile it, or the place up to which
lexemes tile it and at which it cannot be read. -/
inductive IsMaximalMunch (before text : List Char) : Except Unreadable (List Lexeme) → Prop where
  | read {lexemes : List Lexeme} (tiles : Tiles before text [] lexemes) :
      IsMaximalMunch before text (.ok lexemes)
  | stuck {u s v : List Char} {c : Char} {lexemes : List Lexeme} (cut : text = u ++ (c :: s) ++ v)
      (tiles : Tiles before u (c :: s ++ v) lexemes) (unread : IsUnread (c :: s ++ v))
      (hc : isSeparator c = false) :
      IsMaximalMunch before text (.error
        ⟨⟨byteLength (before ++ u), byteLength (before ++ u ++ c :: s)⟩,
          (before ++ u).count '\n' + 1, String.ofList (c :: s)⟩)

variable {before text rest cs s u v : List Char} {c : Char} {n : Nat} {k : TokenClass}
  {token : Token} {lexemes : List Lexeme}

/-! ## Values -/

theorem trims_trimBoth (s : List Char) : Trims s (Text.trimBoth Text.isBlank s) := by
  have hleft := List.takeWhile_append_dropWhile (p := Text.isBlank) (l := s)
  have hhead := List.head?_dropWhile_not Text.isBlank s
  have htrim : Text.trimBoth Text.isBlank s =
      (s.dropWhile Text.isBlank).rdropWhile Text.isBlank := rfl
  generalize s.dropWhile Text.isBlank = middle at *
  have hright := List.rdropWhile_append_rtakeWhile (p := Text.isBlank) (l := middle)
  have hlast := List.rdropWhile_last_not Text.isBlank middle
  rw [← htrim] at hright hlast
  refine ⟨⟨s.takeWhile Text.isBlank, middle.rtakeWhile Text.isBlank, ?_,
    fun c hc => List.mem_takeWhile_imp hc, fun c hc => List.mem_rtakeWhile_imp hc⟩,
    fun c hc => ?_, fun c hc => ?_⟩
  · rw [List.append_assoc, hright, hleft]
  · -- What is left of the middle starts as the middle does.
    obtain ⟨t, ht⟩ := List.head?_eq_some_iff.1 hc
    rw [← hright, ht] at hhead
    exact hhead
  · obtain ⟨t, ht⟩ := List.getLast?_eq_some_iff.1 hc
    have hne : Text.trimBoth Text.isBlank s ≠ [] := by
      rw [ht]
      exact List.concat_ne_nil c t
    have hnot := hlast hne
    simp only [ht, List.getLast_append_singleton] at hnot
    simpa using hnot

/-- A backslash goes with the character after it. -/
theorem Unescapes.escape (c : Char) (h : Unescapes s (unescape s)) :
    Unescapes ('\\' :: c :: s) (unescape ('\\' :: c :: s)) := by
  by_cases hc : c ∈ ['n', 't', 'r', '0']
  · simp only [List.mem_cons, List.not_mem_nil, or_false] at hc
    rcases hc with rfl | rfl | rfl | rfl <;> exact .control (by decide) h
  · have hitself : unescape ('\\' :: c :: s) = c :: unescape s := by
      simp only [List.mem_cons, List.not_mem_nil, or_false, not_or] at hc
      rw [unescape] <;> simp [hc]
    exact hitself ▸ .itself hc h

/-- No item of a literal is a backslash alone. -/
theorem unescapes_unescape {quote : Char}
    (h : (Pattern.many (TokenClass.strItem quote)).Matches s) : Unescapes s (unescape s) := by
  induction hn : s.length using Nat.strongRecOn generalizing s with
  | _ n ih =>
    cases s with
    | nil => exact .nil
    | cons c s =>
      obtain ⟨u, v, rfl, hitem, hv⟩ := Pattern.matches_many_cons.1 h
      have hrest := ih v.length (by simp at hn; omega) hv rfl
      rcases Pattern.matches_either.1 hitem with hitem | hitem
      · obtain ⟨d, hd, heq⟩ := Pattern.matches_one.1 hitem
        obtain ⟨rfl, rfl⟩ := List.cons.inj heq
        have hc : c ≠ '\\' := by
          rintro rfl
          simp at hd
        rw [List.nil_append, unescape]
        · exact .plain hc hrest
        · exact fun _ _ heq => absurd heq hc
        · exact fun heq _ => absurd heq hc
      · obtain ⟨_, w, heq, hslash, hw⟩ := Pattern.matches_seq.1 hitem
        obtain ⟨d, -, rfl⟩ := Pattern.matches_one.1 hw
        rw [TokenClass.matches_exactly.1 hslash] at heq
        obtain ⟨rfl, rfl⟩ := List.cons.inj heq
        exact .escape d hrest

/-- The text of a comment goes up to the first `*/`. -/
theorem commentBody_eq_some (h : commentBody cs = some s) :
    (∃ v, cs = s ++ '*' :: '/' :: v) ∧
      ∀ u v, cs = u ++ '*' :: '/' :: v → s.length ≤ u.length := by
  fun_induction commentBody cs generalizing s with
  | case1 => cases h
  | case2 tail =>
    cases h
    exact ⟨⟨tail, rfl⟩, fun _ _ _ => Nat.zero_le _⟩
  | case3 c cs hnot ih =>
    obtain ⟨body, hbody, rfl⟩ := Option.map_eq_some_iff.1 h
    obtain ⟨⟨v, rfl⟩, hfirst⟩ := ih hbody
    refine ⟨⟨v, rfl⟩, fun u w heq => ?_⟩
    cases u with
    | nil =>
      obtain ⟨rfl, htail⟩ := List.cons.inj heq
      exact absurd htail (hnot w rfl)
    | cons d u => exact Nat.succ_le_succ (hfirst u w (List.cons.inj heq).2)

theorem commentBody_eq_none (h : commentBody cs = none) (u v : List Char) :
    cs ≠ u ++ '*' :: '/' :: v := by
  fun_induction commentBody cs generalizing u with
  | case1 => simp
  | case2 => cases h
  | case3 c cs hnot ih =>
    intro heq
    cases u with
    | nil =>
      obtain ⟨rfl, htail⟩ := List.cons.inj heq
      exact absurd htail (hnot v rfl)
    | cons d u => exact ih (Option.map_eq_none_iff.1 h) u (List.cons.inj heq).2

/-! ## The longest text of any class -/

/-- The best of several matches is at least as long as each of them. -/
theorem le_of_foldr_betterMatch {ks : List TokenClass} {f : TokenClass → Option Nat} (hk : k ∈ ks)
    (hn : f k = some n) : ∃ k' m,
      (ks.map fun k => (f k).map (k, ·)).foldr betterMatch none = some (k', m) ∧ n ≤ m := by
  induction ks with
  | nil => cases hk
  | cons k' ks ih =>
    rw [List.map_cons, List.foldr_cons]
    rcases List.mem_cons.1 hk with rfl | hk
    · rw [hn, Option.map_some]
      cases (ks.map fun k => (f k).map (k, ·)).foldr betterMatch none with
      | none => exact ⟨k, n, rfl, Nat.le_refl n⟩
      | some best =>
        rw [betterMatch]
        split
        · rename_i hlt
          exact ⟨best.1, best.2, rfl, Nat.le_of_lt hlt⟩
        · exact ⟨k, n, rfl, Nat.le_refl n⟩
    · obtain ⟨k'', m, hbest, hle⟩ := ih hk
      rw [hbest]
      cases f k' with
      | none => exact ⟨k'', m, rfl, hle⟩
      | some m' =>
        rw [Option.map_some, betterMatch]
        split
        · exact ⟨k'', m, rfl, hle⟩
        · rename_i hnot
          exact ⟨k', m', rfl, hle.trans (Nat.le_of_not_lt hnot)⟩

/-- A text of a class at the start is at most as long as what `munch` finds there. -/
theorem exists_munch (hk : k ∈ TokenClass.all) (hs : s <+: cs) (h : k.pattern.Matches s) :
    ∃ k' m, munch cs = some (k', m) ∧ s.length ≤ m := by
  rw [List.prefix_iff_eq_take.1 hs] at h
  obtain ⟨n, hn, hle⟩ := (Pattern.longest_spec k.pattern cs).2 s.length hs.length_le h
  obtain ⟨k', m, hbest, hle'⟩ :=
    le_of_foldr_betterMatch (f := fun k => k.pattern.longest cs) hk hn
  exact ⟨k', m, hbest, hle.trans hle'⟩

/-- What `munch` finds is the longest text of any class. -/
theorem isLongest_of_munch (h : munch cs = some (k, n)) :
    n ≤ cs.length ∧ IsLongest k (cs.take n) (cs.drop n) := by
  obtain ⟨hmem, hlongest⟩ := mem_of_foldr_betterMatch h
  obtain ⟨hle, hmatches, -⟩ := Pattern.longest_eq_some_iff.1 hlongest
  refine ⟨hle, hmem, hmatches, fun k' hk' t ht hmatches' => ?_⟩
  rw [List.take_append_drop] at ht
  obtain ⟨k'', m, hbest, hlength⟩ := exists_munch hk' ht hmatches'
  cases hbest.symm.trans h
  rwa [List.length_take, Nat.min_eq_left hle]

/-- Where `munch` finds nothing, no class has a text. -/
theorem not_matches_of_munch (h : munch cs = none) :
    ∀ k ∈ TokenClass.all, ∀ t, t <+: cs → ¬ k.pattern.Matches t := by
  intro k hk t ht hmatches
  obtain ⟨_, _, hbest, -⟩ := exists_munch hk ht hmatches
  cases h.symm.trans hbest

/-! ## The first token -/

theorem matches_word {w : String} : (Pattern.word w).Matches s ↔ s = w.toList := by
  unfold Pattern.word
  induction w.toList generalizing s with
  | nil => exact Pattern.matches_empty
  | cons c cs ih =>
    rw [List.foldr_cons, Pattern.matches_seq]
    constructor
    · rintro ⟨_, v, rfl, hc, hv⟩
      rw [TokenClass.matches_exactly.1 hc, ih.1 hv]
      rfl
    · rintro rfl
      exact ⟨[c], cs, rfl, TokenClass.matches_exactly.2 rfl, ih.2 rfl⟩

theorem munched_of_isLongest (hk : k ≠ .blockOpener) (h : IsLongest k s rest) :
    Munched (decodeToken k s) s rest := by
  cases k with
  | lineComment =>
    obtain ⟨_, body, rfl, hword, -⟩ := Pattern.matches_seq.1 h.isText
    obtain rfl := matches_word.1 hword
    have hvalue : decodeToken .lineComment ("//".toList ++ body) =
        .lineComment (String.ofList (Text.trimBoth Text.isBlank body)) := by
      simp [decodeToken, Text.trim]
    rw [hvalue]
    exact .lineComment h (trims_trimBoth body)
  | blockOpener => exact absurd rfl hk
  | ident => exact .ident h
  | int => exact .int h
  | float => exact .float h
  | str quote =>
    obtain ⟨_, body, rfl, hquote, hbody⟩ := Pattern.matches_seq.1 h.isText
    obtain ⟨items, _, rfl, hitems, hlast⟩ := Pattern.matches_seq.1 hbody
    obtain rfl := TokenClass.matches_exactly.1 hquote
    obtain rfl := TokenClass.matches_exactly.1 hlast
    have hvalue : decodeToken (.str quote) ([quote] ++ (items ++ [quote])) =
        .str (String.ofList (unescape items)) := by
      simp [decodeToken]
    rw [hvalue]
    exact .str h (unescapes_unescape hitems)
  | mark m =>
    obtain rfl := TokenClass.matches_exactly.1 h.isText
    exact .mark h

/-- A comment that has an end is read up to the first one. -/
theorem munched_blockComment (h : IsLongest .blockOpener ['/', '*'] cs)
    (hbody : commentBody cs = some s) : ∃ rest, cs = s ++ '*' :: '/' :: rest ∧
      Munched (decodeToken .blockOpener ('/' :: '*' :: s ++ ['*', '/']))
        ('/' :: '*' :: s ++ ['*', '/']) rest := by
  obtain ⟨⟨rest, rfl⟩, hfirst⟩ := commentBody_eq_some hbody
  refine ⟨rest, rfl, ?_⟩
  have hvalue : decodeToken .blockOpener ('/' :: '*' :: s ++ ['*', '/']) =
      .blockComment (String.ofList (Text.trimBoth Text.isBlank s)) := by
    simp [decodeToken, Text.trim]
  rw [hvalue]
  exact .blockComment h hfirst (trims_trimBoth s)

/-- The opener of a comment is its two characters. -/
theorem opener_of_munch (h : munch cs = some (.blockOpener, n)) :
    n = 2 ∧ cs = '/' :: '*' :: cs.drop n ∧ IsLongest .blockOpener ['/', '*'] (cs.drop n) := by
  obtain ⟨hle, hlongest⟩ := isLongest_of_munch h
  have hopener : cs.take n = ['/', '*'] := matches_word.1 hlongest.isText
  have hcut := List.take_append_drop n cs
  have hlength := congrArg List.length hopener
  rw [List.length_take, Nat.min_eq_left hle] at hlength
  rw [hopener] at hlongest hcut
  exact ⟨hlength, hcut.symm, hlongest⟩

/-- What is read first is a token with the characters that it is read from. -/
theorem munched_of_firstToken (h : firstToken cs = .ok (token, n)) :
    ∃ s rest, cs = s ++ rest ∧ s.length = n ∧ s ≠ [] ∧ Munched token s rest := by
  unfold firstToken at h
  split at h
  · rename_i m hmunch
    obtain ⟨hm, hcut, hlongest⟩ := opener_of_munch hmunch
    split at h
    · cases h
    · rename_i body hbody
      obtain ⟨rest, hrest, hread⟩ := munched_blockComment hlongest hbody
      rw [hrest] at hcut
      have hlength : ('/' :: '*' :: body ++ ['*', '/']).length = m + body.length + 2 := by
        simp [hm]
        omega
      have hwhole : cs = ('/' :: '*' :: body ++ ['*', '/']) ++ rest := by simpa using hcut
      cases h
      refine ⟨'/' :: '*' :: body ++ ['*', '/'], rest, hwhole, hlength, by simp, ?_⟩
      rw [← hlength, hwhole, List.take_left]
      exact hread
  · rename_i k m hk hmunch
    cases h
    obtain ⟨hle, hlongest⟩ := isLongest_of_munch hmunch
    refine ⟨cs.take n, cs.drop n, (List.take_append_drop n cs).symm, by simp [hle], ?_,
      munched_of_isLongest (fun heq => hk heq) hlongest⟩
    obtain ⟨c, t, heq, -⟩ := TokenClass.starts_of_matches hlongest.isText
    simp [heq]
  · split at h
    · split at h <;> cases h
    · cases h

/-- Where no token is read first, the place has at least one character. -/
theorem isUnread_of_firstToken (h : firstToken (c :: cs) = .error n) :
    IsUnread (c :: cs) ∧ 0 < n := by
  unfold firstToken at h
  split at h
  · rename_i m hmunch
    obtain ⟨hm, hcut, hlongest⟩ := opener_of_munch hmunch
    split at h
    · rename_i hbody
      cases h
      rw [hcut]
      exact ⟨.openComment hlongest (commentBody_eq_none hbody), by omega⟩
    · cases h
  · cases h
  · rename_i hmunch
    refine ⟨.noText (not_matches_of_munch hmunch), ?_⟩
    split at h
    · split at h
      · cases h
        omega
      · cases h
        exact Nat.one_pos
    · rename_i heq
      cases heq

/-! ## Tilings -/

theorem byteLength_le_append (s v : List Char) : byteLength s ≤ byteLength (s ++ v) := by
  rw [byteLength_append]
  exact Nat.le_add_right ..

theorem byteLength_pos (h : s ≠ []) : 0 < byteLength s := by
  obtain ⟨c, s, rfl⟩ := List.exists_cons_of_ne_nil h
  exact Nat.lt_of_lt_of_le c.utf8Size_pos (Nat.le_add_right ..)

theorem byteLength_concat (s : List Char) (c : Char) :
    byteLength (s ++ [c]) = byteLength s + c.utf8Size :=
  byteLength_append s [c]

/-- The line after a character counts the line feeds up to it. -/
theorem nextLine_count (s : List Char) (c : Char) :
    nextLine c (s.count '\n' + 1) = (s ++ [c]).count '\n' + 1 := by
  by_cases hc : c = '\n' <;> simp [nextLine, hc]

namespace Tiles

theorem nil : Tiles before [] rest [] where
  munched := nofun
  start_lt_stop := nofun
  ordered := .nil
  blank := by simp

/-- Nothing that stands behind some characters starts before their end. -/
theorem le_start (h : Tiles before text rest lexemes) :
    ∀ l ∈ lexemes, byteLength before ≤ l.span.start := by
  intro l hl
  obtain ⟨u, _, _, -, -, hspan, -⟩ := h.munched l hl
  rw [hspan]
  exact byteLength_le_append ..

/-- What stands in a text stands in a longer one too. -/
theorem munched_append (h : Tiles (before ++ s) text rest lexemes) :
    ∀ l ∈ lexemes, ∃ u s' v, s ++ text = u ++ s' ++ v ∧ Munched l.token s' (v ++ rest) ∧
      l.span = ⟨byteLength (before ++ u), byteLength (before ++ u ++ s')⟩ ∧
      l.line = (before ++ u).count '\n' + 1 := by
  intro l hl
  obtain ⟨u, s', v, rfl, hmunched, hspan, hline⟩ := h.munched l hl
  refine ⟨s ++ u, s', v, by simp, hmunched, ?_, ?_⟩
  · rw [hspan, List.append_assoc before]
  · rw [hline, List.append_assoc before]

theorem blank_append (h : Tiles (before ++ s) text rest lexemes) {u v : List Char} {c : Char}
    (hcut : s ++ text = u ++ c :: v) {place : Nat} (hle : byteLength (before ++ u) ≤ place)
    (hlt : place < byteLength (before ++ u ++ [c]))
    (hout : ∀ l ∈ lexemes, ¬ (l.span.start ≤ place ∧ place < l.span.stop)) :
    (∃ w, s = u ++ c :: w) ∨ isSeparator c = true := by
  rcases List.append_eq_append_iff.1 hcut with ⟨w, rfl, hw⟩ | ⟨w, rfl, hw⟩
  · rw [← List.append_assoc] at hle hlt
    exact .inr (h.blank w c v hw place hle hlt hout)
  · cases w with
    | nil =>
      rw [List.append_nil] at *
      exact .inr (h.blank [] c v hw.symm place (by simpa using hle) (by simpa using hlt) hout)
    | cons d w =>
      obtain ⟨rfl, -⟩ := List.cons.inj hw
      exact .inl ⟨w, rfl⟩

theorem separator (hc : isSeparator c = true) (h : Tiles (before ++ [c]) text rest lexemes) :
    Tiles before (c :: text) rest lexemes where
  munched := h.munched_append
  start_lt_stop := h.start_lt_stop
  ordered := h.ordered
  blank u d v hcut place hle hlt hout := by
    rcases h.blank_append hcut hle hlt hout with ⟨w, hw⟩ | hd
    · obtain ⟨rfl, -⟩ : d = c ∧ _ := by
        cases u with
        | nil => exact ⟨(List.cons.inj hw).1.symm, trivial⟩
        | cons e u => simp at hw
      exact hc
    · exact hd

theorem lexeme (hs : s ≠ []) (hmunched : Munched token s (text ++ rest))
    (h : Tiles (before ++ s) text rest lexemes) :
    Tiles before (s ++ text) rest (⟨token, ⟨byteLength before, byteLength (before ++ s)⟩,
      before.count '\n' + 1⟩ :: lexemes) where
  munched := by
    refine List.forall_mem_cons.2 ⟨⟨[], s, text, rfl, hmunched, ?_, ?_⟩, h.munched_append⟩
    · simp
    · simp
  start_lt_stop := by
    refine List.forall_mem_cons.2 ⟨?_, h.start_lt_stop⟩
    rw [byteLength_append]
    exact Nat.lt_add_of_pos_right (byteLength_pos hs)
  ordered := List.pairwise_cons.2 ⟨h.le_start, h.ordered⟩
  blank u c v hcut place hle hlt hout := by
    obtain ⟨hfirst, hout⟩ := List.forall_mem_cons.1 hout
    rcases h.blank_append hcut hle hlt hout with ⟨w, rfl⟩ | hc
    · -- Every byte of the token is in its span.
      refine absurd ⟨?_, ?_⟩ hfirst
      · exact (byteLength_le_append before u).trans hle
      · have hstop := byteLength_le_append (before ++ u ++ [c]) w
        simp only [List.append_assoc, List.singleton_append] at hlt hstop ⊢
        exact Nat.lt_of_lt_of_le hlt hstop
    · exact hc

end Tiles

/-! ## Whole texts -/

namespace IsMaximalMunch

variable {answer : Except Unreadable (List Lexeme)}

theorem separator (hc : isSeparator c = true) (h : IsMaximalMunch (before ++ [c]) text answer) :
    IsMaximalMunch before (c :: text) answer := by
  cases h with
  | read tiles => exact .read (tiles.separator hc)
  | stuck cut tiles unread hd =>
    subst cut
    have hstuck : IsMaximalMunch before _ _ := stuck rfl (tiles.separator hc) unread hd
    simpa using hstuck

theorem lexeme (hs : s ≠ []) (hmunched : Munched token s text)
    (h : IsMaximalMunch (before ++ s) text answer) :
    IsMaximalMunch before (s ++ text) (answer.map
      (⟨token, ⟨byteLength before, byteLength (before ++ s)⟩, before.count '\n' + 1⟩ :: ·)) := by
  cases h with
  | read tiles => exact .read (tiles.lexeme hs (by rwa [List.append_nil]))
  | @stuck u s' v c lexemes cut tiles unread hd =>
    subst cut
    rw [List.append_assoc] at hmunched
    have hstuck : IsMaximalMunch before _ _ := stuck rfl (tiles.lexeme hs hmunched) unread hd
    simpa [Except.map] using hstuck

/-- The text behind `before` is munched, up to the characters of a token already taken. -/
theorem lexemesFrom {offset line skip : Nat} (hoffset : offset = byteLength before)
    (hline : line = before.count '\n' + 1) :
    IsMaximalMunch (before ++ cs.take skip) (cs.drop skip)
      (SchemaGraph.lexemesFrom offset line skip cs) := by
  fun_induction SchemaGraph.lexemesFrom offset line skip cs generalizing before with
  | case1 offset line skip =>
    rw [List.drop_nil]
    exact .read .nil
  | case2 offset line skip c cs ih =>
    have hnext : offset + c.utf8Size = byteLength (before ++ [c]) := by
      rw [hoffset, byteLength_concat]
    have hread := ih hnext (by rw [hline, nextLine_count])
    rwa [List.append_assoc, List.singleton_append] at hread
  | case3 offset line c cs hc ih =>
    have hnext : offset + c.utf8Size = byteLength (before ++ [c]) := by
      rw [hoffset, byteLength_concat]
    have hread := ih hnext (by rw [hline, nextLine_count])
    rw [List.take_zero, List.append_nil] at hread ⊢
    exact hread.separator hc
  | case4 offset line c cs hc n hfirst =>
    obtain ⟨hunread, hn⟩ := isUnread_of_firstToken hfirst
    obtain ⟨n, rfl⟩ := Nat.exists_eq_add_one_of_ne_zero (Nat.ne_of_gt hn)
    have hcut : c :: cs = c :: cs.take n ++ cs.drop n := by simp
    have hstuck : IsMaximalMunch before (c :: cs) _ :=
      stuck (u := []) hcut .nil (hcut ▸ hunread) (by simpa using hc)
    rw [List.append_nil, byteLength_append, ← hoffset, ← hline] at hstuck
    rw [List.take_zero, List.append_nil]
    exact hstuck
  | case5 offset line c cs hc token n hfirst ih =>
    obtain ⟨s, rest, hcut, rfl, hne, hmunched⟩ := munched_of_firstToken hfirst
    obtain ⟨d, s, rfl⟩ := List.exists_cons_of_ne_nil hne
    rw [List.cons_append] at hcut
    obtain ⟨rfl, rfl⟩ := List.cons.inj hcut
    have hnext : offset + c.utf8Size = byteLength (before ++ [c]) := by
      rw [hoffset, byteLength_concat]
    have hread := ih hnext (by rw [hline, nextLine_count])
    rw [List.length_cons, Nat.add_sub_cancel, List.take_left, List.drop_left, List.append_assoc,
      List.singleton_append] at hread
    have hlexeme := hread.lexeme hne hmunched
    rw [byteLength_append, ← hoffset, ← hline] at hlexeme
    rw [List.take_zero, List.append_nil, List.drop_zero, ← List.cons_append, List.take_left]
    exact hlexeme

end IsMaximalMunch

/--
**Maximal munch.** The lexemes of a source text tile it: each is the longest text of any class where
it starts (a block comment goes on to the first `*/`) and has the value of that text, they stand one
after the other, and all else is blank. A text without lexemes is tiled so up to the place that is
named, and there no class has a text, or the longest one opens a block comment without an end.
-/
theorem tokenize_isMaximalMunch (source : String) :
    IsMaximalMunch [] source.toList (tokenize source) := by
  have hread : IsMaximalMunch ([] ++ source.toList.take 0) (source.toList.drop 0)
      (lexemesFrom 0 1 0 source.toList) := .lexemesFrom rfl rfl
  exact hread

end SchemaGraph
