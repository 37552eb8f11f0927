import SchemaGraph.Proofs.Text.Quoted
import SchemaGraph.Proofs.Token.Appending
/-!
# The texts of tokens, read again

`Token.text` writes a token, and `tokenize` reads the text again. Every token of a source comes back
as one token (`tokenize_text`), and so do tokens with one space between them (`tokenize_joined`).
What comes back is the token itself, unless it is a literal with a character that is written by its
code point (`Token.reread_eq_self_iff`).
-/

namespace SchemaGraph

open Lexical

variable {s cs rest body : List Char} {c : Char} {n offset line skip : Nat} {k : TokenClass}
  {t : Token} {l : Lexeme} {lexemes : List Lexeme}

/-- The token that is read from the text of a token. -/
def Token.reread : Token → Token
  | str value => str (String.ofList (value.toList.flatMap readBack))
  | t => t

/-- Whether every character of a literal is written so that it is read as itself. -/
def Token.isWrittenBack : Token → Bool
  | str value => value.toList.all SchemaGraph.isWrittenBack
  | _ => true

theorem Token.reread_eq_self_iff : t.reread = t ↔ t.isWrittenBack = true := by
  cases t with
  | str value =>
    rw [reread, isWrittenBack, List.all_eq_true, ← flatMap_readBack_eq_self_iff, Token.str.injEq,
      ← String.toList_inj, String.toList_ofList]
  | _ => simp [reread, isWrittenBack]

/-! ## Where a text ends -/

/-- What is found in a text is found in its front if nothing reaches beyond that. -/
theorem munch_append_of_le
    (h : ∀ k ∈ TokenClass.all, ∀ t, t <+: s ++ rest → k.pattern.Matches t → t.length ≤ s.length) :
    munch (s ++ rest) = munch s := by
  unfold munch
  congr 1
  refine List.map_congr_left fun k hk => ?_
  rw [Pattern.longest_append_of_le fun n hn hmatches => ?_]
  have hle := h k hk _ (List.take_prefix n _) hmatches
  rwa [List.length_take, Nat.min_eq_left hn] at hle

/-- What is found first in a text is found in a text of its own. -/
theorem munch_take (h : munch cs = some (k, n)) :
    n ≤ cs.length ∧ munch (cs.take n) = some (k, (cs.take n).length) := by
  obtain ⟨hle, hlongest⟩ := isLongest_of_munch h
  have hfront := munch_append_of_le hlongest.length_le
  rw [List.take_append_drop, h] at hfront
  exact ⟨hle, by rw [← hfront, List.length_take, Nat.min_eq_left hle]⟩

/-- Names, numbers and marks: the classes that start neither a comment nor a literal. -/
def TokenClass.isPlain : TokenClass → Bool
  | ident | int | float | mark _ => true
  | lineComment | blockOpener | str _ => false

/-- A slash and a space start no comment. -/
theorem longest_lineComment_slash :
    TokenClass.lineComment.pattern.longest ('/' :: ' ' :: rest) = none := by
  have hafter : (TokenClass.lineComment.pattern.after '/').after ' ' = .never := rfl
  rw [Pattern.longest_cons, Pattern.longest_cons, hafter, Pattern.longest_never]
  rfl

/-- Only comments and literals go on behind a space. -/
theorem munch_space (h : munch s = some (k, s.length)) (hk : k.isPlain = true) :
    munch (s ++ ' ' :: rest) = munch s := by
  obtain ⟨-, hlongest⟩ := isLongest_of_munch h
  rw [List.take_length] at hlongest
  obtain ⟨c, s, rfl, hc⟩ := TokenClass.starts_of_matches hlongest.isText
  have hquotes : ∀ k ∈ TokenClass.all, k.isPlain = true →
      k.starts '"' = false ∧ k.starts '\'' = false := by decide
  have hslash : ∀ k ∈ TokenClass.all, k.isPlain = true → k.starts '/' = true →
      k = .mark .slash := by decide
  have hall : ∀ k ∈ TokenClass.all, k.pattern.avoids ' ' = true ∨ k = .lineComment ∨
      k = .str '"' ∨ k = .str '\'' := by decide
  obtain ⟨hdouble, hsingle⟩ := hquotes k hlongest.mem hk
  -- A class that does not start as the text does has no match, with or without the space.
  have hnone {k' : TokenClass} (hstarts : k'.starts c = false) :
      k'.pattern.longest (c :: s ++ ' ' :: rest) = k'.pattern.longest (c :: s) := by
    rw [List.cons_append, TokenClass.longest_eq_none hstarts, TokenClass.longest_eq_none hstarts]
  have hquote {q : Char} (hq : k.starts q = false) : (TokenClass.str q).starts c = false := by
    refine Bool.eq_false_iff.2 fun hstarts => ?_
    have heq : q = c := by simpa [TokenClass.starts, TokenClass.opener?] using hstarts
    rw [heq, hc] at hq
    cases hq
  unfold munch
  congr 1
  refine List.map_congr_left fun k' hk' => ?_
  rcases hall k' hk' with havoids | rfl | rfl | rfl
  · rw [Pattern.longest_append havoids]
  · cases hstarts : TokenClass.lineComment.starts c with
    | false => rw [hnone hstarts]
    | true =>
      obtain rfl : '/' = c := by simpa [TokenClass.starts, TokenClass.opener?] using hstarts
      obtain rfl := hslash k hlongest.mem hk hc
      obtain ⟨-, rfl⟩ := List.cons.inj (TokenClass.matches_exactly.1 hlongest.isText)
      rw [List.singleton_append, longest_lineComment_slash]
      rfl
  · rw [hnone (hquote hdouble)]
  · rw [hnone (hquote hsingle)]

/-! ## Comments -/

/-- A text is trimmed in one way only. -/
theorem Trims.trimBoth_eq {whole inner : List Char} (h : Trims whole inner) :
    Text.trimBoth Text.isBlank whole = inner := by
  obtain ⟨left, right, rfl, hleft, hright⟩ := h.cut
  unfold Text.trimBoth
  rw [List.append_assoc, List.dropWhile_append_of_pos hleft]
  cases inner with
  | nil =>
    have hnil : right.dropWhile Text.isBlank = [] := List.dropWhile_eq_nil_iff.2 hright
    rw [List.nil_append, hnil]
    rfl
  | cons c inner =>
    have hhead := h.head c rfl
    rw [List.cons_append, List.dropWhile_cons_of_neg (by simp [hhead]), ← List.cons_append,
      List.reverse_append, List.dropWhile_append_of_pos (by simpa using hright)]
    have hlast : (c :: inner).reverse.dropWhile Text.isBlank = (c :: inner).reverse := by
      cases hreverse : (c :: inner).reverse with
      | nil => rfl
      | cons d ds =>
        have hmem : d ∈ (c :: inner).getLast? := by
          rw [← List.head?_reverse, hreverse]
          rfl
        rw [List.dropWhile_cons_of_neg (by simp [h.last d hmem])]
    rw [hlast, List.reverse_reverse]

theorem isBlank_of_mem_space : ∀ c ∈ [' '], Text.isBlank c = true :=
  List.forall_mem_singleton.2 (by decide)

/-- Blanks around a trimmed text are trimmed again. -/
theorem trimBoth_around {left right : List Char} (hleft : ∀ c ∈ left, Text.isBlank c = true)
    (hright : ∀ c ∈ right, Text.isBlank c = true) (s : List Char) :
    Text.trimBoth Text.isBlank (left ++ Text.trimBoth Text.isBlank s ++ right) =
      Text.trimBoth Text.isBlank s := by
  have htrims := trims_trimBoth s
  have haround : Trims (left ++ Text.trimBoth Text.isBlank s ++ right)
      (Text.trimBoth Text.isBlank s) :=
    ⟨⟨left, right, rfl, hleft, hright⟩, htrims.head, htrims.last⟩
  exact haround.trimBoth_eq

/-- What is left of a trimmed text stands in it. -/
theorem infix_trimBoth (s : List Char) : Text.trimBoth Text.isBlank s <:+: s := by
  obtain ⟨left, right, heq, -⟩ := (trims_trimBoth s).cut
  exact ⟨left, right, heq.symm⟩

/-- The body of a comment is all that stands before its first end. -/
theorem commentBody_of_not_infix (h : ¬ ['*', '/'] <:+: body) (rest : List Char) :
    commentBody (body ++ '*' :: '/' :: rest) = some body := by
  induction body with
  | nil => rfl
  | cons c body ih =>
    have hbody := ih fun hinside => h (List.infix_cons_iff.2 (.inr hinside))
    rw [List.cons_append, commentBody, hbody, Option.map_some]
    rintro tail rfl heq
    cases body with
    | nil => exact absurd (List.cons.inj heq).1 (by decide)
    | cons d body =>
      obtain ⟨rfl, -⟩ := List.cons.inj heq
      exact h ⟨[], body, rfl⟩

/-- Behind a slash only comments go on. -/
theorem munch_of_slash (hk : k ∈ TokenClass.all) (hn : k.pattern.longest ('/' :: cs) = some n)
    (hlong : 1 < n) (hcomments : ∀ k' ∈ [TokenClass.lineComment, .blockOpener], k' ≠ k →
      k'.pattern.longest ('/' :: cs) = none) : munch ('/' :: cs) = some (k, n) := by
  have hslash : ∀ k ∈ TokenClass.all, k.starts '/' = true →
      k ∈ [TokenClass.lineComment, .blockOpener] ∨ k = .mark .slash := by decide
  refine munch_eq_some hk hn fun k' hk' hne m hm => ?_
  cases hstarts : k'.starts '/' with
  | false =>
    rw [TokenClass.longest_eq_none hstarts] at hm
    cases hm
  | true =>
    rcases hslash k' hk' hstarts with hcomment | rfl
    · rw [hcomments k' hcomment hne] at hm
      cases hm
    · obtain ⟨hle, hmatches, -⟩ := Pattern.longest_eq_some_iff.1 hm
      have hlength := congrArg List.length (TokenClass.matches_exactly.1 hmatches)
      rw [List.length_take, Nat.min_eq_left hle] at hlength
      exact hlength ▸ hlong

theorem munch_lineComment (hline : '\n' ∉ s) :
    munch ('/' :: '/' :: s) = some (.lineComment, s.length + 2) := by
  have hwhole : TokenClass.lineComment.pattern.Matches ("//".toList ++ s) := by
    refine .seq (matches_word.2 rfl) (TokenClass.matches_many_one.2 fun c hc => ?_)
    have hne : c ≠ '\n' := fun heq => hline (heq ▸ hc)
    simpa using hne
  refine munch_of_slash (by decide) (Pattern.longest_eq_some_iff.2 ⟨by simp, ?_, ?_⟩) (by omega) ?_
  · rw [List.take_of_length_le (by simp)]
    exact hwhole
  · intro m hm _
    exact hm
  · intro k' hk' hne
    obtain rfl : k' = .blockOpener := by simpa [hne] using hk'
    refine Pattern.longest_eq_none_iff.2 fun m _ hmatches => ?_
    obtain ⟨w, hw⟩ := List.take_prefix m ('/' :: '/' :: s)
    rw [matches_word.1 hmatches] at hw
    simp at hw

theorem munch_blockOpener (s : List Char) : munch ('/' :: '*' :: s) = some (.blockOpener, 2) := by
  refine munch_of_slash (by decide) (Pattern.longest_eq_some_iff.2 ⟨by simp, ?_, ?_⟩) (by omega) ?_
  · exact matches_word.2 rfl
  · intro m hm hmatches
    have hlength := congrArg List.length (matches_word.1 hmatches)
    rw [List.length_take, Nat.min_eq_left hm] at hlength
    exact Nat.le_of_eq hlength
  · intro k' hk' hne
    obtain rfl : k' = .lineComment := by simpa [hne] using hk'
    refine Pattern.longest_eq_none_iff.2 fun m _ hmatches => ?_
    obtain ⟨_, body, htake, hword, -⟩ := Pattern.matches_seq.1 hmatches
    obtain ⟨w, hw⟩ := List.take_prefix m ('/' :: '*' :: s)
    rw [htake, matches_word.1 hword] at hw
    simp at hw

theorem trim_ofList (s : List Char) :
    Text.trim (String.ofList s) = String.ofList (Text.trimBoth Text.isBlank s) := by
  simp [Text.trim]

/-- A comment to the end of its line is read from its text. -/
theorem firstToken_lineComment (hline : '\n' ∉ body) {t : Token}
    (ht : t = .lineComment (Text.trim (String.ofList body))) :
    firstToken t.text.toList = .ok (t, t.text.toList.length) := by
  have htext : t.text.toList = '/' :: '/' :: ([' '] ++ Text.trimBoth Text.isBlank body ++ []) := by
    simp [ht, Token.text, trim_ofList]
  have hinside : '\n' ∉ [' '] ++ Text.trimBoth Text.isBlank body ++ [] := by
    have hvalue : '\n' ∉ Text.trimBoth Text.isBlank body :=
      fun hmem => hline ((infix_trimBoth body).subset hmem)
    simpa using hvalue
  have hmunch := munch_lineComment hinside
  have htrim : Text.trimBoth Text.isBlank ([' '] ++ Text.trimBoth Text.isBlank body ++ []) = _ :=
    trimBoth_around isBlank_of_mem_space (List.forall_mem_nil _) body
  rw [htext, firstToken_of_munch hmunch (by simp), List.take_of_length_le (by simp), decodeToken,
    ht, trim_ofList, trim_ofList, List.drop_succ_cons, List.drop_succ_cons, List.drop_zero, htrim]
  rfl

/-- No end of a comment arises when spaces are put around its text. -/
theorem not_infix_spaces (h : ¬ ['*', '/'] <:+: s) : ¬ ['*', '/'] <:+: [' '] ++ s ++ [' '] := by
  intro hinside
  rcases List.infix_concat_iff.1 hinside with ⟨u, hu⟩ | hinside
  · have hlast := congrArg List.getLast? hu
    rw [List.getLast?_append, List.getLast?_append] at hlast
    exact absurd (Option.some.inj hlast) (by decide)
  · rcases List.infix_cons_iff.1 hinside with hprefix | hinside
    · exact absurd (List.cons_prefix_cons.1 hprefix).1 (by decide)
    · exact h hinside

/-- A comment is read from its opener up to the first end behind it. -/
theorem firstToken_of_commentBody (h : commentBody (body ++ '*' :: '/' :: rest) = some body) :
    firstToken ('/' :: '*' :: body ++ '*' :: '/' :: rest) =
      .ok (.blockComment (Text.trim (String.ofList body)), body.length + 4) := by
  have hcut : '/' :: '*' :: body ++ '*' :: '/' :: rest =
      ('/' :: '*' :: body ++ ['*', '/']) ++ rest := by simp
  have hlength : 2 + body.length + 2 = ('/' :: '*' :: body ++ ['*', '/']).length := by
    simp only [List.length_append, List.length_cons, List.length_nil]
    omega
  have hvalue : decodeToken .blockOpener ('/' :: '*' :: body ++ ['*', '/']) =
      .blockComment (Text.trim (String.ofList body)) := by
    simp [decodeToken]
  unfold firstToken
  rw [List.cons_append, List.cons_append, munch_blockOpener]
  dsimp only
  rw [List.drop_succ_cons, List.drop_succ_cons, List.drop_zero, h]
  dsimp only
  rw [← List.cons_append, ← List.cons_append, hcut, hlength, List.take_left, hvalue, ← hlength]
  congr 2
  omega

/-- A comment between `/*` and `*/` is read from its text. -/
theorem firstToken_blockComment (hend : ¬ ['*', '/'] <:+: body) {t : Token}
    (ht : t = .blockComment (Text.trim (String.ofList body))) :
    firstToken t.text.toList = .ok (t, t.text.toList.length) := by
  have hbody : ¬ ['*', '/'] <:+: Text.trimBoth Text.isBlank body :=
    fun hinside => hend (hinside.trans (infix_trimBoth body))
  have hinside := commentBody_of_not_infix (not_infix_spaces hbody) []
  have htrim : Text.trimBoth Text.isBlank ([' '] ++ Text.trimBoth Text.isBlank body ++ [' ']) = _ :=
    trimBoth_around isBlank_of_mem_space isBlank_of_mem_space body
  generalize heq : [' '] ++ Text.trimBoth Text.isBlank body ++ [' '] = inside at *
  have htext : t.text.toList = '/' :: '*' :: inside ++ ['*', '/'] := by
    simp [ht, Token.text, trim_ofList, ← heq]
  rw [htext, firstToken_of_commentBody hinside, trim_ofList, htrim, ht, trim_ofList]
  simp

/-! ## Tokens of sources -/

/-- The tokens that are read from sources: one of a plain class is the whole of some text, comments
are trimmed and do not go on behind their ends, and literals may have any value. -/
inductive Token.IsRead : Token → Prop
  | plain {k : TokenClass} {s : List Char} (hk : k.isPlain = true)
      (h : munch s = some (k, s.length)) : IsRead (decodeToken k s)
  | lineComment {body : List Char} (hline : '\n' ∉ body) :
      IsRead (.lineComment (Text.trim (String.ofList body)))
  | blockComment {body : List Char} (hend : ¬ ['*', '/'] <:+: body) :
      IsRead (.blockComment (Text.trim (String.ofList body)))
  | str (value : String) : IsRead (.str value)

theorem isRead_of_firstToken (h : firstToken cs = .ok (t, n)) : t.IsRead := by
  have hfirst := h
  unfold firstToken at h
  split at h
  · rename_i m hmunch
    obtain ⟨rfl, hcut, -⟩ := opener_of_munch hmunch
    split at h
    · cases h
    · rename_i body hbody
      obtain ⟨⟨v, hv⟩, hbefore⟩ := commentBody_eq_some hbody
      rw [hcut, hv, ← List.cons_append, ← List.cons_append,
        firstToken_of_commentBody (hv ▸ hbody)] at hfirst
      obtain ⟨rfl, -⟩ := Prod.mk.inj (Except.ok.inj hfirst)
      refine .blockComment ?_
      rintro ⟨u, w, rfl⟩
      have hle := hbefore u (w ++ '*' :: '/' :: v) (by simp [hv])
      simp only [List.length_append, List.length_cons, List.length_nil] at hle
      omega
  · rename_i k m hk hmunch
    obtain ⟨rfl, rfl⟩ := Prod.mk.inj (Except.ok.inj h)
    obtain ⟨hle, hwhole⟩ := munch_take hmunch
    cases k with
    | blockOpener => exact absurd rfl hk
    | lineComment =>
      have hmatches := (isLongest_of_munch hmunch).2.isText
      refine .lineComment fun hmem => ?_
      exact Pattern.not_mem_of_avoids (by decide) hmatches (List.mem_of_mem_drop hmem)
    | str quote => exact .str _
    | ident | int | float | mark => exact .plain rfl hwhole
  · split at h
    · split at h <;> cases h
    · cases h

/-- Every token of a text is one of a source. -/
theorem isRead_of_mem (h : lexemesFrom offset line skip cs = .ok lexemes) (hl : l ∈ lexemes) :
    l.token.IsRead := by
  obtain ⟨rest, n, hfirst⟩ := exists_firstToken_of_mem h hl
  exact isRead_of_firstToken hfirst

namespace Token

/-- The text of a token of a plain class is what it is read from. -/
theorem toList_text_decodeToken (hk : k.isPlain = true) (h : k.pattern.Matches s) :
    (decodeToken k s).text.toList = s := by
  cases k with
  | ident | int | float => simp [decodeToken, text]
  | mark m =>
    rw [TokenClass.matches_exactly.1 h]
    simp [decodeToken, text]
  | lineComment | blockOpener | str => cases hk

theorem reread_decodeToken (hk : k.isPlain = true) :
    (decodeToken k s).reread = decodeToken k s := by
  cases k <;> first | rfl | cases hk

/-- The text of a token is read as one token, also before a space if it is no comment. -/
theorem IsRead.firstToken_text (h : t.IsRead)
    (hrest : rest = [] ∨ t.isComment = false ∧ ∃ rest', rest = ' ' :: rest') :
    firstToken (t.text.toList ++ rest) = .ok (t.reread, t.text.toList.length) := by
  cases h with
  | @plain k s hk hmunch =>
    have hmatches := (isLongest_of_munch hmunch).2.isText
    rw [List.take_length] at hmatches
    have hwhole : munch (s ++ rest) = some (k, s.length) := by
      rcases hrest with rfl | ⟨-, rest', rfl⟩
      · rw [List.append_nil, hmunch]
      · rw [munch_space hmunch hk, hmunch]
    have hopener : k ≠ .blockOpener := by
      rintro rfl
      cases hk
    rw [toList_text_decodeToken hk hmatches, firstToken_of_munch hwhole hopener, List.take_left,
      reread_decodeToken hk]
  | lineComment hline =>
    obtain rfl : rest = [] := hrest.resolve_right fun hnot => nomatch hnot.1
    rw [List.append_nil]
    exact firstToken_lineComment hline rfl
  | blockComment hend =>
    obtain rfl : rest = [] := hrest.resolve_right fun hnot => nomatch hnot.1
    rw [List.append_nil]
    exact firstToken_blockComment hend rfl
  | str value =>
    have hread : firstToken ('"' :: value.toList.flatMap Text.quoteChar ++ '"' :: rest) = _ :=
      firstToken_items (isItems_flatMap value.toList)
    rw [unescape_flatMap] at hread
    have htext : (Token.str value).text.toList =
        '"' :: value.toList.flatMap Text.quoteChar ++ ['"'] := by
      simp [text, Text.quote]
    rw [htext, List.append_assoc, List.singleton_append, hread]
    simp [reread]

end Token

/-! ## Texts that are read again -/

theorem not_isSeparator_of_firstToken (h : firstToken (c :: cs) = .ok (t, n)) :
    isSeparator c = false := by
  have hblank : ∀ k ∈ TokenClass.all,
      [' ', '\t', '\r', '\n', '\x0c'].all (fun c => !k.starts c) = true := by decide
  have hstarts : ∃ k ∈ TokenClass.all, k.starts c = true := by
    cases hmunch : munch (c :: cs) with
    | none =>
      unfold firstToken at h
      rw [hmunch] at h
      dsimp only at h
      split at h <;> cases h
    | some best =>
      have hlongest := (isLongest_of_munch hmunch).2
      obtain ⟨d, s, heq, hd⟩ := TokenClass.starts_of_matches hlongest.isText
      obtain ⟨v, hv⟩ := List.take_prefix best.2 (c :: cs)
      rw [heq, List.cons_append] at hv
      exact ⟨_, hlongest.mem, (List.cons.inj hv).1 ▸ hd⟩
  obtain ⟨k, hk, hc⟩ := hstarts
  refine Bool.eq_false_iff.2 fun hsep => ?_
  have hmem : c ∈ [' ', '\t', '\r', '\n', '\x0c'] := by
    simpa [isSeparator, or_assoc] using hsep
  have hnot := List.all_eq_true.1 (hblank k hk) c hmem
  rw [hc] at hnot
  cases hnot

/-- No token but a block comment has a line feed in it. -/
theorem not_mem_of_firstToken (h : firstToken (s ++ rest) = .ok (t, s.length))
    (ht : t.isComment = false) : '\n' ∉ s := by
  have hall : ∀ k ∈ TokenClass.all, k.pattern.avoids '\n' = true := by decide
  unfold firstToken at h
  split at h
  · split at h
    · cases h
    · obtain ⟨rfl, -⟩ := Prod.mk.inj (Except.ok.inj h)
      cases ht
  · rename_i k m hk hmunch
    obtain ⟨-, rfl⟩ := Prod.mk.inj (Except.ok.inj h)
    have hlongest := (isLongest_of_munch hmunch).2
    rw [List.take_left] at hlongest
    exact Pattern.not_mem_of_avoids (hall k hlongest.mem) hlongest.isText
  · split at h
    · split at h <;> cases h
    · cases h

/-- The characters of a token already taken may be all that is left. -/
theorem lexemesFrom_of_length_le (h : cs.length ≤ skip) :
    lexemesFrom offset line skip cs = .ok [] := by
  induction cs generalizing offset line skip with
  | nil => cases skip <;> rfl
  | cons c cs ih =>
    obtain ⟨skip, rfl⟩ := Nat.exists_eq_add_one.2 (Nat.zero_lt_of_lt (Nat.lt_of_succ_le h))
    rw [lexemesFrom]
    exact ih (Nat.le_of_succ_le_succ h)

namespace Token.IsRead

theorem exists_cons (h : t.IsRead) : ∃ c cs, t.text.toList = c :: cs ∧ isSeparator c = false := by
  have hfirst := h.firstToken_text (.inl rfl)
  rw [List.append_nil] at hfirst
  obtain ⟨s, rest, hcut, -, hne, -⟩ := munched_of_firstToken hfirst
  obtain ⟨c, s, rfl⟩ := List.exists_cons_of_ne_nil hne
  rw [List.cons_append] at hcut
  rw [hcut] at hfirst
  exact ⟨c, s ++ rest, hcut, not_isSeparator_of_firstToken hfirst⟩

/-- The text of a token has one lexeme. -/
theorem tokenize_text (h : t.IsRead) :
    tokenize t.text = .ok [⟨t.reread, ⟨0, byteLength t.text.toList⟩, 1⟩] := by
  obtain ⟨c, cs, htext, hc⟩ := h.exists_cons
  have hfirst := h.firstToken_text (.inl rfl)
  rw [List.append_nil, htext] at hfirst
  have hskip : lexemesFrom (0 + c.utf8Size) (nextLine c 1) ((c :: cs).length - 1) cs = .ok [] :=
    lexemesFrom_of_length_le (Nat.le_of_eq rfl)
  unfold tokenize
  rw [htext, lexemesFrom_of_firstToken (by simp [hc]) hfirst, hskip, List.take_length, Nat.zero_add]
  rfl

/-- Before a space the lexeme of a token comes first. -/
theorem lexemesFrom_text (h : t.IsRead) (ht : t.isComment = false)
    (hrest : rest = [] ∨ ∃ rest', rest = ' ' :: rest') :
    lexemesFrom offset line 0 (t.text.toList ++ rest) =
      (lexemesFrom (offset + byteLength t.text.toList) line 0 rest).map
        (⟨t.reread, ⟨offset, offset + byteLength t.text.toList⟩, line⟩ :: ·) := by
  have hfirst := h.firstToken_text (hrest.imp_right fun hspace => ⟨ht, hspace⟩)
  have hreread : t.reread.isComment = false := by cases t <;> first | rfl | exact ht
  obtain ⟨c, cs, htext, hc⟩ := h.exists_cons
  refine lexemesFrom_token (by simp [htext]) ?_ ?_ hfirst
  · rintro d hd rfl
    exact not_mem_of_firstToken hfirst hreread hd
  · intro d hd
    rw [htext] at hd
    exact Option.some.inj hd ▸ hc

end Token.IsRead

/-- The texts of tokens with one space between two of them have one lexeme for each of them. -/
theorem tokenize_joined {run : List Token}
    (h : ∀ t ∈ run, t.IsRead ∧ t.isComment = false) : ∃ lexemes,
      tokenize (String.intercalate " " (run.map Token.text)) = .ok lexemes ∧
      lexemes.map (·.token) = run.map Token.reread := by
  suffices hfrom : ∀ offset, ∃ lexemes,
      lexemesFrom offset 1 0 (String.intercalate " " (run.map Token.text)).toList = .ok lexemes ∧
        lexemes.map (·.token) = run.map Token.reread from hfrom 0
  induction run with
  | nil => exact fun _ => ⟨[], rfl, rfl⟩
  | cons t run ih =>
    intro offset
    obtain ⟨⟨ht, hcomment⟩, hrun⟩ := List.forall_mem_cons.1 h
    cases run with
    | nil =>
      have hone : lexemesFrom offset 1 0 (t.text.toList ++ []) = .ok [_] :=
        ht.lexemesFrom_text hcomment (.inl rfl)
      rw [List.append_nil] at hone
      exact ⟨_, by simpa using hone, rfl⟩
    | cons t' run =>
      have htext : (String.intercalate " " ((t :: t' :: run).map Token.text)).toList =
          t.text.toList ++ ' ' :: (String.intercalate " " ((t' :: run).map Token.text)).toList := by
        rw [List.map_cons, List.map_cons, String.intercalate_cons_cons, ← List.map_cons]
        simp
      obtain ⟨lexemes, hothers, htokens⟩ := ih hrun (offset + byteLength t.text.toList + 1)
      rw [htext, ht.lexemesFrom_text hcomment (.inr ⟨_, rfl⟩), lexemesFrom_space, hothers]
      exact ⟨_, rfl, congrArg (t.reread :: ·) htokens⟩

end SchemaGraph
