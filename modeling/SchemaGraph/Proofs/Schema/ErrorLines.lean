import SchemaGraph.Proofs.Schema.Refusals
import SchemaGraph.Proofs.Token.MaximalMunch
/-!
# The lines of errors

The line of an error is that of the token where the reader has stopped. A token that is reported as
found has not been taken, so that its line is the one that is reported. A literal that is refused
has been taken already, so that the line is that of what comes behind it (`parseSchema_error_line`);
that is the line of the literal, or a later one, as lines never decrease along the lexemes of a text
(`line_pairwise`).
-/

namespace SchemaGraph

/-- The next of the lexemes that is no comment stands on the line of the text; if there is none, it
is the line on which the text ends. -/
inductive StandsOn (source : String) : List Lexeme → Nat → Prop
  | token {ts others : List Lexeme} {t : Lexeme} {u s v : List Char}
      (hnext : skipComments ts = t :: others) (hsource : source.toList = u ++ s ++ v)
      (hmunched : Munched t.token s v) (hspan : t.span = ⟨byteLength u, byteLength (u ++ s)⟩) :
      StandsOn source ts (u.count '\n' + 1)
  | atEnd {ts : List Lexeme} (h : skipComments ts = []) :
      StandsOn source ts (source.toList.count '\n' + 1)

/-- The error is about what comes next at `place`, on the line `line`, and the reader has stopped at
`rest`. -/
structure IsAbout (source : String) (lexemes : List Lexeme) (error : ParseError)
    (place rest : List Lexeme) (line : Nat) : Prop where
  stopped : Reader.statements lexemes = .error ⟨error.complaint, rest⟩
  blamed : Blamed lexemes error.complaint place rest
  place_line : StandsOn source place line
  error_line : StandsOn source rest error.line
  line_le : line ≤ error.line
  /-- A token that the message reports as found comes next, on the line of the error. -/
  reported : ∀ found, error.complaint.found? = some found →
    peek place = found ∧ line = error.line ∧ ∃ before after,
      error.complaint.message = before ++ Complaint.describe found ++ after

variable {source : String} {lexemes ts rest : List Lexeme}

/-! ## Lines along the lexemes -/

theorem foldl_nextLine (line : Nat) (cs : List Char) :
    cs.foldl (fun line c => nextLine c line) line = cs.count '\n' + line := by
  induction cs generalizing line with
  | nil => exact (Nat.zero_add line).symm
  | cons c cs ih =>
    rw [List.foldl_cons, ih]
    by_cases hc : c = '\n'
    · rw [nextLine, if_pos hc, hc, List.count_cons_self]
      omega
    · rw [nextLine, if_neg hc, List.count_cons_of_ne hc]

theorem endLine_eq (source : String) : endLine source = source.toList.count '\n' + 1 :=
  foldl_nextLine 1 source.toList

theorem tiles_of_tokenize (h : tokenize source = .ok lexemes) :
    Tiles [] source.toList [] lexemes := by
  have hread : IsMaximalMunch ([] ++ source.toList.take 0) (source.toList.drop 0)
      (tokenize source) := .lexemesFrom rfl rfl
  rw [h] at hread
  cases hread with
  | read tiles => exact tiles

/-- Of two places in a text, the one with fewer bytes before it has no more line feeds before it. -/
theorem count_le_of_byteLength_lt {u v x y : List Char} (h : u ++ v = x ++ y)
    (hlt : byteLength u < byteLength x) : u.count '\n' ≤ x.count '\n' := by
  rcases List.append_eq_append_iff.1 h with ⟨w, rfl, -⟩ | ⟨w, rfl, -⟩
  · rw [List.count_append]
    exact Nat.le_add_right _ _
  · rw [byteLength_append] at hlt
    exact absurd hlt (Nat.not_lt_of_le (Nat.le_add_right _ _))

/-- No lexeme stands above one before it. -/
theorem line_pairwise (h : tokenize source = .ok lexemes) :
    lexemes.Pairwise fun l l' => l.line ≤ l'.line := by
  have htiles := tiles_of_tokenize h
  refine htiles.ordered.imp_of_mem fun {l l'} hl hl' hstop => ?_
  obtain ⟨u, s, v, hsource, -, hspan, hline⟩ := htiles.munched l hl
  obtain ⟨u', s', v', hsource', -, hspan', hline'⟩ := htiles.munched l' hl'
  have hlt := Nat.lt_of_lt_of_le (htiles.start_lt_stop l hl) hstop
  rw [hspan, hspan'] at hlt
  rw [hline, hline']
  refine Nat.succ_le_succ (count_le_of_byteLength_lt (v := s ++ v) (y := s' ++ v') ?_ hlt)
  simp only [List.nil_append, ← List.append_assoc]
  rw [← hsource, ← hsource']

theorem line_le_endLine (h : tokenize source = .ok lexemes) {t : Lexeme} (ht : t ∈ lexemes) :
    t.line ≤ endLine source := by
  obtain ⟨u, s, v, hsource, -, -, hline⟩ := (tiles_of_tokenize h).munched t ht
  rw [hline, endLine_eq, hsource, List.nil_append, List.append_assoc, List.count_append]
  exact Nat.succ_le_succ (Nat.le_add_right _ _)

/-! ## The line that is reported -/

theorem standsOn_nextLine? (h : tokenize source = .ok lexemes) (hts : ts <:+ lexemes) :
    StandsOn source ts ((nextLine? ts).getD (endLine source)) := by
  unfold nextLine?
  cases hskip : skipComments ts with
  | nil =>
    rw [List.head?_nil, Option.map_none, Option.getD_none, endLine_eq]
    exact .atEnd hskip
  | cons t others =>
    have ht := hts.mem ((suffix_of_skipComments_eq hskip).mem (.head others))
    obtain ⟨u, s, v, hsource, hmunched, hspan, hline⟩ := (tiles_of_tokenize h).munched t ht
    rw [List.append_nil] at hmunched
    rw [List.head?_cons, Option.map_some, Option.getD_some, hline]
    exact .token hskip hsource hmunched hspan

/-- Further on in the text the next token stands on no line above. -/
theorem nextLine?_le (h : tokenize source = .ok lexemes) (hts : ts <:+ lexemes)
    (hrest : rest <:+ ts) :
    (nextLine? ts).getD (endLine source) ≤ (nextLine? rest).getD (endLine source) := by
  have hlines : (significant ts).Pairwise fun l l' => l.line ≤ l'.line :=
    ((line_pairwise h).sublist hts.sublist).filter _
  have hmem {t : Lexeme} (ht : t ∈ significant ts) : t ∈ lexemes :=
    hts.mem (List.mem_of_mem_filter ht)
  have hrest : significant rest <:+ significant ts := hrest.filter _
  rw [nextLine?, nextLine?, significant_skipComments.1, significant_skipComments.1]
  cases hnext : significant ts with
  | nil =>
    rw [hnext, List.suffix_nil] at hrest
    rw [hrest]
  | cons t others =>
    rw [hnext] at hlines hmem hrest
    cases hlater : significant rest with
    | nil => exact line_le_endLine h (hmem (.head others))
    | cons t' others' =>
      rw [hlater] at hrest
      rcases List.mem_cons.1 (hrest.mem (.head others')) with rfl | ht'
      · exact Nat.le_refl _
      · exact List.rel_of_pairwise_cons hlines ht'

/-- A text is refused if it is refused whatever becomes of its declarations. -/
theorem parseSchema_eq_error {path : String} {error : ParseError}
    (h : (parseSchema path source).map (fun _ => ()) = .error error) :
    parseSchema path source = .error error := by
  cases hread : parseSchema path source with
  | error error' =>
    rw [hread] at h
    cases h
    rfl
  | ok file =>
    rw [hread] at h
    cases h

/--
**Errors carry lines.** A text that has lexemes and is refused: the error has the path that was
given, it is about what comes next at some place among the lexemes, and its line is that of the next
token where reading has stopped, or the last line of the text. This is the line of the token that
the message reports as found, which has not been taken. A literal that the message refuses has been
taken, and the name of a dialect with the semicolon behind it: then the line is that of what
follows, and no line above that of the literal. Lines are natural numbers: they are those of 32 bits
if the text has fewer than `2 ^ 32 - 1` line feeds.
-/
theorem parseSchema_error_line {path : String} {error : ParseError}
    (htokenize : tokenize source = .ok lexemes) (h : parseSchema path source = .error error) :
    error.path = path ∧ ∃ place rest line, IsAbout source lexemes error place rest line := by
  unfold parseSchema at h
  rw [htokenize] at h
  dsimp only at h
  cases hread : Reader.statements lexemes with
  | ok read =>
    rw [hread] at h
    cases h
  | error refusal =>
    rw [hread] at h
    cases h
    obtain ⟨place, hblamed⟩ :=
      (Reader.Blames.statements (n := lexemes.length)).blames lexemes (Nat.le_refl _) refusal hread
    obtain ⟨hrest, hplace⟩ := hblamed.rest_suffix
    refine ⟨rfl, place, refusal.rest, _, hread, hblamed, standsOn_nextLine? htokenize hplace,
      standsOn_nextLine? htokenize (hrest.trans hplace), nextLine?_le htokenize hplace hrest,
      fun found hfound => ?_⟩
    obtain ⟨hsame, hpeek⟩ := hblamed.eq_of_found hfound
    exact ⟨hpeek, by rw [hsame], Complaint.exists_message_eq hfound⟩

/-- A field without its semicolon, a line above the brace that is found. -/
def openFieldText : String :=
  "message A \x7b\n  int32 x = 1 // one\n\x7d"

theorem parseSchema_error_line_openFieldText : ∃ lexemes, tokenize openFieldText = .ok lexemes ∧
    ∃ place rest, IsAbout openFieldText lexemes
      ⟨.expectedMark .semi (some (.mark .rightBrace)), "a", 3⟩ place rest 3 := by
  have htokenize : (tokenize openFieldText).isOk = true := by decide +kernel
  cases hlexemes : tokenize openFieldText with
  | error place =>
    rw [hlexemes] at htokenize
    cases htokenize
  | ok lexemes =>
    have hrefused : parseSchema "a" openFieldText =
        .error ⟨.expectedMark .semi (some (.mark .rightBrace)), "a", 3⟩ :=
      parseSchema_eq_error (by decide +kernel)
    obtain ⟨-, place, rest, line, habout⟩ := parseSchema_error_line hlexemes hrefused
    obtain ⟨-, rfl, -⟩ := habout.reported _ rfl
    exact ⟨lexemes, rfl, place, rest, habout⟩

/-- A number with a digit that is not octal, a line above the semicolon behind it. -/
def octalText : String :=
  "message A\x7bint32 x = 09\n;\x7d"

/-- The number stands on the first line, and the error is reported on the second. -/
theorem parseSchema_octalText :
    (tokenize octalText).map (·.filter (·.token == .int "09")) =
        .ok [⟨.int "09", ⟨20, 22⟩, 1⟩] ∧
      parseSchema "a" octalText = .error ⟨.invalidInteger "09", "a", 2⟩ :=
  ⟨by decide +kernel, parseSchema_eq_error (by decide +kernel)⟩

end SchemaGraph
