import SchemaGraph.Proofs.Schema.Numbers
import SchemaGraph.Proofs.Schema.Statements
/-!
# What a refusal is about

`Blamed ts complaint place rest` says what a complaint about the lexemes `ts` is about. Either it
names the token that comes next where the reader stopped; or it refuses a literal that has been
taken already, and then the reader has stopped behind it. `Reader.Blames n x` says that this is so
of all refusals of `x` on at most `n` lexemes. There is one lemma for each reader, in the order of
the grammar. The bounds never run out before the lexemes do: each element of a body takes a lexeme,
and the bodies inside it have fewer left (`Blames.elementsWithin`, `Blames.messageElement`).
-/

namespace SchemaGraph

/-! ## Complaints -/

/-- The token that a complaint reports as found or unexpected, absent at the end of the text. The
other complaints are about what a token stands for. -/
def Complaint.found? : Complaint → Option (Option Token)
  | expectedMark _ found => some found
  | expectedKeyword _ found => some found
  | expectedIdent found => some found
  | expectedString found => some found
  | expectedInteger found => some found
  | unbalanced mark => some (some (.mark mark))
  | endOfText => some none
  | endOfBody _ => some none
  | strayAtTopLevel token => some (some token)
  | strayInService found => some found
  | unreadable _ | invalidInteger _ | fieldNumberOutOfRange _ | unknownDialect _ => none

/-- What a complaint reports as found is shown in its message. -/
theorem Complaint.exists_message_eq {complaint : Complaint} {found : Option Token}
    (h : complaint.found? = some found) : ∃ before after,
      complaint.message = before ++ describe found ++ after := by
  have hquoted (before after : String) (token : Token) :
      (before ++ "'") ++ token.text ++ ("'" ++ after) =
        before ++ describe (some token) ++ after := by
    simp only [describe, String.append_assoc]
  cases complaint with
  | expectedMark mark found =>
    cases h
    exact ⟨"expected '" ++ (Token.mark mark).text ++ "', found ", "", String.append_empty.symm⟩
  | expectedKeyword keyword found =>
    cases h
    exact ⟨"expected '" ++ keyword ++ "', found ", "", String.append_empty.symm⟩
  | expectedIdent found =>
    cases h
    exact ⟨"expected identifier, found ", "", String.append_empty.symm⟩
  | expectedString found =>
    cases h
    exact ⟨"expected string, found ", "", String.append_empty.symm⟩
  | expectedInteger found =>
    cases h
    exact ⟨"expected integer, found ", "", String.append_empty.symm⟩
  | unbalanced mark =>
    cases h
    exact ⟨"unbalanced ", "", hquoted "unbalanced " "" (.mark mark)⟩
  | endOfText =>
    cases h
    exact ⟨"unexpected ", "", rfl⟩
  | endOfBody place =>
    cases h
    refine ⟨"unexpected ", " in " ++ place.text, ?_⟩
    show ("unexpected " ++ "end of file") ++ " in " ++ place.text = _
    exact String.append_assoc
  | strayAtTopLevel token =>
    cases h
    exact ⟨"unexpected ", " at top level", hquoted "unexpected " " at top level" token⟩
  | strayInService found =>
    cases h
    exact ⟨"unexpected ", " in service body", rfl⟩
  | unreadable | invalidInteger | fieldNumberOutOfRange | unknownDialect => cases h

/-- What the complaint is about comes next at `place`, and the reader has stopped at `rest`. -/
inductive Blamed (ts : List Lexeme) : Complaint → (place rest : List Lexeme) → Prop
  /-- The next token is not the one that is needed, and it has not been taken. -/
  | next {complaint : Complaint} {place : List Lexeme} (hplace : place <:+ ts)
      (hfound : complaint.found? = some (peek place)) : Blamed ts complaint place place
  /-- An integer literal denotes nothing that fits in 63 bits. -/
  | invalidInteger {negative : Bool} {digits : String} {place rest : List Lexeme}
      (hplace : place <:+ ts) (hnext : NextInteger negative digits place rest)
      (hlarge : ∀ v, Denotes digits.toList v → 2 ^ 63 ≤ v) :
      Blamed ts (.invalidInteger digits) place rest
  /-- The number of a field does not fit in 32 bits without sign. -/
  | fieldNumber {negative : Bool} {digits : String} {v : Nat} {place rest : List Lexeme}
      (hplace : place <:+ ts) (hnext : NextInteger negative digits place rest)
      (hdenotes : Denotes digits.toList v)
      (hrange : ¬ (0 ≤ signed negative v ∧ signed negative v < 2 ^ 32)) :
      Blamed ts (.fieldNumberOutOfRange (signed negative v)) place rest
  /-- A string literal names no dialect. The semicolon behind it has been taken too. -/
  | dialect {name : String} {t semi : Lexeme} {between rest : List Lexeme}
      (hplace : t :: between <:+ ts) (ht : t.token = .str name)
      (hbetween : skipComments between = semi :: rest) (hsemi : semi.token = .mark .semi)
      (hname : name ≠ "proto2" ∧ name ≠ "proto3") :
      Blamed ts (.unknownDialect name) (t :: between) rest

variable {α β : Type} {ts ts' place rest : List Lexeme} {complaint : Complaint}

theorem suffix_of_skipComments_eq {t : Lexeme} (h : skipComments ts = t :: rest) :
    t :: rest <:+ ts :=
  h ▸ skipComments_suffix ts

theorem NextInteger.suffix {negative : Bool} {digits : String}
    (h : NextInteger negative digits ts rest) : rest <:+ ts := by
  cases h with
  | plain h _ => exact (List.suffix_cons _ _).trans (suffix_of_skipComments_eq h)
  | minus hm _ h _ =>
    have hbetween := (List.suffix_cons _ _).trans (suffix_of_skipComments_eq hm)
    exact ((List.suffix_cons _ _).trans (suffix_of_skipComments_eq h)).trans hbetween

namespace Blamed

theorem of_suffix (h : Blamed ts complaint place rest) (hts : ts <:+ ts') :
    Blamed ts' complaint place rest := by
  cases h with
  | next hplace hfound => exact .next (hplace.trans hts) hfound
  | invalidInteger hplace hnext hlarge => exact .invalidInteger (hplace.trans hts) hnext hlarge
  | fieldNumber hplace hnext hdenotes hrange =>
    exact .fieldNumber (hplace.trans hts) hnext hdenotes hrange
  | dialect hplace ht hbetween hsemi hname =>
    exact .dialect (hplace.trans hts) ht hbetween hsemi hname

theorem exists_cons {t : Lexeme} (h : ∃ place, Blamed ts complaint place rest) :
    ∃ place, Blamed (t :: ts) complaint place rest := by
  obtain ⟨place, h⟩ := h
  exact ⟨place, h.of_suffix (List.suffix_cons t ts)⟩

/-- The reader has not stopped before what the complaint is about. -/
theorem rest_suffix (h : Blamed ts complaint place rest) : rest <:+ place ∧ place <:+ ts := by
  cases h with
  | next hplace _ => exact ⟨List.suffix_refl _, hplace⟩
  | invalidInteger hplace hnext _ => exact ⟨hnext.suffix, hplace⟩
  | fieldNumber hplace hnext _ _ => exact ⟨hnext.suffix, hplace⟩
  | dialect hplace _ hbetween _ _ =>
    have hrest := (List.suffix_cons _ _).trans (suffix_of_skipComments_eq hbetween)
    exact ⟨hrest.trans (List.suffix_cons _ _), hplace⟩

/-- The token that is reported as found comes next, and has not been taken. -/
theorem eq_of_found {found : Option Token} (h : Blamed ts complaint place rest)
    (hfound : complaint.found? = some found) : place = rest ∧ peek place = found := by
  cases h with
  | next _ hpeek => exact ⟨rfl, Option.some.inj (hpeek.symm.trans hfound)⟩
  | invalidInteger | fieldNumber | dialect => cases hfound

end Blamed

namespace Reader

/-! ## What has been taken -/

/-- A token that must come next has been taken, with the comments before it. -/
theorem exists_of_taken {token : Token} {complaint : Option Token → Complaint}
    (h : (do if (← next) = some token then advance else refuseNext complaint : Reader Unit) ts =
      .ok ((), rest)) : ∃ t, skipComments ts = t :: rest ∧ t.token = token := by
  obtain ⟨hpeek, htaken⟩ := peek_of_taken h
  obtain ⟨t, behind, hskip, ht, hadvance⟩ := exists_of_peek_eq hpeek
  rw [hadvance] at htaken
  cases htaken
  exact ⟨t, hskip, ht⟩

theorem exists_of_str {value : String} (h : str ts = .ok (value, rest)) :
    ∃ t, skipComments ts = t :: rest ∧ t.token = .str value := by
  rw [str, bind_eq (x := next) rfl] at h
  cases hpeek : peek ts with
  | none =>
    rw [hpeek] at h
    cases h
  | some token =>
    rw [hpeek] at h
    obtain ⟨t, behind, hskip, ht, hadvance⟩ := exists_of_peek_eq hpeek
    cases token with
    | str =>
      dsimp only at h
      rw [bind_eq hadvance] at h
      cases h
      exact ⟨t, hskip, ht⟩
    | _ => cases h

/-- The name of a dialect is the literal before the semicolon that is taken last. -/
theorem exists_of_dialectValue {name : String} (h : dialectValue ts = .ok (name, rest)) :
    ∃ t semi between, t :: between <:+ ts ∧ t.token = .str name ∧
      skipComments between = semi :: rest ∧ semi.token = .mark .semi := by
  obtain ⟨_, behind, hequals, h⟩ := bind_eq_ok h
  obtain ⟨value, between, hstr, h⟩ := bind_eq_ok h
  obtain ⟨_, last, hexpect, h⟩ := bind_eq_ok h
  cases h
  obtain ⟨t, hskip, ht⟩ := exists_of_str hstr
  obtain ⟨semi, hlast, hsemi⟩ := exists_of_taken hexpect
  refine ⟨t, semi, between, ?_, ht, hlast, hsemi⟩
  exact (suffix_of_skipComments_eq hskip).trans (TakesFront.expect .equals _ _ _ hequals)

/-! ## Readers that blame -/

/-- Every complaint of the reader about the lexemes is about what comes next somewhere in them. -/
def BlamesAt (x : Reader α) (ts : List Lexeme) : Prop :=
  ∀ refusal, x ts = .error refusal → ∃ place, Blamed ts refusal.complaint place refusal.rest

/-- The reader takes lexemes from the front, and every complaint about at most `n` lexemes is about
what comes next somewhere in them. -/
structure Blames (n : Nat) (x : Reader α) : Prop where
  front : TakesFront x
  blames : ∀ ts, ts.length ≤ n → BlamesAt x ts

theorem BlamesAt.bind {x : Reader α} {f : α → Reader β} (hx : BlamesAt x ts)
    (hfront : TakesFront x) (hf : ∀ a rest, x ts = .ok (a, rest) → BlamesAt (f a) rest) :
    BlamesAt (x >>= f) ts := by
  intro refusal h
  simp only [Bind.bind] at h
  cases hread : x ts with
  | error first =>
    rw [hread] at h
    cases h
    exact hx _ hread
  | ok read =>
    rw [hread] at h
    obtain ⟨place, hblamed⟩ := hf read.1 read.2 hread refusal h
    exact ⟨place, hblamed.of_suffix (hfront ts read.1 read.2 hread)⟩

theorem BlamesAt.of_cons {t : Lexeme} {x y : Reader α} (hx : x (t :: ts) = y ts)
    (hy : BlamesAt y ts) : BlamesAt x (t :: ts) :=
  fun refusal h => Blamed.exists_cons (hy refusal (hx ▸ h))

namespace Blames

variable {n m : Nat}

theorem mono {x : Reader α} (hx : Blames m x) (hle : n ≤ m) : Blames n x :=
  ⟨hx.front, fun ts hts => hx.blames ts (hts.trans hle)⟩

theorem of_never {x : Reader α} (hfront : TakesFront x) (h : ∀ ts refusal, x ts ≠ .error refusal) :
    Blames n x :=
  ⟨hfront, fun ts _ refusal hx => absurd hx (h ts refusal)⟩

/-! ## Single steps -/

theorem pure (a : α) : Blames n (Pure.pure a : Reader α) :=
  of_never (.pure a) nofun

theorem bind {x : Reader α} {f : α → Reader β} (hx : Blames n x) (hf : ∀ a, Blames n (f a)) :
    Blames n (x >>= f) := by
  refine ⟨.bind hx.front fun a => (hf a).front, fun ts hts => ?_⟩
  refine (hx.blames ts hts).bind hx.front fun a rest hread => ?_
  exact (hf a).blames rest ((hx.front ts a rest hread).length_le.trans hts)

theorem map {x : Reader α} (hx : Blames n x) (f : α → β) : Blames n (f <$> x) :=
  bind hx fun a => pure (f a)

theorem ite {p : Prop} [Decidable p] {x y : Reader α} (hx : Blames n x) (hy : Blames n y) :
    Blames n (if p then x else y) := by
  split
  · exact hx
  · exact hy

/-- A reader that only looks. -/
theorem look (f : List Lexeme → α) : Blames n (fun ts => .ok (f ts, ts) : Reader α) :=
  of_never (.look f) nofun

theorem next : Blames n Reader.next :=
  look peek

theorem line : Blames n Reader.line :=
  look fun ts => (nextLine? ts).getD 0

theorem advance : Blames n Reader.advance :=
  of_never .advance nofun

/-- The token that comes next is to blame. -/
theorem refuseNext {complaint : Option Token → Complaint}
    (h : ∀ found, (complaint found).found? = some found) :
    Blames n (Reader.refuseNext complaint : Reader α) := by
  refine ⟨.refuseNext complaint, fun ts _ refusal hrefused => ?_⟩
  cases hrefused
  exact ⟨ts, .next (List.suffix_refl ts) (h (peek ts))⟩

theorem eat (mark : Mark) : Blames n (Reader.eat mark) :=
  bind next fun _ => ite (bind advance fun _ => pure true) (pure false)

theorem expect (mark : Mark) : Blames n (Reader.expect mark) :=
  bind next fun _ => ite advance (refuseNext fun _ => rfl)

theorem atKeyword (keyword : String) : Blames n (Reader.atKeyword keyword) :=
  bind next fun _ => pure _

theorem expectKeyword (keyword : String) : Blames n (Reader.expectKeyword keyword) :=
  bind next fun _ => ite advance (refuseNext fun _ => rfl)

theorem ident : Blames n Reader.ident := by
  refine bind next fun token => ?_
  split
  · exact bind advance fun _ => pure _
  · exact refuseNext fun _ => rfl

theorem str : Blames n Reader.str := by
  refine bind next fun token => ?_
  split
  · exact bind advance fun _ => pure _
  · exact refuseNext fun _ => rfl

/-- Behind a keyword there are fewer lexemes. -/
theorem afterKeyword {keyword : String} {f : Unit → Reader α} (hf : ∀ a, Blames n (f a)) :
    Blames (n + 1) (Reader.expectKeyword keyword >>= f) := by
  refine ⟨.bind (.expectKeyword keyword) fun a => (hf a).front, fun ts hts => ?_⟩
  refine ((expectKeyword keyword).blames ts hts).bind (.expectKeyword keyword) fun a rest h => ?_
  obtain ⟨t, hskip, -⟩ := exists_of_taken h
  have hshorter := (suffix_of_skipComments_eq hskip).length_le
  exact (hf a).blames rest (Nat.le_of_succ_le_succ (hshorter.trans hts))

/-! ## Repetition -/

theorem repeatWithin {step : Reader (Option α)} (hstep : Blames n step) (bound : List Lexeme) :
    Blames n (Reader.repeatWithin step bound) := by
  induction bound with
  | nil => exact pure []
  | cons _ bound ih =>
    refine bind hstep fun answer => ?_
    cases answer with
    | none => exact pure []
    | some a => exact bind ih fun _ => pure _

theorem repeated {step : Reader (Option α)} (hstep : Blames n step) :
    Blames n (Reader.repeated step) :=
  ⟨.repeated hstep.front, fun ts hts => (repeatWithin hstep ts).blames ts hts⟩

/-- Items that each follow a mark. -/
theorem separated {mark : Mark} {item : Reader α} (hitem : Blames n item) :
    Blames n (Reader.repeated (do if ← Reader.eat mark then some <$> item else return none)) :=
  repeated (bind (eat mark) fun _ => ite (map hitem some) (pure none))

theorem dottedName : Blames n Reader.dottedName :=
  bind (eat _) fun _ => bind ident fun _ => bind (separated ident) fun _ => pure _

section

variable {place : BodyPlace} {comment : String → α} {element : Reader α} {element' : Reader β}
  {R : α → β → Prop}

/-- The end of the text is to blame when a body is not closed: each element takes a lexeme, so that
there are no more elements than the bound allows. -/
theorem elementsWithin (helement : Blames n element)
    (hagrees : ∀ m < n, Agrees (m + 1) m R element element') (bound ts : List Lexeme)
    (hbound : ts.length ≤ bound.length) (hts : ts.length ≤ n) :
    BlamesAt (Reader.elementsWithin place comment element bound) ts := by
  have hend (bound : List Lexeme) :
      BlamesAt (Reader.elementsWithin place comment element bound) [] := by
    intro refusal h
    rw [elementsWithin_nil] at h
    cases h
    exact ⟨[], .next (List.suffix_refl []) rfl⟩
  induction bound generalizing ts with
  | nil =>
    obtain rfl : ts = [] := List.length_eq_zero_iff.1 (Nat.le_zero.1 hbound)
    exact hend []
  | cons l bound ih =>
    cases ts with
    | nil => exact hend _
    | cons t ts =>
      have hbound : ts.length ≤ bound.length := Nat.le_of_succ_le_succ hbound
      have hrest := ih ts hbound (Nat.le_of_succ_le hts)
      have hfront := TakesFront.elementsWithin place comment helement.front bound
      by_cases ht : t.token.isComment = true
      · obtain ⟨text, htext⟩ := Token.exists_comment? ht
        refine .of_cons (elementsWithin_comment htext l bound ts) ?_
        exact hrest.bind hfront fun _ _ _ => (pure _).blames _ (Nat.le_refl _)
      have ht : t.token.isComment = false := by simpa using ht
      intro refusal h
      rw [elementsWithin_cons ht] at h
      by_cases hbrace : t.token = .mark .rightBrace
      · rw [if_pos hbrace] at h
        cases h
      rw [if_neg hbrace] at h
      by_cases hsemi : t.token = .mark .semi
      · rw [if_pos hsemi] at h
        exact Blamed.exists_cons (hrest refusal h)
      rw [if_neg hsemi] at h
      -- The element takes its first lexeme, so that the bound goes down with the text.
      refine (helement.blames (t :: ts) hts).bind helement.front (fun a rest hread => ?_) refusal h
      have hagrees := hagrees _ (Nat.lt_of_le_of_lt (length_significant_le ts) hts)
      have hshorter := hagrees.length_le helement.front ht hread
      have hothers := ih rest (hshorter.trans hbound) (hshorter.trans (Nat.le_of_succ_le hts))
      exact hothers.bind hfront fun _ _ _ => (pure _).blames _ (Nat.le_refl _)

theorem elements (helement : Blames n element)
    (hagrees : ∀ m < n, Agrees (m + 1) m R element element') :
    Blames n (Reader.elements place comment element) :=
  ⟨.elements _ _ helement.front, fun ts hts =>
    elementsWithin helement hagrees ts ts (Nat.le_refl _) hts⟩

theorem body (helement : Blames n element)
    (hagrees : ∀ m < n, Agrees (m + 1) m R element element') :
    Blames n (Reader.body place comment element) :=
  bind (expect _) fun _ => elements helement hagrees

end

/-! ## Raw texts, options and numbers -/

/-- Only a closing mark has no depth after it. -/
theorem eq_mark_of_depthAfter {depth : Nat} {token : Token} {m : Mark}
    (h : depthAfter depth token = .error m) : token = .mark m := by
  unfold depthAfter at h
  split at h
  · split at h
    · cases h
    · split at h
      · split at h
        · cases h
          rfl
        · cases h
      · cases h
  · cases h

theorem rawTokens (terminator : Mark) (depth : Nat) :
    Blames n (Reader.rawTokens terminator depth) := by
  refine ⟨.rawTokens terminator depth, fun ts hts refusal h => ?_⟩
  clear hts
  fun_induction Reader.rawTokens terminator depth ts with
  | case1 =>
    cases h
    exact ⟨[], .next (List.suffix_refl []) rfl⟩
  | case2 _ _ _ _ ih => exact Blamed.exists_cons (ih h)
  | case3 => cases h
  | case4 _ t ts ht _ m hdepth =>
    cases h
    have hpeek : peek (t :: ts) = some t.token := by simp [peek, skipComments, ht]
    refine ⟨t :: ts, .next (List.suffix_refl _) ?_⟩
    rw [hpeek, eq_mark_of_depthAfter hdepth]
    rfl
  | case5 _ _ _ _ _ _ _ _ hothers ih =>
    cases h
    exact Blamed.exists_cons (ih hothers)
  | case6 => cases h

theorem rawText (terminator : Mark) : Blames n (Reader.rawText terminator) :=
  bind (rawTokens terminator 0) fun _ => pure _

theorem optionDecl : Blames n Reader.optionDecl :=
  bind (expectKeyword _) fun _ => bind (rawText _) fun _ => bind (expect _) fun _ =>
    bind (rawText _) fun _ => bind (expect _) fun _ => pure _

theorem bracketedOptions : Blames n Reader.bracketedOptions :=
  bind (eat _) fun _ => ite (bind (rawText _) fun _ => bind (expect _) fun _ => pure _) (pure none)

/-- An integer is refused for the token that stands in its place, or for what it denotes. -/
theorem integer : Blames n Reader.integer := by
  refine ⟨.integer, fun ts _ refusal h => ?_⟩
  by_cases hnext : ∃ negative digits rest, NextInteger negative digits ts rest
  · obtain ⟨negative, digits, rest, hnext⟩ := hnext
    rw [integer_of_next hnext] at h
    cases hvalue : integerValue? digits with
    | some v =>
      rw [hvalue] at h
      cases h
    | none =>
      rw [hvalue] at h
      cases h
      exact ⟨ts, .invalidInteger (List.suffix_refl ts) hnext (integerValue?_eq_none_iff.1 hvalue)⟩
  · -- Behind the sign another token comes next, and it is to blame.
    refine ((eat (n := ts.length) .minus).blames ts (Nat.le_refl _)).bind (.eat .minus)
      (fun negative between hsign => ?_) refusal (integer_eq_bind ▸ h)
    have hother (digits : String) : peek between ≠ some (.int digits) := by
      intro hpeek
      obtain ⟨t, rest, hskip, ht, -⟩ := exists_of_peek_eq hpeek
      refine hnext ?_
      by_cases hminus : peek ts = some (.mark .minus)
      · obtain ⟨m, behind, hm, hmark, -⟩ := exists_of_peek_eq hminus
        rw [Blind.eat_of_peek hminus, hm, List.tail_cons] at hsign
        cases hsign
        exact ⟨true, digits, rest, .minus hm hmark hskip ht⟩
      · rw [eat_of_peek_ne hminus] at hsign
        cases hsign
        exact ⟨false, digits, rest, .plain hskip ht⟩
    intro refusal h
    rw [literal, bind_eq (x := Reader.next) rfl] at h
    cases hpeek : peek between with
    | none =>
      rw [hpeek] at h
      cases h
      exact ⟨between, .next (List.suffix_refl _) rfl⟩
    | some token =>
      rw [hpeek] at h
      cases token with
      | int digits => exact absurd hpeek (hother digits)
      | _ =>
        cases h
        exact ⟨between, .next (List.suffix_refl _) rfl⟩

theorem fieldNumber : Blames n Reader.fieldNumber := by
  refine ⟨.fieldNumber, fun ts hts refusal h => ?_⟩
  cases hread : Reader.integer ts with
  | error first =>
    have herror : Reader.fieldNumber ts = .error first := by
      simp only [Reader.fieldNumber, Bind.bind, hread]
    rw [herror] at h
    cases h
    exact integer.blames ts hts _ hread
  | ok read =>
    obtain ⟨value, rest⟩ := read
    obtain ⟨negative, digits, v, hnext, hvalue, rfl⟩ := exists_next_of_integer hread
    rw [fieldNumber_of_integer hread] at h
    split at h
    · cases h
    · rename_i hrange
      cases h
      exact ⟨ts, .fieldNumber (List.suffix_refl ts) hnext (integerValue?_eq_some_iff.1 hvalue).1
        hrange⟩

theorem reservedItem : Blames n Reader.reservedItem := by
  refine bind next fun token => ?_
  split
  · exact bind advance fun _ => pure _
  · exact ite (refuseNext fun _ => rfl) (bind advance fun _ => pure _)
  · refine bind integer fun start => bind (atKeyword _) fun isRange => ite ?_ (pure _)
    refine bind advance fun _ => bind (atKeyword _) fun isMax => ite ?_ ?_
    · exact bind advance fun _ => pure _
    · exact bind integer fun _ => pure _

theorem reservedItems : Blames n Reader.reservedItems :=
  bind reservedItem fun _ => bind (separated reservedItem) fun _ => pure _

/-! ## Fields and enums -/

theorem fieldLabel : Blames n Reader.fieldLabel := by
  refine bind (look (ahead 2)) fun start => ?_
  dsimp only
  exact ite (bind advance fun _ => pure _) (pure _)

theorem fieldAfterLabel (label : FieldLabel) (line : Nat) :
    Blames n (Reader.fieldAfterLabel label line) :=
  bind dottedName fun _ => bind ident fun _ => bind (expect _) fun _ => bind fieldNumber fun _ =>
    bind bracketedOptions fun _ => bind (expect _) fun _ => pure _

theorem mapField : Blames n Reader.mapField :=
  bind line fun _ => bind (expectKeyword _) fun _ => bind (expect _) fun _ =>
    bind dottedName fun _ => bind (expect _) fun _ => bind dottedName fun _ =>
    bind (expect _) fun _ => bind ident fun _ => bind (expect _) fun _ => bind fieldNumber fun _ =>
    bind bracketedOptions fun _ => bind (expect _) fun _ => pure _

theorem enumElement : Blames n Reader.enumElement := by
  refine bind (look (ahead 2)) fun start => ite ?_ (ite ?_ ?_)
  · exact bind optionDecl fun _ => pure _
  · exact bind advance fun _ => bind reservedItems fun _ => bind (expect _) fun _ => pure _
  · exact bind ident fun _ => bind (expect _) fun _ => bind integer fun _ =>
      bind bracketedOptions fun _ => bind (expect _) fun _ => pure _

theorem enumDecl : Blames n Reader.enumDecl :=
  bind line fun _ => bind (expectKeyword _) fun _ => bind ident fun _ =>
    bind (body enumElement fun _ _ => Agrees.enumElement) fun _ => pure _

/-! ## Messages -/

theorem atExtend : Blames n Reader.atExtend :=
  bind (atKeyword _) fun _ => ite (bind (look fun ts => ahead ts.length ts) fun _ => pure _)
    (pure false)

section

variable {element : Reader MessageElement} (helement : Blames n element)
  (hagrees : ∀ m < n, Agrees (m + 1) m (fun a b => a.uncommented? = some b) element element)

include helement hagrees

theorem groupAfterLabel : Blames (n + 1) (Reader.groupAfterLabel element) :=
  afterKeyword fun _ => bind ident fun _ => bind (expect _) fun _ => bind fieldNumber fun _ =>
    bind bracketedOptions fun _ => bind (body helement hagrees) fun _ => pure _

/-- What follows the label of a member: a group or a field. -/
theorem groupOrField {group : FieldLabel → Nat → String × UInt32 × List MessageElement → α}
    {field : Field → α} : Blames (n + 1) (do
      let line ← Reader.line
      let label ← Reader.fieldLabel
      if opensGroup (← lookahead 3) then
        return group label line (← Reader.groupAfterLabel element)
      else
        return field (← Reader.fieldAfterLabel label line)) :=
  bind line fun line => bind fieldLabel fun label => bind (look (ahead 3)) fun _ =>
    ite (bind (groupAfterLabel helement hagrees) fun _ => pure _)
      (bind (fieldAfterLabel label line) fun _ => pure _)

theorem oneofElement : Blames (n + 1) (Reader.oneofElement element) :=
  bind (look (ahead 4)) fun _ => ite (bind optionDecl fun _ => pure _)
    (groupOrField helement hagrees)

theorem extendDecl : Blames (n + 1) (Reader.extendDecl element) :=
  bind line fun _ => afterKeyword fun _ => bind dottedName fun _ =>
    bind (body helement hagrees) fun _ => pure _

theorem messageDecl : Blames (n + 1) (Reader.messageDecl element) :=
  bind line fun _ => afterKeyword fun _ => bind ident fun _ =>
    bind (body helement hagrees) fun _ => pure _

/-- An element of a message body, whose own bodies have fewer lexemes. -/
theorem messageElementWith : Blames (n + 1) (Reader.messageElementWith element) := by
  refine bind (look (ahead 4)) fun start => ?_
  dsimp only
  refine ite ?message (ite ?enum (ite ?oneof (bind atExtend fun extension =>
    ite ?extend (ite ?option (ite ?reserved (ite ?extensions (ite ?map ?member)))))))
  case message => exact bind (messageDecl helement hagrees) fun _ => pure _
  case enum => exact bind enumDecl fun _ => pure _
  case oneof =>
    have hmember := (oneofElement helement hagrees).mono (Nat.le_succ n)
    have hmembers (m : Nat) (hm : m < n) := Agrees.oneofElement (n := m) helement.front
      fun m' hm' => hagrees m' (hm'.trans hm)
    exact afterKeyword fun _ => bind ident fun _ => bind (body hmember hmembers) fun _ => pure _
  case extend => exact bind (extendDecl helement hagrees) fun _ => pure _
  case option => exact bind optionDecl fun _ => pure _
  case reserved =>
    exact bind advance fun _ => bind reservedItems fun _ => bind (expect _) fun _ => pure _
  case extensions =>
    exact bind advance fun _ => bind reservedItems fun _ => bind bracketedOptions fun _ =>
      bind (expect _) fun _ => pure _
  case map => exact bind mapField fun _ => pure _
  case member => exact groupOrField helement hagrees

end

/-- The elements of message bodies, read within the depth that their lexemes allow. -/
theorem messageElement (depth : Nat) : Blames depth (Reader.messageElement depth) := by
  induction depth with
  | zero =>
    refine ⟨.messageElement 0, fun ts hts refusal h => ?_⟩
    obtain rfl : ts = [] := List.length_eq_zero_iff.1 (Nat.le_zero.1 hts)
    cases h
    exact ⟨[], .next (List.suffix_refl []) rfl⟩
  | succ depth ih =>
    -- One lexeme at least stands before the bodies inside, and `depth` is enough for the others.
    exact messageElementWith ih fun m hm => Agrees.messageElement hm hm

/-! ## Services -/

theorem rpcType : Blames n Reader.rpcType := by
  refine bind (expect _) fun _ => bind (look atStream) fun streaming => ?_
  split
  · exact bind advance fun _ => bind dottedName fun _ => bind (expect _) fun _ => pure _
  · exact bind dottedName fun _ => bind (expect _) fun _ => pure _

theorem rpcOptions : Blames n Reader.rpcOptions := by
  refine bind (eat _) fun brace => ite ?_ (bind (expect _) fun _ => pure _)
  have hagrees (m : Nat) (_ : m < n) : Agrees (m + 1) m (fun a b => a.map some = some b)
      (some <$> Reader.optionDecl) (some <$> Reader.optionDecl) :=
    Blind.bind Blind.optionDecl fun _ => .pure rfl
  exact bind (elements (map optionDecl some) hagrees) fun _ => bind (eat _) fun _ => pure _

theorem rpc : Blames n Reader.rpc :=
  bind line fun _ => bind (expectKeyword _) fun _ => bind ident fun _ => bind rpcType fun _ =>
    bind (expectKeyword _) fun _ => bind rpcType fun _ => bind rpcOptions fun _ => pure _

theorem serviceElement : Blames n Reader.serviceElement :=
  bind (atKeyword _) fun _ => ite (bind optionDecl fun _ => pure _)
    (bind (atKeyword _) fun _ => ite (bind rpc fun _ => pure _) (refuseNext fun _ => rfl))

theorem service : Blames n Reader.service :=
  bind line fun _ => bind (expectKeyword _) fun _ => bind ident fun _ =>
    bind (body serviceElement fun _ _ => Agrees.serviceElement) fun _ => pure _

/-! ## Statements -/

theorem dialectValue : Blames n Reader.dialectValue :=
  bind (expect _) fun _ => bind str fun _ => bind (expect _) fun _ => pure _

theorem numberedDialect : Blames n Reader.numberedDialect := by
  refine ⟨.numberedDialect, fun ts hts => ?_⟩
  refine ((expectKeyword _).blames ts hts).bind (.expectKeyword _) fun _ behind _ => ?_
  intro refusal h
  cases hread : Reader.dialectValue behind with
  | error first =>
    simp only [Bind.bind, hread] at h
    cases h
    exact dialectValue.blames behind (Nat.le_refl _) _ hread
  | ok read =>
    obtain ⟨name, rest⟩ := read
    -- The semicolon has been taken too, so that only the name is left to refuse.
    obtain ⟨t, semi, between, hplace, ht, hbetween, hsemi⟩ := exists_of_dialectValue hread
    rw [bind_eq hread] at h
    by_cases hproto2 : name = "proto2"
    · rw [if_pos hproto2] at h
      cases h
    by_cases hproto3 : name = "proto3"
    · rw [if_neg hproto2, if_pos hproto3] at h
      cases h
    rw [if_neg hproto2, if_neg hproto3] at h
    cases h
    exact ⟨t :: between, .dialect hplace ht hbetween hsemi ⟨hproto2, hproto3⟩⟩

theorem importDecl : Blames n Reader.importDecl := by
  refine bind line fun _ => bind (expectKeyword _) fun _ => bind next fun token => ?_
  dsimp only
  exact ite (bind advance fun _ => bind str fun _ => bind (expect _) fun _ => pure _)
    (bind str fun _ => bind (expect _) fun _ => pure _)

/-- A text that starts no statement is to blame, by its keyword. -/
theorem statementOf {depth : Nat} {keyword : String} (hpeek : peek ts = some (.ident keyword))
    (hts : ts.length ≤ depth + 1) : BlamesAt (Reader.statementOf depth keyword) ts := by
  have hagrees (m : Nat) (hm : m < depth) := Agrees.messageElement hm hm
  have helement := messageElement depth
  unfold Reader.statementOf
  split
  · exact (bind numberedDialect fun _ => pure _).blames ts hts
  · exact (bind advance fun _ => bind dialectValue fun _ => pure _).blames ts hts
  · exact (bind advance fun _ => bind dottedName fun _ => bind (expect _) fun _ =>
      pure _).blames ts hts
  · exact (bind importDecl fun _ => pure _).blames ts hts
  · exact (bind optionDecl fun _ => pure _).blames ts hts
  · exact (bind (messageDecl helement hagrees) fun _ => pure _).blames ts hts
  · exact (bind enumDecl fun _ => pure _).blames ts hts
  · exact (bind service fun _ => pure _).blames ts hts
  · exact (bind (extendDecl helement hagrees) fun _ => pure _).blames ts hts
  · intro refusal h
    cases h
    exact ⟨ts, .next (List.suffix_refl ts) (congrArg some hpeek.symm)⟩

theorem statement? (depth : Nat) : Blames (depth + 1) (Reader.statement? depth) := by
  refine ⟨.statement? depth, fun ts hts => ?_⟩
  cases ts with
  | nil => exact fun _ h => by cases h
  | cons t ts =>
    have hstray (token : Token) (ht : peek (t :: ts) = some token) :
        BlamesAt (Reader.refuse (.strayAtTopLevel token) : Reader (Option (List Statement)))
          (t :: ts) := by
      intro refusal h
      cases h
      exact ⟨t :: ts, .next (List.suffix_refl _) (congrArg some ht.symm)⟩
    obtain ⟨token, span, line⟩ := t
    cases token with
    | lineComment | blockComment => exact fun _ h => by cases h
    | ident keyword =>
      exact (statementOf rfl hts).bind (.statementOf depth keyword) fun _ _ _ =>
        (pure _).blames _ (Nat.le_refl _)
    | mark m =>
      cases m with
      | semi => exact fun _ h => by cases h
      | _ => exact hstray _ rfl
    | _ => exact hstray _ rfl

/-- The bounds come from the text itself. -/
theorem statements : Blames n Reader.statements := by
  refine ⟨fun ts ss rest h => ?_, fun ts _ => ?_⟩
  · rw [rest_of_statements h]
    exact List.nil_suffix
  · exact (bind (repeated (statement? ts.length)) fun groups => pure groups.flatten).blames ts
      (Nat.le_succ ts.length)

end Blames
end Reader
end SchemaGraph
