import SchemaGraph.Proofs.Schema.Lines
import SchemaGraph.Proofs.Schema.Placement
import SchemaGraph.Proofs.Schema.Transparent
/-!
# Readers inside a longer text

`Reader.Carries s p q g x y`: what `x` reads from lexemes, `y` reads from them at the placement `s`,
with the lines further down as `g` says. An end must be among the lexemes that are left if `q`, and
then one is among all of them if `p`. Inside a construct an end is still to come (`Reader.Inside`);
a reader that takes the end itself asks for none behind it (`Reader.Ends`). The bounds on bodies and
repetitions come from the text, so they are larger at the placement; so is the depth of nesting.
-/

namespace SchemaGraph

variable {α β γ δ : Type} {p q r : Prop} {s : Placement}

namespace Reader

/-- What `x` reads from lexemes, `y` reads from them at the placement, moved by `g`. An end must be
among the lexemes that are left if `q`, and then is among the lexemes if `p`. -/
def Carries (s : Placement) (p q : Prop) (g : α → β) (x : Reader α) (y : Reader β) : Prop :=
  ∀ ts a rest, x ts = .ok (a, rest) → (q → HasEnd rest) →
    (p → HasEnd ts) ∧ y (s.place ts) = .ok (g a, s.place rest)

/-- The readers carry over inside a construct that ends later. -/
abbrev Inside (s : Placement) (g : α → β) (x : Reader α) (y : Reader β) : Prop :=
  Carries s True True g x y

/-- The readers carry over, and take an end themselves. -/
abbrev Ends (s : Placement) (g : α → β) (x : Reader α) (y : Reader β) : Prop :=
  Carries s True False g x y

/-- An end that is taken is an end before. -/
theorem Ends.inside {g : α → β} {x : Reader α} {y : Reader β} (hx : Ends s g x y) :
    Inside s g x y :=
  fun ts a rest hread _ => hx ts a rest hread False.elim

namespace Carries

section

variable {g : α → β} {h : γ → δ} {x : Reader α} {y : Reader β}

theorem pure {a : α} {b : β} (hab : g a = b) : Carries s p p g (Pure.pure a) (Pure.pure b) := by
  intro ts a' rest hread hrest
  cases hread
  exact ⟨hrest, by rw [hab]; rfl⟩

theorem refuse (complaint : Complaint) (y : Reader β) :
    Carries s p q g (Reader.refuse complaint) y :=
  fun _ _ _ hread => by cases hread

theorem refuseNext (complaint : Option Token → Complaint) (y : Reader β) :
    Carries s p q g (Reader.refuseNext complaint) y :=
  fun _ _ _ hread => by cases hread

/-- The end that the second part needs is the one that the first part leaves. -/
theorem bind {f : α → Reader γ} {f' : β → Reader δ} (hx : Carries s p q g x y)
    (hf : ∀ a, Carries s q r h (f a) (f' (g a))) : Carries s p r h (x >>= f) (y >>= f') := by
  intro ts c rest hread hrest
  obtain ⟨a, between, hfirst, hsecond⟩ := bind_eq_ok hread
  obtain ⟨hbetween, hsecond'⟩ := hf a between c rest hsecond hrest
  obtain ⟨hts, hfirst'⟩ := hx ts a between hfirst hbetween
  exact ⟨hts, (bind_eq hfirst').trans hsecond'⟩

/-- The composition after a reader that answers the same at the placement. -/
theorem step {x x' : Reader α} {f : α → Reader γ} {f' : α → Reader δ} (hx : Carries s p q id x x')
    (hf : ∀ a, Carries s q r h (f a) (f' a)) : Carries s p r h (x >>= f) (x' >>= f') :=
  bind hx hf

theorem ite {c c' : Prop} [Decidable c] [Decidable c'] {x' : Reader α} {y' : Reader β}
    (hc : c ↔ c') (hx : Carries s p q g x y) (hx' : Carries s p q g x' y') :
    Carries s p q g (if c then x else x') (if c' then y else y') := by
  by_cases hp : c
  · rw [if_pos hp, if_pos (hc.1 hp)]
    exact hx
  · rw [if_neg hp, if_neg fun hp' => hp (hc.2 hp')]
    exact hx'

/-! ## Single steps -/

/-- A reader that only looks. -/
theorem look {f : List Lexeme → α} {f' : List Lexeme → β}
    (hf : ∀ ts, HasEnd ts → f' (s.place ts) = g (f ts)) :
    Inside s g (fun ts => .ok (f ts, ts)) (fun ts => .ok (f' ts, ts)) := by
  intro ts a rest hread hrest
  cases hread
  have hts := hrest trivial
  dsimp only
  rw [hf ts hts]
  exact ⟨fun _ => hts, rfl⟩

/-- A decision on the first tokens is made alike on two runs with the same start. -/
theorem lookahead (n : Nat) {f : List Token → Reader γ} {f' : List Token → Reader δ}
    (hf : ∀ start start', SameStart n start start' →
      Carries s True q h (f start) (f' start')) :
    Carries s True q h (Reader.lookahead n >>= f) (Reader.lookahead n >>= f') := by
  intro ts c rest hread hrest
  have hts := (hf _ _ .same ts c rest hread hrest).1 trivial
  exact hf _ _ (hts.sameStart_ahead s n) ts c rest hread hrest

end

theorem next : Inside s id Reader.next Reader.next :=
  look fun _ hts => hts.peek_place s

theorem line : Inside s (· + s.lines) Reader.line Reader.line := by
  refine look fun ts hts => ?_
  obtain ⟨line, hline⟩ := hts.exists_nextLine?
  rw [hts.nextLine?_place, hline]
  rfl

theorem advance : Inside s id Reader.advance Reader.advance := by
  intro ts a rest hread hrest
  have hts := (hrest trivial).of_suffix (TakesFront.advance ts a rest hread)
  cases hread
  exact ⟨fun _ => hts, hts.advance_place s⟩

theorem eat (mark : Mark) : Inside s id (Reader.eat mark) (Reader.eat mark) :=
  step next fun _ => ite Iff.rfl (step advance fun _ => pure rfl) (pure rfl)

theorem expect (mark : Mark) : Inside s id (Reader.expect mark) (Reader.expect mark) :=
  step next fun _ => ite Iff.rfl advance (refuseNext _ _)

/-- A semicolon that is taken is an end. -/
theorem expectSemi : Ends s id (Reader.expect .semi) (Reader.expect .semi) := by
  intro ts a rest hread _
  obtain ⟨hpeek, hadvance⟩ := peek_of_taken hread
  obtain ⟨t, ht, hsemi⟩ := mem_of_peek_eq hpeek
  have hts : HasEnd ts := ⟨t, ht, by rw [hsemi]; rfl⟩
  cases hadvance
  refine ⟨fun _ => hts, ?_⟩
  rw [Reader.expect, bind_eq (x := Reader.next) rfl, hts.peek_place s, if_pos hpeek]
  exact hts.advance_place s

theorem atKeyword (keyword : String) :
    Inside s id (Reader.atKeyword keyword) (Reader.atKeyword keyword) :=
  step next fun _ => pure rfl

theorem expectKeyword (keyword : String) :
    Inside s id (Reader.expectKeyword keyword) (Reader.expectKeyword keyword) :=
  step next fun _ => ite Iff.rfl advance (refuseNext _ _)

theorem ident : Inside s id Reader.ident Reader.ident := by
  refine step next fun token => ?_
  split
  · exact step advance fun _ => pure rfl
  · exact refuseNext _ _

theorem str : Inside s id Reader.str Reader.str := by
  refine step next fun token => ?_
  split
  · exact step advance fun _ => pure rfl
  · exact refuseNext _ _

/-! ## Repetition -/

/-- Steps that each take a lexeme carry over to any larger bound. -/
theorem repeatWithin {step : Reader (Option α)} (hstep : Inside s id step step)
    (hfewer : ∀ ts a rest, step ts = .ok (some a, rest) → rest.length < ts.length)
    {bound bound' ts rest : List Lexeme} {as : List α} (hbound : ts.length ≤ bound.length)
    (hbound' : bound.length ≤ bound'.length)
    (hread : Reader.repeatWithin step bound ts = .ok (as, rest)) (hrest : HasEnd rest) :
    HasEnd ts ∧ Reader.repeatWithin step bound' (s.place ts) = .ok (as, s.place rest) := by
  induction bound generalizing bound' ts as with
  | nil =>
    obtain rfl : ts = [] := List.length_eq_zero_iff.1 (Nat.le_zero.1 hbound)
    cases hread
    exact absurd hrest not_hasEnd_nil
  | cons l bound ih =>
    obtain ⟨l', bound', rfl⟩ := List.exists_cons_of_length_pos (l := bound')
      (Nat.lt_of_lt_of_le (Nat.zero_lt_succ _) hbound')
    obtain ⟨answer, between, hfirst, hthen⟩ := bind_eq_ok hread
    cases answer with
    | none =>
      cases hthen
      obtain ⟨hts, hfirst'⟩ := hstep ts none rest hfirst fun _ => hrest
      exact ⟨hts trivial, bind_eq hfirst'⟩
    | some a =>
      obtain ⟨others, _, hothers, hpure⟩ := bind_eq_ok hthen
      cases hpure
      have hshorter := hfewer ts a between hfirst
      rw [List.length_cons] at hbound
      obtain ⟨hbetween, hothers'⟩ := ih (by omega) (Nat.le_of_succ_le_succ hbound') hothers
      obtain ⟨hts, hfirst'⟩ := hstep ts (some a) between hfirst fun _ => hbetween
      exact ⟨hts trivial, (bind_eq hfirst').trans (bind_eq hothers')⟩

/-- One more item takes its mark at least. -/
theorem length_lt_of_separated {mark : Mark} {item : Reader α} {a : α} {ts rest : List Lexeme}
    (hfront : TakesFront item) (hread : Blind.separated mark item ts = .ok (some a, rest)) :
    rest.length < ts.length := by
  unfold Blind.separated at hread
  by_cases hpeek : peek ts = some (.mark mark)
  · obtain ⟨t, behind, hskip, -, -⟩ := exists_of_peek_eq hpeek
    rw [bind_eq (Blind.eat_of_peek hpeek), if_pos rfl, hskip] at hread
    have htaken := (TakesFront.map hfront some _ _ _ hread).length_le
    have hskipped := (skipComments_suffix ts).length_le
    rw [hskip, List.length_cons] at hskipped
    exact Nat.lt_of_le_of_lt htaken hskipped
  · rw [bind_eq (eat_of_peek_ne hpeek)] at hread
    cases hread

/-- Items that each follow a mark. -/
theorem repeated {mark : Mark} {item : Reader α} (hfront : TakesFront item)
    (hitem : Inside s id item item) :
    Inside s id (Reader.repeated (do if ← Reader.eat mark then some <$> item else return none))
      (Reader.repeated (do if ← Reader.eat mark then some <$> item else return none)) := by
  have hstep : Inside s id (Blind.separated mark item) (Blind.separated mark item) :=
    step (eat mark) fun _ => ite Iff.rfl (step hitem fun _ => pure rfl) (pure rfl)
  intro ts as rest hread hrest
  obtain ⟨hts, hread'⟩ := repeatWithin hstep (fun _ _ _ => length_lt_of_separated hfront)
    (Nat.le_refl _) (length_le_place s ts) hread (hrest trivial)
  exact ⟨fun _ => hts, hread'⟩

theorem dottedName : Inside s id Reader.dottedName Reader.dottedName :=
  step (eat _) fun _ => step ident fun _ => step (repeated .ident ident) fun _ => pure rfl

/-! ## Raw texts, options and numbers -/

/-- A raw text is the same wherever it stands, as it ends at a terminator of its own. -/
theorem rawTokens (terminator : Mark) (depth : Nat) :
    Inside s id (Reader.rawTokens terminator depth) (Reader.rawTokens terminator depth) := by
  intro ts tokens rest hread hrest
  refine ⟨fun _ => (hrest trivial).of_suffix ?_, ?_⟩
  · exact TakesFront.rawTokens terminator depth ts tokens rest hread
  induction ts generalizing depth tokens with
  | nil => cases hread
  | cons t ts ih =>
    rw [Reader.rawTokens] at hread
    rw [place_cons, Reader.rawTokens, Lexeme.token_down]
    by_cases ht : t.token.isComment = true
    · rw [if_pos ht] at hread
      rw [if_pos ht]
      exact ih depth tokens hread
    rw [if_neg ht] at hread
    rw [if_neg ht]
    by_cases hend : depth = 0 ∧ t.token = .mark terminator
    · rw [if_pos hend] at hread
      rw [if_pos hend]
      cases hread
      rfl
    rw [if_neg hend] at hread
    rw [if_neg hend]
    cases hdepth : depthAfter depth t.token with
    | error m =>
      rw [hdepth] at hread
      cases hread
    | ok depth =>
      rw [hdepth] at hread
      dsimp only at hread ⊢
      cases hothers : Reader.rawTokens terminator depth ts with
      | error refusal =>
        rw [hothers] at hread
        cases hread
      | ok others =>
        rw [hothers] at hread
        cases hread
        rw [ih depth _ hothers]
        rfl

theorem rawText (terminator : Mark) :
    Inside s id (Reader.rawText terminator) (Reader.rawText terminator) :=
  step (rawTokens terminator 0) fun _ => pure rfl

theorem integer : Inside s id Reader.integer Reader.integer := by
  refine step (eat .minus) fun negative => step next fun token => ?_
  split
  · refine step advance fun _ => ?_
    split
    · exact pure rfl
    · exact refuse _ _
  · exact refuseNext _ _

theorem fieldNumber : Inside s id Reader.fieldNumber Reader.fieldNumber :=
  step integer fun _ => ite Iff.rfl (pure rfl) (refuse _ _)

theorem optionDecl : Ends s id Reader.optionDecl Reader.optionDecl :=
  step (expectKeyword _) fun _ => step (rawText _) fun _ => step (expect _) fun _ =>
    step (rawText _) fun _ => step expectSemi fun _ => pure rfl

theorem bracketedOptions : Inside s id Reader.bracketedOptions Reader.bracketedOptions :=
  step (eat _) fun _ => ite Iff.rfl
    (step (rawText _) fun _ => step (expect _) fun _ => pure rfl) (pure rfl)

theorem reservedItem : Inside s id Reader.reservedItem Reader.reservedItem := by
  refine step next fun token => ?_
  split
  · exact step advance fun _ => pure rfl
  · exact ite Iff.rfl (refuseNext _ _) (step advance fun _ => pure rfl)
  · refine step integer fun start => step (atKeyword _) fun isRange => ite Iff.rfl ?_ (pure rfl)
    refine step advance fun _ => step (atKeyword _) fun isMax => ite Iff.rfl ?_ ?_
    · exact step advance fun _ => pure rfl
    · exact step integer fun stop => pure rfl

theorem reservedItems : Inside s id Reader.reservedItems Reader.reservedItems :=
  step reservedItem fun _ => step (repeated .reservedItem reservedItem) fun _ => pure rfl

/-! ## Fields -/

theorem fieldLabel : Inside s id Reader.fieldLabel Reader.fieldLabel := by
  refine lookahead 2 fun start start' hstart => ?_
  cases hstart with
  | same => exact ite Iff.rfl (step advance fun _ => pure rfl) (pure rfl)
  | @ended u v w t ht hlength =>
    obtain rfl : u = [] := List.length_eq_zero_iff.1 (by omega)
    -- Nothing but a name is a label.
    cases t with
    | mark => exact ite Iff.rfl (step advance fun _ => pure rfl) (pure rfl)
    | _ => cases ht

theorem fieldAfterLabel (label : FieldLabel) (line : Nat) :
    Ends s (Field.down s.lines) (Reader.fieldAfterLabel label line)
      (Reader.fieldAfterLabel label (line + s.lines)) :=
  step dottedName fun _ => step ident fun _ => step (expect _) fun _ => step fieldNumber fun _ =>
    step bracketedOptions fun _ => step expectSemi fun _ => pure rfl

theorem mapField : Ends s (MapField.down s.lines) Reader.mapField Reader.mapField := by
  refine bind line fun line => step (expectKeyword _) fun _ => step (expect _) fun _ => ?_
  refine step dottedName fun _ => step (expect _) fun _ => step dottedName fun _ => ?_
  refine step (expect _) fun _ => step ident fun _ => step (expect _) fun _ => ?_
  exact step fieldNumber fun _ => step bracketedOptions fun _ => step expectSemi fun _ => pure rfl

theorem atExtend : Inside s id Reader.atExtend Reader.atExtend := by
  have hopens : Inside s id (fun ts => .ok (opensExtend (ahead ts.length ts), ts) : Reader Bool)
      (fun ts => .ok (opensExtend (ahead ts.length ts), ts)) := by
    refine look fun ts hts => ?_
    obtain ⟨n, hstart⟩ := hts.sameStart_allAhead s
    exact hstart.opensExtend_eq.symm
  exact step (atKeyword _) fun _ => ite Iff.rfl hopens (pure rfl)

/-! ## Bodies -/

theorem elementsWithin {g : α → β} {b : BodyPlace} {comment : String → α} {comment' : String → β}
    {element : Reader α} {element' : Reader β} (hcomment : ∀ text, g (comment text) = comment' text)
    (helement : Inside s g element element') {bound bound' : List Lexeme}
    (hbound : bound.length ≤ bound'.length) :
    Ends s (List.map g) (Reader.elementsWithin b comment element bound)
      (Reader.elementsWithin b comment' element' bound') := by
  induction bound generalizing bound' with
  | nil => exact refuse _ _
  | cons l bound ih =>
    obtain ⟨l', bound', rfl⟩ := List.exists_cons_of_length_pos (l := bound')
      (Nat.lt_of_lt_of_le (Nat.zero_lt_succ _) hbound)
    have hothers := ih (Nat.le_of_succ_le_succ hbound)
    have hthen {a : α} {a' : β} (ha : g a = a') : Ends s (List.map g)
        (do return a :: (← Reader.elementsWithin b comment element bound))
        (do return a' :: (← Reader.elementsWithin b comment' element' bound')) :=
      bind hothers fun as => pure (by rw [List.map_cons, ha])
    intro ts as rest hread _
    cases ts with
    | nil =>
      rw [elementsWithin_nil] at hread
      cases hread
    | cons t ts =>
      rw [place_cons]
      by_cases ht : t.token.isComment = true
      · obtain ⟨text, htext⟩ := Token.exists_comment? ht
        rw [elementsWithin_comment htext] at hread
        obtain ⟨hts, hread'⟩ := hthen (hcomment text) ts as rest hread False.elim
        rw [elementsWithin_comment (t := t.down s.lines s.bytes) htext]
        exact ⟨fun _ => (hts trivial).cons t, hread'⟩
      · have ht : t.token.isComment = false := by simpa using ht
        rw [elementsWithin_cons ht] at hread
        rw [elementsWithin_cons (t := t.down s.lines s.bytes) ht, Lexeme.token_down]
        by_cases hbrace : t.token = .mark .rightBrace
        · rw [if_pos hbrace] at hread
          rw [if_pos hbrace]
          cases hread
          exact ⟨fun _ => ⟨t, List.mem_cons_self, by rw [hbrace]; rfl⟩, rfl⟩
        rw [if_neg hbrace] at hread
        rw [if_neg hbrace]
        by_cases hsemi : t.token = .mark .semi
        · rw [if_pos hsemi] at hread
          rw [if_pos hsemi]
          obtain ⟨-, hread'⟩ := hothers ts as rest hread False.elim
          exact ⟨fun _ => ⟨t, List.mem_cons_self, by rw [hsemi]; rfl⟩, hread'⟩
        rw [if_neg hsemi] at hread
        rw [if_neg hsemi]
        exact bind helement (fun _ => hthen rfl) (t :: ts) as rest hread False.elim

theorem elements {g : α → β} {b : BodyPlace} {comment : String → α} {comment' : String → β}
    {element : Reader α} {element' : Reader β} (hcomment : ∀ text, g (comment text) = comment' text)
    (helement : Inside s g element element') :
    Ends s (List.map g) (Reader.elements b comment element) (Reader.elements b comment' element') :=
  fun ts => elementsWithin hcomment helement (length_le_place s ts) ts

/-- The elements of a body between braces. -/
theorem body {g : α → β} {b : BodyPlace} {comment : String → α} {comment' : String → β}
    {element : Reader α} {element' : Reader β} (hcomment : ∀ text, g (comment text) = comment' text)
    (helement : Inside s g element element') :
    Ends s (List.map g) (Reader.body b comment element) (Reader.body b comment' element') :=
  step (expect _) fun _ => elements hcomment helement

/-! ## Enums -/

theorem enumElement : Ends s id Reader.enumElement Reader.enumElement := by
  refine lookahead 2 fun start start' hstart => ?_
  refine ite (hstart.startsEnumStatement_iff "option") ?option
    (ite (hstart.startsEnumStatement_iff "reserved") ?reserved ?value)
  case option => exact step optionDecl fun _ => pure rfl
  case reserved =>
    exact step advance fun _ => step reservedItems fun _ => step expectSemi fun _ => pure rfl
  case value =>
    refine step ident fun _ => step (expect _) fun _ => step integer fun _ => ?_
    exact step bracketedOptions fun _ => step expectSemi fun _ => pure rfl

theorem enumDecl : Ends s (EnumDecl.down s.lines) Reader.enumDecl Reader.enumDecl := by
  refine bind line fun line => step (expectKeyword _) fun _ => step ident fun name => ?_
  refine bind (body (fun _ => rfl) enumElement.inside) fun elements => pure ?_
  rw [List.map_id]
  rfl

/-! ## Messages -/

section

variable {element element' : Reader MessageElement}

theorem groupAfterLabel (helement : Inside s (MessageElement.down s.lines) element element') :
    Ends s (fun group => (group.1, group.2.1, group.2.2.map (MessageElement.down s.lines)))
      (Reader.groupAfterLabel element) (Reader.groupAfterLabel element') := by
  refine step (expectKeyword _) fun _ => step ident fun name => step (expect _) fun _ => ?_
  refine step fieldNumber fun number => step bracketedOptions fun _ => ?_
  exact bind (body (fun _ => rfl) helement) fun elements => pure rfl

/-- What follows the label of a member: a group or a field. -/
theorem groupOrField {g : α → β}
    {group : FieldLabel → Nat → String × UInt32 × List MessageElement → α} {field : Field → α}
    {group' : FieldLabel → Nat → String × UInt32 × List MessageElement → β} {field' : Field → β}
    (hgroup : ∀ label line name number elements, g (group label line (name, number, elements)) =
      group' label (line + s.lines) (name, number, elements.map (MessageElement.down s.lines)))
    (hfield : ∀ f, g (field f) = field' (f.down s.lines))
    (helement : Inside s (MessageElement.down s.lines) element element') :
    Ends s g
      (do
        let line ← Reader.line
        let label ← Reader.fieldLabel
        if opensGroup (← Reader.lookahead 3) then
          return group label line (← Reader.groupAfterLabel element)
        else
          return field (← Reader.fieldAfterLabel label line))
      (do
        let line ← Reader.line
        let label ← Reader.fieldLabel
        if opensGroup (← Reader.lookahead 3) then
          return group' label line (← Reader.groupAfterLabel element')
        else
          return field' (← Reader.fieldAfterLabel label line)) := by
  refine bind line fun line => step fieldLabel fun label => ?_
  refine lookahead 3 fun start start' hstart => ite hstart.opensGroup_iff ?_ ?_
  · exact bind (groupAfterLabel helement) fun _ => pure (hgroup ..)
  · exact bind (fieldAfterLabel label line) fun f => pure (hfield f)

theorem oneofElement (helement : Inside s (MessageElement.down s.lines) element element') :
    Ends s (OneofElement.down s.lines) (Reader.oneofElement element)
      (Reader.oneofElement element') := by
  refine lookahead 4 fun start start' hstart => ite (hstart.startsStatement_iff "option") ?_ ?_
  · refine step optionDecl fun decl => pure ?_
    rw [OneofElement.down]
  · refine groupOrField (fun label line name number elements => ?_) (fun f => ?_) helement
    · rw [OneofElement.down, elementsDown_eq_map]
    · rw [OneofElement.down]

theorem extendDecl (helement : Inside s (MessageElement.down s.lines) element element') :
    Ends s (Extend.down s.lines) (Reader.extendDecl element) (Reader.extendDecl element') := by
  refine bind line fun line => step (expectKeyword _) fun _ => step dottedName fun target => ?_
  exact bind (body (fun _ => by rw [MessageElement.down]) helement) fun _ => pure rfl

theorem messageDecl (helement : Inside s (MessageElement.down s.lines) element element') :
    Ends s (Message.down s.lines) (Reader.messageDecl element) (Reader.messageDecl element') := by
  refine bind line fun line => step (expectKeyword _) fun _ => step ident fun name => ?_
  exact bind (body (fun _ => by rw [MessageElement.down]) helement) fun _ => pure rfl

/-- An element of a message body carries over if the elements of its own bodies do. -/
theorem messageElementWith (helement : Inside s (MessageElement.down s.lines) element element') :
    Ends s (MessageElement.down s.lines) (Reader.messageElementWith element)
      (Reader.messageElementWith element') := by
  refine lookahead 4 fun start start' hstart => ?_
  dsimp only
  refine ite (hstart.opensDeclaration_iff "message") ?message
    (ite (hstart.opensDeclaration_iff "enum") ?enum
    (ite (hstart.opensDeclaration_iff "oneof") ?oneof
    (step atExtend fun extension => ite Iff.rfl ?extend
    (ite (hstart.startsStatement_iff "option") ?option
    (ite (hstart.startsStatement_iff "reserved") ?reserved
    (ite (hstart.startsStatement_iff "extensions") ?extensions
    (ite hstart.startsMap_iff ?map ?member)))))))
  case message =>
    refine bind (messageDecl helement) fun decl => pure ?_
    rw [MessageElement.down, elementsDown_eq_map, Message.down]
  case enum =>
    refine bind enumDecl fun decl => pure ?_
    rw [MessageElement.down]
  case oneof =>
    refine step (expectKeyword _) fun _ => step ident fun name => ?_
    refine bind (body (fun _ => by rw [OneofElement.down]) (oneofElement helement).inside)
      fun members => pure ?_
    rw [MessageElement.down, membersDown_eq_map]
  case extend =>
    refine bind (extendDecl helement) fun decl => pure ?_
    rw [MessageElement.down, elementsDown_eq_map, Extend.down]
  case option =>
    refine step optionDecl fun decl => pure ?_
    rw [MessageElement.down]
  case reserved =>
    refine step advance fun _ => step reservedItems fun items => step expectSemi fun _ => pure ?_
    rw [MessageElement.down]
  case extensions =>
    refine step advance fun _ => step reservedItems fun items => ?_
    refine step bracketedOptions fun _ => step expectSemi fun _ => pure ?_
    rw [MessageElement.down]
  case map =>
    refine bind mapField fun field => pure ?_
    rw [MessageElement.down]
  case member =>
    refine groupOrField (fun label line name number elements => ?_) (fun f => ?_) helement
    · rw [MessageElement.down, elementsDown_eq_map]
    · rw [MessageElement.down]

end

/-- More bodies may be nested where the text is longer. -/
theorem messageElement {depth depth' : Nat} (hdepth : depth ≤ depth') :
    Inside s (MessageElement.down s.lines) (Reader.messageElement depth)
      (Reader.messageElement depth') := by
  induction depth generalizing depth' with
  | zero => exact refuse _ _
  | succ depth ih =>
    obtain ⟨depth', rfl⟩ := Nat.exists_eq_add_one_of_ne_zero (Nat.ne_zero_of_lt hdepth)
    exact (messageElementWith (ih (Nat.le_of_succ_le_succ hdepth))).inside

/-! ## Services -/

/-- Whether `stream` is a keyword depends on where the two next lexemes stand in the text, and both
are moved alike. -/
theorem atStream_place {ts : List Lexeme} (hts : HasEnd ts) :
    Reader.atStream (s.place ts) = Reader.atStream ts := by
  have hplace : (s.place ts).filter (!·.token.isComment) =
      (significant ts).map (Lexeme.down s.lines s.bytes) ++ significant s.after :=
    significant_place s ts
  have hts' : ts.filter (!·.token.isComment) = significant ts := rfl
  obtain ⟨t, ht, hend⟩ := hts
  have hmem : t ∈ significant ts :=
    List.mem_filter.2 ⟨ht, by rw [Token.isComment_of_ends hend]; rfl⟩
  unfold Reader.atStream
  rw [hplace, hts']
  generalize significant ts = lexemes at hmem
  rcases lexemes with _ | ⟨keyword, _ | ⟨following, others⟩⟩
  · cases hmem
  · -- The one lexeme is an end, and no keyword.
    obtain rfl := List.mem_singleton.1 hmem
    obtain ⟨token, span, line⟩ := t
    cases token with
    | mark => cases significant s.after <;> rfl
    | _ => cases hend
  · obtain ⟨token, span, line⟩ := following
    cases token with
    | mark m =>
      cases m with
      | dot =>
        have hmoved : (span.start + s.bytes != keyword.span.stop + s.bytes) =
            (span.start != keyword.span.stop) := by simp [bne]
        exact congrArg (keyword.token == .ident "stream" && ·) hmoved
      | _ => rfl
    | _ => rfl

theorem rpcType : Inside s id Reader.rpcType Reader.rpcType := by
  refine step (expect _) fun _ => step (look fun ts hts => atStream_place hts) fun streaming => ?_
  have hname : Inside s id
      (do
        let typeName ← Reader.dottedName
        Reader.expect .rightParen
        return (streaming, typeName))
      (do
        let typeName ← Reader.dottedName
        Reader.expect .rightParen
        return (streaming, typeName)) :=
    step dottedName fun _ => step (expect _) fun _ => pure rfl
  exact ite Iff.rfl (step advance fun _ => hname) hname

theorem rpcOptions : Inside s id Reader.rpcOptions Reader.rpcOptions := by
  refine step (eat _) fun brace => ite Iff.rfl ?_ ?_
  · have hitem : Inside s id (some <$> Reader.optionDecl) (some <$> Reader.optionDecl) :=
      step optionDecl.inside fun _ => pure rfl
    refine bind (elements (fun _ => rfl) hitem).inside fun items => step (eat _) fun _ => pure ?_
    rw [List.map_id]
    rfl
  · exact step expectSemi.inside fun _ => pure rfl

theorem rpc : Inside s (Rpc.down s.lines) Reader.rpc Reader.rpc := by
  refine bind line fun line => step (expectKeyword _) fun _ => step ident fun name => ?_
  refine step rpcType fun request => step (expectKeyword _) fun _ => step rpcType fun response => ?_
  exact step rpcOptions fun _ => pure rfl

theorem serviceElement :
    Inside s (ServiceElement.down s.lines) Reader.serviceElement Reader.serviceElement := by
  refine step (atKeyword _) fun isOption => ite Iff.rfl ?_ ?_
  · exact step optionDecl.inside fun _ => pure rfl
  · refine step (atKeyword _) fun isRpc => ite Iff.rfl ?_ (refuseNext _ _)
    exact bind rpc fun _ => pure rfl

theorem service : Ends s (Service.down s.lines) Reader.service Reader.service := by
  refine bind line fun line => step (expectKeyword _) fun _ => step ident fun name => ?_
  exact bind (body (fun _ => rfl) serviceElement) fun _ => pure rfl

/-! ## Statements -/

theorem dialectValue : Ends s id Reader.dialectValue Reader.dialectValue :=
  step (expect _) fun _ => step str fun _ => step expectSemi fun _ => pure rfl

theorem numberedDialect : Ends s id Reader.numberedDialect Reader.numberedDialect :=
  step (expectKeyword _) fun _ => step dialectValue fun _ =>
    ite Iff.rfl (pure rfl) (ite Iff.rfl (pure rfl) (refuse _ _))

theorem importDecl : Ends s (Import.down s.lines) Reader.importDecl Reader.importDecl := by
  refine bind line fun line => step (expectKeyword _) fun _ => step next fun token => ?_
  dsimp only
  refine ite Iff.rfl (step advance fun _ => ?_) ?_
  all_goals exact step str fun _ => step expectSemi fun _ => pure rfl

/-- No statement is read past its own end. -/
theorem statementOf {depth depth' : Nat} (hdepth : depth ≤ depth') (keyword : String) :
    Ends s (Statement.down s.lines) (Reader.statementOf depth keyword)
      (Reader.statementOf depth' keyword) := by
  have helement := messageElement (s := s) hdepth
  unfold Reader.statementOf
  split
  · exact step numberedDialect fun _ => pure rfl
  · exact step advance fun _ => step dialectValue fun _ => pure rfl
  · exact step advance fun _ => step dottedName fun _ => step expectSemi fun _ => pure rfl
  · exact bind importDecl fun _ => pure rfl
  · exact step optionDecl fun _ => pure rfl
  · exact bind (messageDecl helement) fun _ => pure rfl
  · exact bind enumDecl fun _ => pure rfl
  · exact bind service fun _ => pure rfl
  · exact bind (extendDecl helement) fun _ => pure rfl
  · exact refuse _ _

end Carries
end Reader
end SchemaGraph
