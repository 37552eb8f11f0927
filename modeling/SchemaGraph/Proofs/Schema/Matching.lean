import SchemaGraph.Proofs.Schema.Nesting
import SchemaGraph.Proofs.Schema.Statements
/-!
# Readers match brackets

`Reader.Matches stack stack' x` says of the reader `x`: if what it leaves closes the openers in
`stack'`, then what it was given closes those in `stack`. A reader that takes an opener has one more
in `stack'`, one that takes its closing mark has one less, and all constructs of the grammar have
the same on both sides.
-/

namespace SchemaGraph

namespace Reader

variable {α β : Type} {σ τ ρ : List Mark} {token : Option Token}

/-- If what the reader leaves closes the openers `τ`, then what it was given closes `σ`. -/
def Matches (σ τ : List Mark) (x : Reader α) : Prop :=
  ∀ ts a rest, x ts = .ok (a, rest) → Nests τ (significantTokens rest) →
    Nests σ (significantTokens ts)

/-- The same of a reader that is used where the given token comes next. -/
def MatchesAt (token : Option Token) (σ τ : List Mark) (x : Reader α) : Prop :=
  ∀ ts a rest, peek ts = token → x ts = .ok (a, rest) → Nests τ (significantTokens rest) →
    Nests σ (significantTokens ts)

namespace MatchesAt

theorem of_matches {x : Reader α} (h : Matches σ τ x) : MatchesAt token σ τ x :=
  fun ts a rest _ => h ts a rest

theorem bind {x : Reader α} {f : α → Reader β} (hx : MatchesAt token σ τ x)
    (hf : ∀ a, Matches τ ρ (f a)) : MatchesAt token σ ρ (x >>= f) := by
  intro ts b rest hpeek h hrest
  obtain ⟨a, between, hfirst, hsecond⟩ := bind_eq_ok h
  exact hx ts a between hpeek hfirst (hf a between b rest hsecond hrest)

/-- After a reader that takes nothing the same token comes next. -/
theorem still {x : Reader α} {f : α → Reader β} (hx : ∀ ts a rest, x ts = .ok (a, rest) → rest = ts)
    (hf : ∀ a, MatchesAt token σ τ (f a)) : MatchesAt token σ τ (x >>= f) := by
  intro ts b rest hpeek h
  obtain ⟨a, between, hfirst, hsecond⟩ := bind_eq_ok h
  obtain rfl := hx ts a between hfirst
  exact hf a between b rest hpeek hsecond

theorem ite {p : Prop} [Decidable p] {x y : Reader α} (hx : p → MatchesAt token σ τ x)
    (hy : MatchesAt token σ τ y) : MatchesAt token σ τ (if p then x else y) := by
  split
  · exact hx ‹p›
  · exact hy

/-- A token that is no bracket is taken. -/
theorem advance {t : Token} (h : t.isBracket = false) :
    MatchesAt (some t) σ σ Reader.advance := by
  intro ts _ rest hpeek htaken hrest
  cases htaken
  rw [significantTokens_of_peek hpeek]
  exact .plain h hrest

end MatchesAt

namespace Matches

/-! ## Single steps -/

theorem pure (a : α) : Matches σ σ (Pure.pure a : Reader α) := by
  intro ts b rest h hrest
  cases h
  exact hrest

theorem bind {x : Reader α} {f : α → Reader β} (hx : Matches σ τ x)
    (hf : ∀ a, Matches τ ρ (f a)) : Matches σ ρ (x >>= f) := by
  intro ts b rest h hrest
  obtain ⟨a, between, hfirst, hsecond⟩ := bind_eq_ok h
  exact hx ts a between hfirst (hf a between b rest hsecond hrest)

theorem map {x : Reader α} (hx : Matches σ τ x) (f : α → β) : Matches σ τ (f <$> x) :=
  bind hx fun a => pure (f a)

/-- A reader that looks first. What it sees says something of the next token. -/
theorem look {g : List Lexeme → α} {f : α → Reader β}
    (h : ∀ ts, MatchesAt (peek ts) σ τ (f (g ts))) :
    Matches σ τ ((fun ts => .ok (g ts, ts) : Reader α) >>= f) :=
  fun ts b rest hread => h ts ts b rest rfl hread

theorem next {f : Option Token → Reader β} (h : ∀ token, MatchesAt token σ τ (f token)) :
    Matches σ τ (Reader.next >>= f) :=
  look fun ts => h (peek ts)

theorem lookahead (n : Nat) {f : List Token → Reader β}
    (h : ∀ start : List Token, MatchesAt start.head? σ τ (f start)) :
    Matches σ τ (Reader.lookahead (n + 1) >>= f) := by
  refine look fun ts => ?_
  rw [← head?_ahead n]
  exact h (ahead (n + 1) ts)

theorem refuse (complaint : Complaint) : Matches σ τ (Reader.refuse complaint : Reader α) :=
  fun _ _ _ h => by cases h

theorem refuseNext (complaint : Option Token → Complaint) :
    Matches σ τ (Reader.refuseNext complaint : Reader α) :=
  fun _ _ _ h => by cases h

/-- A token that must come next and has been taken is the first significant one. -/
theorem significantTokens_of_taken {token : Token} {complaint : Option Token → Complaint}
    {ts rest : List Lexeme}
    (h : (do if (← Reader.next) = some token then Reader.advance else Reader.refuseNext complaint :
      Reader Unit) ts = .ok ((), rest)) :
    significantTokens ts = token :: significantTokens rest := by
  obtain ⟨hpeek, hadvance⟩ := peek_of_taken h
  cases hadvance
  exact significantTokens_of_peek hpeek

theorem expect {m : Mark} (h : (Token.mark m).isBracket = false) :
    Matches σ σ (Reader.expect m) := by
  intro ts _ rest htaken hrest
  rw [significantTokens_of_taken htaken]
  exact .plain h hrest

theorem expect_opener {m : Mark} (h : m.isOpener = true) :
    Matches σ (m :: σ) (Reader.expect m) := by
  intro ts _ rest htaken hrest
  rw [significantTokens_of_taken htaken]
  exact .opener h hrest

theorem expect_closer {m o : Mark} (h : m.opener? = some o) :
    Matches (o :: σ) σ (Reader.expect m) := by
  intro ts _ rest htaken hrest
  rw [significantTokens_of_taken htaken]
  exact .closer h hrest

theorem eat {m : Mark} (h : (Token.mark m).isBracket = false) : Matches σ σ (Reader.eat m) := by
  refine next fun token => ?_
  split
  · rename_i htoken
    subst htoken
    exact .bind (.advance h) fun _ => pure true
  · exact .of_matches (pure false)

/-- If the keyword is found, it is the next token. -/
theorem atKeyword {keyword : String} {f : Bool → Reader β}
    (htrue : MatchesAt (some (.ident keyword)) σ τ (f true)) (hfalse : Matches σ τ (f false)) :
    Matches σ τ (Reader.atKeyword keyword >>= f) := by
  refine look (g := fun ts => decide (peek ts = some (.ident keyword))) fun ts => ?_
  by_cases h : peek ts = some (.ident keyword)
  · rw [decide_eq_true h, h]
    exact htrue
  · rw [decide_eq_false h]
    exact .of_matches hfalse

theorem expectKeyword (keyword : String) : Matches σ σ (Reader.expectKeyword keyword) := by
  intro ts _ rest htaken hrest
  rw [significantTokens_of_taken htaken]
  exact .plain rfl hrest

theorem ident : Matches σ σ Reader.ident := by
  refine next fun token => ?_
  split
  · exact .bind (.advance rfl) fun _ => pure _
  · exact .of_matches (refuseNext _)

theorem str : Matches σ σ Reader.str := by
  refine next fun token => ?_
  split
  · exact .bind (.advance rfl) fun _ => pure _
  · exact .of_matches (refuseNext _)

theorem line : Matches σ σ Reader.line := by
  intro ts a rest h hrest
  cases h
  exact hrest

/-! ## Repetition -/

theorem repeatWithin {step : Reader (Option α)} (hstep : Matches σ σ step) (bound : List Lexeme) :
    Matches σ σ (Reader.repeatWithin step bound) := by
  induction bound with
  | nil => exact pure []
  | cons _ bound ih =>
    refine bind hstep fun answer => ?_
    cases answer with
    | none => exact pure []
    | some a => exact bind ih fun rest => pure _

theorem repeated {step : Reader (Option α)} (hstep : Matches σ σ step) :
    Matches σ σ (Reader.repeated step) :=
  fun ts => repeatWithin hstep ts ts

theorem dottedName : Matches σ σ Reader.dottedName := by
  refine bind (eat rfl) fun absolute => bind ident fun first => bind (repeated ?_) fun _ => pure _
  refine bind (eat rfl) fun dot => ?_
  split
  · exact map ident some
  · exact pure none

theorem elementsWithin (place : BodyPlace) (comment : String → α) {element : Reader α}
    (helement : ∀ σ, Matches σ σ element) (bound : List Lexeme) :
    Matches (.leftBrace :: σ) σ (Reader.elementsWithin place comment element bound) := by
  induction bound with
  | nil => exact refuse _
  | cons l bound ih =>
    intro ts as rest h hrest
    cases ts with
    | nil =>
      rw [elementsWithin_nil] at h
      cases h
    | cons t ts =>
      by_cases ht : t.token.isComment = true
      · obtain ⟨text, htext⟩ := Token.exists_comment? ht
        rw [elementsWithin_comment htext] at h
        rw [significantTokens_comment ht]
        exact (bind ih fun _ => pure _) ts as rest h hrest
      · have ht : t.token.isComment = false := by simpa using ht
        rw [elementsWithin_cons ht] at h
        split at h
        · rename_i hbrace
          cases h
          rw [significantTokens_cons ht, hbrace]
          exact .closer rfl hrest
        split at h
        · rename_i hsemi
          rw [significantTokens_cons ht, hsemi]
          exact .plain rfl (ih ts as rest h hrest)
        · exact (bind (helement _) fun _ => bind ih fun _ => pure _) (t :: ts) as rest h hrest

theorem elements (place : BodyPlace) (comment : String → α) {element : Reader α}
    (helement : ∀ σ, Matches σ σ element) :
    Matches (.leftBrace :: σ) σ (Reader.elements place comment element) :=
  fun ts => elementsWithin place comment helement ts ts

theorem body (place : BodyPlace) (comment : String → α) {element : Reader α}
    (helement : ∀ σ, Matches σ σ element) : Matches σ σ (Reader.body place comment element) :=
  bind (expect_opener rfl) fun _ => elements place comment helement

/-! ## Options -/

/-- What is taken up to a terminator, at the given depth. -/
theorem rawTokens_spec {terminator : Mark} {depth : Nat} {ts rest : List Lexeme}
    {run : List Token} (h : Reader.rawTokens terminator depth ts = .ok (run, rest)) :
    significantTokens ts = run ++ significantTokens rest ∧ depthAfterAll depth run = some 0 ∧
      ∀ u v, run = u ++ .mark terminator :: v → depthAfterAll depth u ≠ some 0 := by
  fun_induction Reader.rawTokens terminator depth ts generalizing run with
  | case1 => cases h
  | case2 depth t ts hcomment ih =>
    rw [significantTokens_comment hcomment]
    exact ih h
  | case3 depth t ts hcomment hend =>
    cases h
    rw [hend.1]
    exact ⟨rfl, rfl, by simp⟩
  | case4 => cases h
  | case5 => cases h
  | case6 depth t ts hcomment hend depth' hdepth run rest' hrun ih =>
    cases h
    obtain ⟨htokens, hlevel, hbefore⟩ := ih hrun
    refine ⟨?_, by rwa [depthAfterAll_cons hdepth], fun u v hcut => ?_⟩
    · rw [significantTokens_cons (by simpa using hcomment), htokens, List.cons_append]
    · cases u with
      | nil =>
        obtain ⟨htoken, -⟩ := List.cons.inj hcut
        exact fun hzero => hend ⟨Option.some.inj hzero, htoken⟩
      | cons t' u =>
        obtain ⟨rfl, hrest⟩ := List.cons.inj hcut
        rw [depthAfterAll_cons hdepth]
        exact hbefore u v hrest

/-- The text up to a terminator is that of a run of tokens, with one space between two of them. -/
theorem isRaw_of_rawText {terminator : Mark} {ts rest : List Lexeme} {text : String}
    (h : Reader.rawText terminator ts = .ok (text, rest)) :
    ∃ run, IsRaw terminator run ∧ text = String.intercalate " " (run.map Token.text) ∧
      significantTokens ts = run ++ significantTokens rest := by
  obtain ⟨run, between, hrun, hpure⟩ := bind_eq_ok h
  cases hpure
  obtain ⟨htokens, hlevel, hbefore⟩ := rawTokens_spec hrun
  exact ⟨run, ⟨hlevel, hbefore⟩, rfl, htokens⟩

/-- An option statement holds two runs of tokens, the name and the value. -/
theorem isRaw_of_optionDecl {ts rest : List Lexeme} {decl : OptionDecl}
    (h : Reader.optionDecl ts = .ok (decl, rest)) :
    ∃ name value, IsRaw .equals name ∧ IsRaw .semi value ∧
      decl.value = String.intercalate " " (value.map Token.text) ∧
      significantTokens ts = .ident "option" :: name ++ .mark .equals :: value ++
        .mark .semi :: significantTokens rest := by
  obtain ⟨_, ts₁, hkeyword, h⟩ := bind_eq_ok h
  obtain ⟨_, ts₂, hname, h⟩ := bind_eq_ok h
  obtain ⟨_, ts₃, hequals, h⟩ := bind_eq_ok h
  obtain ⟨_, ts₄, hvalue, h⟩ := bind_eq_ok h
  obtain ⟨_, ts₅, hsemi, h⟩ := bind_eq_ok h
  cases h
  obtain ⟨name, hrawName, -, hname⟩ := isRaw_of_rawText hname
  obtain ⟨value, hraw, htext, hvalue⟩ := isRaw_of_rawText hvalue
  refine ⟨name, value, hrawName, hraw, htext, ?_⟩
  rw [significantTokens_of_taken hkeyword, hname, significantTokens_of_taken hequals,
    hvalue, significantTokens_of_taken hsemi]
  simp

/-- Options in brackets are a run of tokens, unless there are none. -/
theorem isRaw_of_bracketedOptions {ts rest : List Lexeme} {text : Option String}
    (h : Reader.bracketedOptions ts = .ok (text, rest)) :
    text = none ∧ rest = ts ∨
      ∃ run, IsRaw .rightBracket run ∧
        text = some (String.intercalate " " (run.map Token.text)) ∧
        significantTokens ts = .mark .leftBracket :: run ++
          .mark .rightBracket :: significantTokens rest := by
  by_cases hbracket : peek ts = some (.mark .leftBracket)
  · right
    rw [Reader.bracketedOptions, bind_eq (Blind.eat_of_peek hbracket), if_pos rfl] at h
    obtain ⟨_, ts₁, htext, h⟩ := bind_eq_ok h
    obtain ⟨_, ts₂, hend, h⟩ := bind_eq_ok h
    cases h
    obtain ⟨run, hraw, rfl, hrun⟩ := isRaw_of_rawText htext
    refine ⟨run, hraw, rfl, ?_⟩
    rw [significantTokens_of_peek hbracket, hrun, significantTokens_of_taken hend,
      List.cons_append]
  · left
    rw [Reader.bracketedOptions, bind_eq (eat_of_peek_ne hbracket)] at h
    cases h
    exact ⟨rfl, rfl⟩

theorem optionDecl : Matches σ σ Reader.optionDecl := by
  intro ts decl rest h hrest
  obtain ⟨name, value, hname, hvalue, -, htokens⟩ := isRaw_of_optionDecl h
  rw [htokens]
  simpa using Nests.optionDecl hname hvalue hrest

theorem bracketedOptions : Matches σ σ Reader.bracketedOptions := by
  intro ts text rest h hrest
  rcases isRaw_of_bracketedOptions h with ⟨-, rfl⟩ | ⟨run, hrun, -, htokens⟩
  · exact hrest
  · rw [htokens, List.cons_append]
    exact .bracketed hrun hrest

/-! ## Numbers and ranges -/

theorem integer : Matches σ σ Reader.integer := by
  refine bind (eat rfl) fun negative => next fun token => ?_
  split
  · refine .bind (.advance rfl) fun _ => ?_
    split
    · exact pure _
    · exact refuse _
  · exact .of_matches (refuseNext _)

theorem fieldNumber : Matches σ σ Reader.fieldNumber := by
  refine bind integer fun value => ?_
  split
  · exact pure _
  · exact refuse _

theorem reservedItem : Matches σ σ Reader.reservedItem := by
  refine next fun token => ?_
  split
  · exact .bind (.advance rfl) fun _ => pure _
  · split
    · exact .of_matches (refuseNext _)
    · exact .bind (.advance rfl) fun _ => pure _
  · refine .of_matches (bind integer fun start => atKeyword (.bind (.advance rfl) fun _ => ?_) ?_)
    · exact atKeyword (.bind (.advance rfl) fun _ => pure _) (bind integer fun stop => pure _)
    · exact pure _

theorem reservedItems : Matches σ σ Reader.reservedItems := by
  refine bind reservedItem fun first => bind (repeated ?_) fun _ => pure _
  refine bind (eat rfl) fun comma => ?_
  split
  · exact map reservedItem some
  · exact pure none

/-! ## Fields and enums -/

theorem fieldLabel : Matches σ σ Reader.fieldLabel := by
  refine lookahead 1 fun start => ?_
  cases start with
  | nil => exact .of_matches (pure _)
  | cons t following =>
    cases t with
    | ident keyword =>
      have hadvance : MatchesAt (some (.ident keyword)) σ σ Reader.advance := .advance rfl
      exact .ite (fun _ => .bind hadvance fun _ => pure _) (.of_matches (pure _))
    | _ => exact .of_matches (pure _)

theorem fieldAfterLabel (label : FieldLabel) (line : Nat) :
    Matches σ σ (Reader.fieldAfterLabel label line) :=
  bind dottedName fun _ => bind ident fun _ => bind (expect rfl) fun _ => bind fieldNumber fun _ =>
    bind bracketedOptions fun _ => bind (expect rfl) fun _ => pure _

theorem mapField : Matches σ σ Reader.mapField :=
  bind line fun _ => bind (expectKeyword _) fun _ => bind (expect_opener rfl) fun _ =>
    bind dottedName fun _ => bind (expect rfl) fun _ => bind dottedName fun _ =>
    bind (expect_closer rfl) fun _ => bind ident fun _ => bind (expect rfl) fun _ =>
    bind fieldNumber fun _ => bind bracketedOptions fun _ => bind (expect rfl) fun _ => pure _

theorem enumElement : Matches σ σ Reader.enumElement := by
  refine lookahead 1 fun start => ?_
  split
  · exact .of_matches (bind optionDecl fun _ => pure _)
  split
  · rename_i h
    rw [h.1]
    exact .bind (.advance rfl) fun _ => bind reservedItems fun _ => bind (expect rfl) fun _ =>
      pure _
  · exact .of_matches (bind ident fun _ => bind (expect rfl) fun _ => bind integer fun _ =>
      bind bracketedOptions fun _ => bind (expect rfl) fun _ => pure _)

theorem enumDecl : Matches σ σ Reader.enumDecl :=
  bind line fun _ => bind (expectKeyword _) fun _ => bind ident fun _ =>
    bind (body _ _ fun _ => enumElement) fun _ => pure _

/-! ## Messages -/

section

variable {element : Reader MessageElement} (helement : ∀ σ, Matches σ σ element)

include helement

theorem groupAfterLabel : Matches σ σ (Reader.groupAfterLabel element) :=
  bind (expectKeyword _) fun _ => bind ident fun _ => bind (expect rfl) fun _ =>
    bind fieldNumber fun _ => bind bracketedOptions fun _ => bind (body _ _ helement) fun _ =>
    pure _

/-- What follows the label of a member: a group or a field. -/
theorem groupOrField {field : Field → α}
    {group : FieldLabel → Nat → String × UInt32 × List MessageElement → α} :
    Matches σ σ (do
      let line ← Reader.line
      let label ← Reader.fieldLabel
      if opensGroup (← Reader.lookahead 3) then
        return group label line (← Reader.groupAfterLabel element)
      else
        return field (← Reader.fieldAfterLabel label line)) := by
  refine bind line fun line => bind fieldLabel fun label => lookahead 2 fun start => ?_
  split
  · exact .of_matches (bind (groupAfterLabel helement) fun _ => pure _)
  · exact .of_matches (bind (fieldAfterLabel label line) fun _ => pure _)

theorem oneofElement : Matches σ σ (Reader.oneofElement element) := by
  refine lookahead 3 fun start => ?_
  split
  · exact .of_matches (bind optionDecl fun _ => pure _)
  · exact .of_matches (groupOrField helement)

theorem extendDecl : Matches σ σ (Reader.extendDecl element) :=
  bind line fun _ => bind (expectKeyword _) fun _ => bind dottedName fun _ =>
    bind (body _ _ helement) fun _ => pure _

theorem messageDecl : Matches σ σ (Reader.messageDecl element) :=
  bind line fun _ => bind (expectKeyword _) fun _ => bind ident fun _ =>
    bind (body _ _ helement) fun _ => pure _

theorem messageElementWith : Matches σ σ (Reader.messageElementWith element) := by
  have hstill (ts : List Lexeme) (extension : Bool) (rest : List Lexeme)
      (h : Reader.atExtend ts = .ok (extension, rest)) : rest = ts := by
    obtain ⟨found, between, hfound, h⟩ := bind_eq_ok h
    cases hfound
    split at h <;> cases h <;> rfl
  refine lookahead 3 fun start => ?_
  dsimp only
  refine .ite (fun _ => .of_matches ?message) (.ite (fun _ => .of_matches ?enum)
    (.ite (fun _ => .of_matches ?oneof) (.still hstill fun extension =>
    .ite (fun _ => .of_matches ?extend) (.ite (fun _ => .of_matches ?option)
    (.ite (fun hreserved => ?reserved) (.ite (fun hextensions => ?extensions)
    (.ite (fun _ => .of_matches ?map) (.of_matches ?member))))))))
  case message => exact bind (messageDecl helement) fun _ => pure _
  case enum => exact bind enumDecl fun _ => pure _
  case oneof =>
    exact bind (expectKeyword _) fun _ => bind ident fun _ =>
      bind (body _ _ fun _ => oneofElement helement) fun _ => pure _
  case extend => exact bind (extendDecl helement) fun _ => pure _
  case option => exact bind optionDecl fun _ => pure _
  case reserved =>
    rw [hreserved.1]
    exact .bind (.advance rfl) fun _ => bind reservedItems fun _ => bind (expect rfl) fun _ =>
      pure _
  case extensions =>
    rw [hextensions.1]
    exact .bind (.advance rfl) fun _ => bind reservedItems fun _ => bind bracketedOptions fun _ =>
      bind (expect rfl) fun _ => pure _
  case map => exact bind mapField fun _ => pure _
  case member => exact groupOrField helement

end

theorem messageElement (depth : Nat) (σ : List Mark) :
    Matches σ σ (Reader.messageElement depth) := by
  induction depth generalizing σ with
  | zero => exact refuse _
  | succ depth ih => exact messageElementWith ih

/-! ## Services -/

theorem peek_of_atStream {ts : List Lexeme} (h : atStream ts = true) :
    peek ts = some (.ident "stream") := by
  unfold atStream at h
  split at h
  · rename_i keyword following htake
    have hhead : (significant ts).head? = some keyword := by
      have htake : (significant ts).take 2 = [keyword, following] := htake
      rw [← List.take_append_drop 2 (significant ts), htake]
      rfl
    rw [peek_eq_significant, hhead, Option.map_some]
    exact congrArg some (eq_of_beq (Bool.and_eq_true_iff.1 h).1)
  · cases h

theorem rpcType : Matches σ σ Reader.rpcType := by
  refine bind (expect_opener rfl) fun _ => look fun ts => ?_
  cases h : atStream ts with
  | true =>
    rw [peek_of_atStream h]
    exact .bind (.advance rfl) fun _ => bind dottedName fun _ => bind (expect_closer rfl) fun _ =>
      pure _
  | false =>
    exact .of_matches (bind dottedName fun _ => bind (expect_closer rfl) fun _ => pure _)

theorem rpcOptions : Matches σ σ Reader.rpcOptions := by
  intro ts options rest h hrest
  by_cases hbrace : peek ts = some (.mark .leftBrace)
  · rw [Reader.rpcOptions, bind_eq (Blind.eat_of_peek hbrace), if_pos rfl] at h
    rw [significantTokens_of_peek hbrace]
    have hbody := elements .rpc (fun _ => none) (σ := σ) fun _ => map optionDecl some
    exact .opener rfl ((bind hbody fun _ => bind (eat rfl) fun _ => pure _) _ options rest h hrest)
  · rw [Reader.rpcOptions, bind_eq (eat_of_peek_ne hbrace)] at h
    exact (bind (expect rfl) fun _ => pure _) ts options rest h hrest

theorem rpc : Matches σ σ Reader.rpc :=
  bind line fun _ => bind (expectKeyword _) fun _ => bind ident fun _ => bind rpcType fun _ =>
    bind (expectKeyword _) fun _ => bind rpcType fun _ => bind rpcOptions fun _ => pure _

theorem serviceElement : Matches σ σ Reader.serviceElement :=
  atKeyword (.of_matches (bind optionDecl fun _ => pure _))
    (atKeyword (.of_matches (bind rpc fun _ => pure _)) (refuseNext _))

theorem service : Matches σ σ Reader.service :=
  bind line fun _ => bind (expectKeyword _) fun _ => bind ident fun _ =>
    bind (body _ _ fun _ => serviceElement) fun _ => pure _

/-! ## Statements -/

theorem dialectValue : Matches σ σ Reader.dialectValue :=
  bind (expect rfl) fun _ => bind str fun _ => bind (expect rfl) fun _ => pure _

theorem numberedDialect : Matches σ σ Reader.numberedDialect := by
  refine bind (expectKeyword _) fun _ => bind dialectValue fun value => ?_
  split
  · exact pure _
  · split
    · exact pure _
    · exact refuse _

theorem importDecl : Matches σ σ Reader.importDecl := by
  have hpath (modifier : ImportModifier) (line : Nat) : Matches σ σ
      (Reader.str >>= fun path => Reader.expect .semi >>= fun _ =>
        Pure.pure (⟨path, modifier, line⟩ : Import)) :=
    bind str fun _ => bind (expect rfl) fun _ => pure _
  refine bind line fun line => bind (expectKeyword _) fun _ => next fun token => ?_
  split
  · exact .bind (.advance rfl) fun _ => hpath _ _
  · exact .bind (.advance rfl) fun _ => hpath _ _
  · exact .of_matches (hpath _ _)

theorem statementOf (depth : Nat) (keyword : String) :
    MatchesAt (some (.ident keyword)) σ σ (Reader.statementOf depth keyword) := by
  unfold Reader.statementOf
  split
  · exact .of_matches (bind numberedDialect fun _ => pure _)
  · exact .bind (.advance rfl) fun _ => bind dialectValue fun _ => pure _
  · exact .bind (.advance rfl) fun _ => bind dottedName fun _ => bind (expect rfl) fun _ => pure _
  · exact .of_matches (bind importDecl fun _ => pure _)
  · exact .of_matches (bind optionDecl fun _ => pure _)
  · exact .of_matches (bind (messageDecl (messageElement depth)) fun _ => pure _)
  · exact .of_matches (bind enumDecl fun _ => pure _)
  · exact .of_matches (bind service fun _ => pure _)
  · exact .of_matches (bind (extendDecl (messageElement depth)) fun _ => pure _)
  · exact .of_matches (refuse _)

theorem statement? (depth : Nat) : Matches σ σ (Reader.statement? depth) := by
  intro ts answer rest h hrest
  cases ts with
  | nil =>
    cases h
    exact hrest
  | cons t ts =>
    obtain ⟨text, ht, -, rfl⟩ | ⟨ht, -, rfl⟩ | ⟨keyword, s, ht, -, hs⟩ := statement?_cases h
    · rwa [significantTokens_comment (Token.isComment_of_comment? ht)]
    · rw [significantTokens_cons (by rw [ht]; rfl), ht]
      exact .plain rfl hrest
    · have hpeek : peek (t :: ts) = some (.ident keyword) := by
        rw [← head?_significantTokens, significantTokens_cons (by rw [ht]; rfl), ht,
          List.head?_cons]
      exact statementOf depth keyword _ _ _ hpeek hs hrest

theorem statements : Matches σ σ Reader.statements :=
  fun ts => bind (repeated (statement? ts.length)) (fun _ => pure _) ts

end Matches
end Reader

/--
**Brackets match.** In a text that is read, each closing mark closes some opener and none is left
open; and each closes the latest one, of its own kind, exactly when this is so in the names, the
values and the bracketed texts of the options.
-/
theorem isLevel_of_parseSchema {path source : String} {file : SchemaFile}
    (h : parseSchema path source = .ok file) : ∃ lexemes, tokenize source = .ok lexemes ∧
      IsLevel (significantTokens lexemes) ∧
      (ProperlyNested (significantTokens lexemes) ↔
        ∀ run, OptionText (significantTokens lexemes) run → ProperlyNested run) := by
  obtain ⟨lexemes, statements, rest, htokenize, hread, -⟩ := exists_statements_of_parseSchema h
  obtain rfl := Reader.rest_of_statements hread
  have hnests := Reader.Matches.statements lexemes statements [] hread .nil
  exact ⟨lexemes, htokenize, hnests.depthAfterAll, fun hnested run => hnested.of_optionText,
    hnests.openAfterAll⟩

/-- A message with bracketed options, and an option whose value is a group. -/
def nestedText : String :=
  "message M \x7b map<int32, X> m = 1 [(a) = \x7b b: [1] \x7d]; \x7d option o = \x7b c: <> \x7d;"

theorem isLevel_nestedText : ∃ lexemes, tokenize nestedText = .ok lexemes ∧
    IsLevel (significantTokens lexemes) ∧ ProperlyNested (significantTokens lexemes) := by
  have hok : (parseSchema "a" nestedText).toOption.isSome = true := by decide +kernel
  have hnested : ∀ lexemes ∈ (tokenize nestedText).toOption,
      ProperlyNested (significantTokens lexemes) := by decide +kernel
  cases hread : parseSchema "a" nestedText with
  | error complaint =>
    rw [hread] at hok
    cases hok
  | ok file =>
    obtain ⟨lexemes, htokenize, hlevel, -⟩ := isLevel_of_parseSchema hread
    exact ⟨lexemes, htokenize, hlevel, hnested lexemes (by rw [htokenize]; rfl)⟩

/-- An option whose value opens a brace and closes a bracket. -/
def crossedText : String :=
  "option a = \x7b ];"

/-- The text of an option is taken whatever the kinds of its marks are. -/
theorem crossedText_not_nested : (parseSchema "a" crossedText).toOption.isSome = true ∧
    ∃ lexemes, tokenize crossedText = .ok lexemes ∧
      ¬ ProperlyNested (significantTokens lexemes) :=
  ⟨by decide +kernel, (tokenize crossedText).toOption.getD [], by decide +kernel,
    by decide +kernel⟩

end SchemaGraph
