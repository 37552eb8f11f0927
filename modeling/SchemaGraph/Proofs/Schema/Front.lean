import SchemaGraph.Proofs.Token.Literal
import SchemaGraph.Schema.Grammar
/-!
# Readers take lexemes from the front

What a reader leaves is a suffix of what it was given (`Reader.TakesFront`). There is one lemma for
each reader, in the order of the grammar, and each follows the reader's own steps. So whatever a
statement keeps has been read from the lexemes of the text; `path_mem_literals` says so of the names
in import statements.
-/

namespace SchemaGraph

variable {α β : Type}

theorem skipComments_suffix (ts : List Lexeme) : skipComments ts <:+ ts :=
  List.dropWhile_suffix _

/-- What comes next is one of the lexemes. -/
theorem mem_of_peek_eq {ts : List Lexeme} {token : Token} (h : peek ts = some token) :
    ∃ t ∈ ts, t.token = token := by
  unfold peek at h
  obtain ⟨t, ht, rfl⟩ := Option.map_eq_some_iff.1 h
  exact ⟨t, (skipComments_suffix ts).mem (List.mem_of_head? ht), rfl⟩

/-- What comes next is the first lexeme behind comments, and is taken with them. -/
theorem exists_of_peek_eq {ts : List Lexeme} {token : Token} (h : peek ts = some token) :
    ∃ t rest, skipComments ts = t :: rest ∧ t.token = token ∧
      Reader.advance ts = .ok ((), rest) := by
  unfold peek at h
  obtain ⟨t, ht, htoken⟩ := Option.map_eq_some_iff.1 h
  obtain ⟨rest, hskip⟩ := List.head?_eq_some_iff.1 ht
  exact ⟨t, rest, hskip, htoken, by rw [Reader.advance, hskip, List.tail_cons]⟩

namespace Reader

/-- What the reader leaves is a suffix of what it was given. -/
def TakesFront (x : Reader α) : Prop :=
  ∀ ts a rest, x ts = .ok (a, rest) → rest <:+ ts

/-- A composed reader that succeeds has gone through both parts. -/
theorem bind_eq_ok {x : Reader α} {f : α → Reader β} {ts : List Lexeme} {b : β}
    {rest : List Lexeme} (h : (x >>= f) ts = .ok (b, rest)) :
    ∃ a between, x ts = .ok (a, between) ∧ f a between = .ok (b, rest) := by
  simp only [Bind.bind] at h
  cases hx : x ts with
  | error refusal =>
    rw [hx] at h
    cases h
  | ok read =>
    rw [hx] at h
    exact ⟨read.1, read.2, rfl, h⟩

/-- A token that must come next has come next, and has been taken. -/
theorem peek_of_taken {token : Token} {complaint : Option Token → Complaint}
    {ts rest : List Lexeme}
    (h : (do if (← next) = some token then advance else refuseNext complaint : Reader Unit) ts =
      .ok ((), rest)) : peek ts = some token ∧ advance ts = .ok ((), rest) := by
  obtain ⟨_, _, hnext, h⟩ := bind_eq_ok h
  cases hnext
  split at h
  · rename_i hpeek
    exact ⟨hpeek, h⟩
  · cases h

namespace TakesFront

/-! ## Single steps -/

theorem pure (a : α) : TakesFront (Pure.pure a : Reader α) := by
  intro ts b rest h
  cases h
  exact List.suffix_refl ts

theorem bind {x : Reader α} {f : α → Reader β} (hx : TakesFront x) (hf : ∀ a, TakesFront (f a)) :
    TakesFront (x >>= f) := by
  intro ts b rest h
  obtain ⟨a, between, hfirst, hsecond⟩ := bind_eq_ok h
  exact (hf a between b rest hsecond).trans (hx ts a between hfirst)

theorem map {x : Reader α} (hx : TakesFront x) (f : α → β) : TakesFront (f <$> x) :=
  bind hx fun a => pure (f a)

/-- A reader that only looks. -/
theorem look (f : List Lexeme → α) : TakesFront (fun ts => .ok (f ts, ts) : Reader α) := by
  intro ts a rest h
  cases h
  exact List.suffix_refl ts

theorem ite {p : Prop} [Decidable p] {x y : Reader α} (hx : TakesFront x) (hy : TakesFront y) :
    TakesFront (if p then x else y) := by
  split
  · exact hx
  · exact hy

theorem refuse (complaint : Complaint) : TakesFront (Reader.refuse complaint : Reader α) :=
  fun _ _ _ h => by cases h

theorem refuseNext (complaint : Option Token → Complaint) :
    TakesFront (Reader.refuseNext complaint : Reader α) :=
  fun _ _ _ h => by cases h

theorem next : TakesFront Reader.next :=
  look peek

theorem nextOrComment : TakesFront Reader.nextOrComment :=
  look fun ts => ts.head?.map Lexeme.token

theorem advance : TakesFront Reader.advance := by
  intro ts a rest h
  cases h
  exact (List.tail_suffix _).trans (skipComments_suffix ts)

theorem advanceOne : TakesFront Reader.advanceOne := by
  intro ts a rest h
  cases h
  exact List.tail_suffix ts

theorem eat (mark : Mark) : TakesFront (Reader.eat mark) := by
  refine bind next fun token => ?_
  split
  · exact bind advance fun _ => pure true
  · exact pure false

theorem expect (mark : Mark) : TakesFront (Reader.expect mark) := by
  refine bind next fun token => ?_
  split
  · exact advance
  · exact refuseNext _

theorem atKeyword (keyword : String) : TakesFront (Reader.atKeyword keyword) :=
  bind next fun _ => pure _

theorem expectKeyword (keyword : String) : TakesFront (Reader.expectKeyword keyword) := by
  refine bind next fun token => ?_
  split
  · exact advance
  · exact refuseNext _

theorem ident : TakesFront Reader.ident := by
  refine bind next fun token => ?_
  split
  · exact bind advance fun _ => pure _
  · exact refuseNext _

theorem str : TakesFront Reader.str := by
  refine bind next fun token => ?_
  split
  · exact bind advance fun _ => pure _
  · exact refuseNext _

/-! ## Repetition -/

theorem repeatWithin {step : Reader (Option α)} (hstep : TakesFront step) (bound : List Lexeme) :
    TakesFront (Reader.repeatWithin step bound) := by
  induction bound with
  | nil => exact pure []
  | cons _ bound ih =>
    refine bind hstep fun answer => ?_
    cases answer with
    | none => exact pure []
    | some a => exact bind ih fun rest => pure _

theorem repeated {step : Reader (Option α)} (hstep : TakesFront step) :
    TakesFront (Reader.repeated step) :=
  fun ts a rest h => repeatWithin hstep ts ts a rest h

theorem dottedName : TakesFront Reader.dottedName := by
  refine bind (eat .dot) fun absolute => bind ident fun first => bind (repeated ?_) fun _ => pure _
  refine bind (eat .dot) fun dot => ?_
  split
  · exact map ident some
  · exact pure none

theorem elementsWithin (place : BodyPlace) (comment : String → α) {element : Reader α}
    (helement : TakesFront element) (bound : List Lexeme) :
    TakesFront (Reader.elementsWithin place comment element bound) := by
  induction bound with
  | nil => exact refuse _
  | cons _ bound ih =>
    refine bind nextOrComment fun token => ?_
    split
    · exact refuse _
    · exact bind advanceOne fun _ => pure []
    · exact bind advanceOne fun _ => ih
    · split
      · exact bind advanceOne fun _ => bind ih fun _ => pure _
      · exact bind helement fun _ => bind ih fun _ => pure _

theorem elements (place : BodyPlace) (comment : String → α) {element : Reader α}
    (helement : TakesFront element) : TakesFront (Reader.elements place comment element) :=
  fun ts a rest h => elementsWithin place comment helement ts ts a rest h

theorem body (place : BodyPlace) (comment : String → α) {element : Reader α}
    (helement : TakesFront element) : TakesFront (Reader.body place comment element) :=
  bind (expect .leftBrace) fun _ => elements place comment helement

theorem rawTokens (terminator : Mark) (depth : Nat) :
    TakesFront (Reader.rawTokens terminator depth) := by
  intro ts a rest h
  fun_induction Reader.rawTokens terminator depth ts generalizing a with
  | case1 => cases h
  | case2 depth t ts _ ih => exact (ih a h).trans (List.suffix_cons t ts)
  | case3 depth t ts =>
    cases h
    exact List.suffix_refl _
  | case4 => cases h
  | case5 => cases h
  | case6 depth t ts _ _ depth' _ tokens rest' hrest ih =>
    cases h
    exact (ih tokens hrest).trans (List.suffix_cons t ts)

theorem rawText (terminator : Mark) : TakesFront (Reader.rawText terminator) :=
  bind (rawTokens terminator 0) fun _ => pure _

/-! ## Options and numbers -/

theorem integer : TakesFront Reader.integer := by
  refine bind (eat .minus) fun negative => bind next fun token => ?_
  split
  · refine bind advance fun _ => ?_
    split
    · exact pure _
    · exact refuse _
  · exact refuseNext _

theorem fieldNumber : TakesFront Reader.fieldNumber := by
  refine bind integer fun value => ?_
  split
  · exact pure _
  · exact refuse _

theorem optionDecl : TakesFront Reader.optionDecl :=
  bind (expectKeyword _) fun _ => bind (rawText _) fun _ => bind (expect _) fun _ =>
    bind (rawText _) fun _ => bind (expect _) fun _ => pure _

theorem bracketedOptions : TakesFront Reader.bracketedOptions := by
  refine bind (eat _) fun bracket => ?_
  split
  · exact bind (rawText _) fun _ => bind (expect _) fun _ => pure _
  · exact pure none

theorem reservedItem : TakesFront Reader.reservedItem := by
  refine bind next fun token => ?_
  split
  · exact bind advance fun _ => pure _
  · split
    · exact refuseNext _
    · exact bind advance fun _ => pure _
  · refine bind integer fun start => bind (atKeyword _) fun isRange => ?_
    split
    · refine bind advance fun _ => bind (atKeyword _) fun isMax => ?_
      split
      · exact bind advance fun _ => pure _
      · exact bind integer fun stop => pure _
    · exact pure _

theorem reservedItems : TakesFront Reader.reservedItems := by
  refine bind reservedItem fun first => bind (repeated ?_) fun _ => pure _
  refine bind (eat .comma) fun comma => ?_
  split
  · exact map reservedItem some
  · exact pure none

/-! ## Fields and enums -/

theorem fieldLabel : TakesFront Reader.fieldLabel := by
  refine bind (look (ahead 2)) fun start => ?_
  dsimp only
  exact ite (bind advance fun _ => pure _) (pure _)

theorem fieldAfterLabel (label : FieldLabel) (line : Nat) :
    TakesFront (Reader.fieldAfterLabel label line) :=
  bind dottedName fun _ => bind ident fun _ => bind (expect _) fun _ => bind fieldNumber fun _ =>
    bind bracketedOptions fun _ => bind (expect _) fun _ => pure _

theorem line : TakesFront Reader.line :=
  look fun ts => (nextLine? ts).getD 0

theorem mapField : TakesFront Reader.mapField :=
  bind line fun _ => bind (expectKeyword _) fun _ => bind (expect _) fun _ =>
    bind dottedName fun _ => bind (expect _) fun _ => bind dottedName fun _ =>
    bind (expect _) fun _ => bind ident fun _ => bind (expect _) fun _ => bind fieldNumber fun _ =>
    bind bracketedOptions fun _ => bind (expect _) fun _ => pure _

theorem enumElement : TakesFront Reader.enumElement := by
  refine bind (look (ahead 2)) fun start => ?_
  split
  · exact bind optionDecl fun _ => pure _
  · split
    · exact bind advance fun _ => bind reservedItems fun _ => bind (expect _) fun _ => pure _
    · exact bind ident fun _ => bind (expect _) fun _ => bind integer fun _ =>
        bind bracketedOptions fun _ => bind (expect _) fun _ => pure _

theorem enumDecl : TakesFront Reader.enumDecl :=
  bind line fun _ => bind (expectKeyword _) fun _ => bind ident fun _ =>
    bind (body _ _ enumElement) fun _ => pure _

/-! ## Messages -/

section

variable {element : Reader MessageElement}

theorem groupAfterLabel (helement : TakesFront element) :
    TakesFront (Reader.groupAfterLabel element) :=
  bind (expectKeyword _) fun _ => bind ident fun _ => bind (expect _) fun _ =>
    bind fieldNumber fun _ => bind bracketedOptions fun _ => bind (body _ _ helement) fun _ =>
    pure _

/-- What follows the label of a member: a group or a field. -/
theorem groupOrField (helement : TakesFront element) {group : FieldLabel → Nat →
      String × UInt32 × List MessageElement → α} {field : Field → α} :
    TakesFront (do
      let line ← Reader.line
      let label ← Reader.fieldLabel
      if opensGroup (← lookahead 3) then
        return group label line (← Reader.groupAfterLabel element)
      else
        return field (← Reader.fieldAfterLabel label line)) := by
  refine bind line fun line => bind fieldLabel fun label => bind (look (ahead 3)) fun start => ?_
  split
  · exact bind (groupAfterLabel helement) fun _ => pure _
  · exact bind (fieldAfterLabel label line) fun _ => pure _

theorem oneofElement (helement : TakesFront element) :
    TakesFront (Reader.oneofElement element) := by
  refine bind (look (ahead 4)) fun start => ?_
  split
  · exact bind optionDecl fun _ => pure _
  · exact groupOrField helement

theorem extendDecl (helement : TakesFront element) : TakesFront (Reader.extendDecl element) :=
  bind line fun _ => bind (expectKeyword _) fun _ => bind dottedName fun _ =>
    bind (body _ _ helement) fun _ => pure _

theorem messageDecl (helement : TakesFront element) : TakesFront (Reader.messageDecl element) :=
  bind line fun _ => bind (expectKeyword _) fun _ => bind ident fun _ =>
    bind (body _ _ helement) fun _ => pure _

theorem atExtend : TakesFront Reader.atExtend := by
  refine bind (atKeyword _) fun keyword => ?_
  split
  · exact bind (look fun ts => ahead ts.length ts) fun _ => pure _
  · exact pure false

theorem messageElementWith (helement : TakesFront element) :
    TakesFront (Reader.messageElementWith element) := by
  refine bind (look (ahead 4)) fun start => ?_
  dsimp only
  refine ite ?message (ite ?enum (ite ?oneof (bind atExtend fun extension =>
    ite ?extend (ite ?option (ite ?reserved (ite ?extensions (ite ?map ?member)))))))
  case message => exact bind (messageDecl helement) fun _ => pure _
  case enum => exact bind enumDecl fun _ => pure _
  case oneof =>
    exact bind (expectKeyword _) fun _ => bind ident fun _ =>
      bind (body _ _ (oneofElement helement)) fun _ => pure _
  case extend => exact bind (extendDecl helement) fun _ => pure _
  case option => exact bind optionDecl fun _ => pure _
  case reserved =>
    exact bind advance fun _ => bind reservedItems fun _ => bind (expect _) fun _ => pure _
  case extensions =>
    exact bind advance fun _ => bind reservedItems fun _ => bind bracketedOptions fun _ =>
      bind (expect _) fun _ => pure _
  case map => exact bind mapField fun _ => pure _
  case member => exact groupOrField helement

end

theorem messageElement (depth : Nat) : TakesFront (Reader.messageElement depth) := by
  induction depth with
  | zero => exact refuse _
  | succ depth ih => exact messageElementWith ih

/-! ## Services -/

theorem rpcType : TakesFront Reader.rpcType := by
  refine bind (expect _) fun _ => bind (look atStream) fun streaming => ?_
  split
  · exact bind advance fun _ => bind dottedName fun _ => bind (expect _) fun _ => pure _
  · exact bind dottedName fun _ => bind (expect _) fun _ => pure _

theorem rpcOptions : TakesFront Reader.rpcOptions := by
  refine bind (eat _) fun brace => ?_
  split
  · exact bind (elements _ _ (map optionDecl some)) fun _ => bind (eat _) fun _ => pure _
  · exact bind (expect _) fun _ => pure _

theorem rpc : TakesFront Reader.rpc :=
  bind line fun _ => bind (expectKeyword _) fun _ => bind ident fun _ => bind rpcType fun _ =>
    bind (expectKeyword _) fun _ => bind rpcType fun _ => bind rpcOptions fun _ => pure _

theorem serviceElement : TakesFront Reader.serviceElement := by
  refine bind (atKeyword _) fun isOption => ?_
  split
  · exact bind optionDecl fun _ => pure _
  · refine bind (atKeyword _) fun isRpc => ?_
    split
    · exact bind rpc fun _ => pure _
    · exact refuseNext _

theorem service : TakesFront Reader.service :=
  bind line fun _ => bind (expectKeyword _) fun _ => bind ident fun _ =>
    bind (body _ _ serviceElement) fun _ => pure _

/-! ## Statements -/

theorem dialectValue : TakesFront Reader.dialectValue :=
  bind (expect _) fun _ => bind str fun _ => bind (expect _) fun _ => pure _

theorem numberedDialect : TakesFront Reader.numberedDialect := by
  refine bind (expectKeyword _) fun _ => bind dialectValue fun value => ?_
  split
  · exact pure _
  · split
    · exact pure _
    · exact refuse _

theorem importDecl : TakesFront Reader.importDecl := by
  refine bind line fun _ => bind (expectKeyword _) fun _ => bind next fun token => ?_
  dsimp only
  exact ite (bind advance fun _ => bind str fun _ => bind (expect _) fun _ => pure _)
    (bind str fun _ => bind (expect _) fun _ => pure _)

theorem statementOf (depth : Nat) (keyword : String) :
    TakesFront (Reader.statementOf depth keyword) := by
  unfold Reader.statementOf
  split
  · exact bind numberedDialect fun _ => pure _
  · exact bind advance fun _ => bind dialectValue fun _ => pure _
  · exact bind advance fun _ => bind dottedName fun _ => bind (expect _) fun _ => pure _
  · exact bind importDecl fun _ => pure _
  · exact bind optionDecl fun _ => pure _
  · exact bind (messageDecl (messageElement depth)) fun _ => pure _
  · exact bind enumDecl fun _ => pure _
  · exact bind service fun _ => pure _
  · exact bind (extendDecl (messageElement depth)) fun _ => pure _
  · exact refuse _

theorem statement? (depth : Nat) : TakesFront (Reader.statement? depth) := by
  refine bind nextOrComment fun token => ?_
  split
  · exact pure none
  · exact bind advance fun _ => pure _
  · exact bind (statementOf depth _) fun _ => pure _
  · split
    · exact bind advanceOne fun _ => pure _
    · exact refuse _

end TakesFront

/-! ## Names in import statements -/

/-- Every text that `q` finds in an answer of the reader is the value of a string literal among the
lexemes that the reader was given. -/
def Quotes (q : α → String → Prop) (x : Reader α) : Prop :=
  ∀ ts a rest, x ts = .ok (a, rest) → ∀ value, q a value → ∃ t ∈ ts, t.token = .str value

namespace Quotes

variable {q : α → String → Prop}

theorem of_not {x : Reader α} (h : ∀ a value, ¬ q a value) : Quotes q x :=
  fun _ a _ _ value hvalue => absurd hvalue (h a value)

theorem pure {a : α} (h : ∀ value, ¬ q a value) : Quotes q (Pure.pure a) := by
  intro ts b rest hb value hvalue
  cases hb
  exact absurd hvalue (h value)

theorem refuse (complaint : Complaint) : Quotes q (Reader.refuse complaint) :=
  fun _ _ _ h => by cases h

/-- What the second part finds is among the lexemes that the first part leaves. -/
theorem bind {x : Reader β} {f : β → Reader α} (hx : TakesFront x) (hf : ∀ b, Quotes q (f b)) :
    Quotes q (x >>= f) := by
  intro ts a rest h value hvalue
  obtain ⟨b, between, hfirst, hsecond⟩ := bind_eq_ok h
  obtain ⟨t, ht, hliteral⟩ := hf b between a rest hsecond value hvalue
  exact ⟨t, (hx ts b between hfirst).mem ht, hliteral⟩

theorem map {x : Reader β} {f : β → α} (hx : Quotes (fun b => q (f b)) x) :
    Quotes q (x >>= fun b => Pure.pure (f b)) := by
  intro ts a rest h value hvalue
  obtain ⟨b, between, hfirst, hsecond⟩ := bind_eq_ok h
  cases hsecond
  exact hx ts b rest hfirst value hvalue

theorem ite {p : Prop} [Decidable p] {x y : Reader α} (hx : Quotes q x) (hy : Quotes q y) :
    Quotes q (if p then x else y) := by
  split
  · exact hx
  · exact hy

theorem str : Quotes (fun a value => a = value) Reader.str := by
  rintro ts a rest h value rfl
  obtain ⟨token, between, hnext, hrest⟩ := bind_eq_ok h
  cases hnext
  cases hpeek : peek ts with
  | none =>
    rw [hpeek] at hrest
    cases hrest
  | some token =>
    rw [hpeek] at hrest
    cases token with
    | str literal =>
      cases hrest
      exact mem_of_peek_eq hpeek
    | _ => cases hrest

theorem importDecl : Quotes (fun i value => i.path = value) Reader.importDecl := by
  refine bind .line fun line => bind (.expectKeyword _) fun _ => bind .next fun token => ?_
  dsimp only
  -- With and without a modifier the string literal comes next.
  have hpath (modifier : ImportModifier) : Quotes (fun i value => i.path = value)
      (Reader.str >>= fun path => Reader.expect .semi >>= fun _ =>
        Pure.pure (⟨path, modifier, line⟩ : Import)) := by
    intro ts i rest h value hvalue
    obtain ⟨path, between, hstr, hsemi⟩ := bind_eq_ok h
    obtain ⟨_, _, _, hpure⟩ := bind_eq_ok hsemi
    cases hpure
    exact str ts path between hstr value hvalue
  exact ite (bind .advance fun _ => hpath _) (hpath _)

/-- The name of the statement, if it imports something. -/
theorem statementOf (depth : Nat) (keyword : String) :
    Quotes (fun s value => ∃ i, s = .imports i ∧ i.path = value)
      (Reader.statementOf depth keyword) := by
  unfold Reader.statementOf
  split
  · exact map (of_not (by simp))
  · exact bind .advance fun _ => map (of_not (by simp))
  · exact bind .advance fun _ => bind .dottedName fun _ => map (of_not (by simp))
  · refine map fun ts i rest h value => ?_
    rintro ⟨_, heq, hvalue⟩
    cases heq
    exact importDecl ts i rest h value hvalue
  · exact map (of_not (by simp))
  · exact map (of_not (by simp))
  · exact map (of_not (by simp))
  · exact map (of_not (by simp))
  · exact map (of_not (by simp))
  · exact refuse _

theorem statement? (depth : Nat) :
    Quotes (fun answer value => ∃ i, .imports i ∈ answer.getD [] ∧ i.path = value)
      (Reader.statement? depth) := by
  refine bind .nextOrComment fun token => ?_
  split
  · exact pure (by simp)
  · exact bind .advance fun _ => pure (by simp)
  · refine map fun ts s rest h value => ?_
    rintro ⟨i, hi, hvalue⟩
    exact statementOf depth _ ts s rest h value ⟨i, (List.mem_singleton.1 hi).symm, hvalue⟩
  · split
    · exact bind .advanceOne fun _ => pure (by simp)
    · exact refuse _

theorem repeatWithin {q : Option α → String → Prop} {step : Reader (Option α)}
    (hstep : TakesFront step) (hquotes : Quotes q step) (bound : List Lexeme) :
    Quotes (fun as value => ∃ a ∈ as, q (some a) value) (Reader.repeatWithin step bound) := by
  induction bound with
  | nil => exact pure (by simp)
  | cons _ bound ih =>
    intro ts as rest h value hvalue
    obtain ⟨answer, between, hfirst, hothers⟩ := bind_eq_ok h
    cases answer with
    | none =>
      cases hothers
      simp at hvalue
    | some a =>
      obtain ⟨others, after, hothers, hpure⟩ := bind_eq_ok hothers
      cases hpure
      obtain ⟨b, hb, hvalue⟩ := hvalue
      rcases List.mem_cons.1 hb with rfl | hb
      · exact hquotes ts _ between hfirst value hvalue
      · obtain ⟨t, ht, hliteral⟩ := ih between others rest hothers value ⟨b, hb, hvalue⟩
        exact ⟨t, (hstep ts _ between hfirst).mem ht, hliteral⟩

theorem statements :
    Quotes (fun ss value => ∃ i, .imports i ∈ ss ∧ i.path = value) Reader.statements := by
  intro ts ss rest h value hvalue
  obtain ⟨groups, between, hgroups, hpure⟩ := bind_eq_ok h
  cases hpure
  obtain ⟨i, hi, hvalue⟩ := hvalue
  obtain ⟨group, hgroup, hi⟩ := List.mem_flatten.1 hi
  exact repeatWithin (.statement? _) (statement? _) ts ts groups rest hgroups value
    ⟨group, hgroup, i, hi, hvalue⟩

end Quotes
end Reader

/-! ## Files and their statements -/

/-- A file that is read comes from the statements among the lexemes of its text. -/
theorem exists_statements_of_parseSchema {path source : String} {file : SchemaFile}
    (h : parseSchema path source = .ok file) : ∃ lexemes statements rest,
      tokenize source = .ok lexemes ∧ Reader.statements lexemes = .ok (statements, rest) ∧
      file = SchemaFile.ofStatements statements := by
  unfold parseSchema at h
  split at h
  · cases h
  · rename_i lexemes htokenize
    split at h
    · cases h
    · rename_i statements rest hread
      cases h
      exact ⟨lexemes, statements, rest, htokenize, hread, rfl⟩

/-- A list that every statement makes longer by what `found?` finds in it holds what is found in the
statements, in their order. -/
theorem SchemaFile.collected_ofStatements {α : Type} {collected : SchemaFile → List α}
    {found? : Statement → Option α} (hempty : collected empty = [])
    (hadd : ∀ file s, collected (file.add s) = collected file ++ (found? s).toList)
    (statements : List Statement) :
    collected (ofStatements statements) = statements.filterMap found? := by
  have hfrom (file : SchemaFile) : collected (statements.foldl add file) =
      collected file ++ statements.filterMap found? := by
    induction statements generalizing file with
    | nil => exact (List.append_nil _).symm
    | cons s statements ih =>
      rw [List.foldl_cons, ih, hadd, List.append_assoc, List.filterMap_cons]
      cases found? s <;> rfl
  rw [ofStatements, hfrom, hempty, List.nil_append]

/-- The imports of a file are those among its statements, in their order. -/
theorem SchemaFile.imports_ofStatements (statements : List Statement) :
    (SchemaFile.ofStatements statements).imports = statements.filterMap fun
      | .imports i => some i
      | _ => none :=
  collected_ofStatements rfl (fun _ s => by cases s <;> simp [add]) statements

/-- The names in the import statements of a file are literals of its text. -/
theorem path_mem_literals {path source : String} {file : SchemaFile}
    (h : parseSchema path source = .ok file) {i : Import} (hi : i ∈ file.imports) :
    i.path ∈ literals source := by
  obtain ⟨lexemes, statements, rest, htokenize, hread, rfl⟩ := exists_statements_of_parseSchema h
  rw [SchemaFile.imports_ofStatements, List.mem_filterMap] at hi
  obtain ⟨s, hs, hi⟩ := hi
  have himports : .imports i ∈ statements := by
    cases s <;> simp_all
  obtain ⟨t, ht, hliteral⟩ := Reader.Quotes.statements lexemes statements rest hread i.path
    ⟨i, himports, rfl⟩
  rw [literals, htokenize]
  exact List.mem_filterMap.2 ⟨t, ht, by rw [Lexeme.literal?, hliteral]⟩

end SchemaGraph
