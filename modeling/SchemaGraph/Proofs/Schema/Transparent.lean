import SchemaGraph.Proofs.Schema.Blind
/-!
# Comments are transparent

Reading a text without its comments gives the declarations of the text without theirs. The bodies of
declarations are where the two runs differ: a comment between two elements is an element in the one
run and absent in the other (`Agrees.elements`). A message body holds bodies, so its elements are
read alike by induction on how deep they may be nested.
-/

namespace SchemaGraph

variable {α β : Type} {n m : Nat}

theorem Token.exists_comment? {token : Token} (h : token.isComment = true) :
    ∃ text, token.comment? = some text := by
  cases token with
  | lineComment text | blockComment text => exact ⟨text, rfl⟩
  | _ => cases h

theorem Token.isComment_of_comment? {token : Token} {text : String}
    (h : token.comment? = some text) : token.isComment = true := by
  cases token with
  | lineComment | blockComment => rfl
  | _ => cases h

namespace Reader

/-! ## Bodies -/

section

variable {place : BodyPlace} {keep : α → Option β} {comment : String → α} {comment' : String → β}
  {element : Reader α} {element' : Reader β}

theorem elementsWithin_nil (bound : List Lexeme) :
    elementsWithin place comment element bound [] = .error ⟨.endOfBody place, []⟩ := by
  cases bound <;> rfl

theorem elementsWithin_comment {t : Lexeme} {text : String} (ht : t.token.comment? = some text)
    (l : Lexeme) (bound ts : List Lexeme) :
    elementsWithin place comment element (l :: bound) (t :: ts) =
      (do
        let rest ← elementsWithin place comment element bound
        return comment text :: rest : Reader (List α)) ts := by
  obtain ⟨token, span, line⟩ := t
  cases token with
  | lineComment text | blockComment text =>
    cases ht
    rfl
  | _ => cases ht

/-- What a body does at a significant lexeme. -/
theorem elementsWithin_cons {t : Lexeme} (ht : t.token.isComment = false) (l : Lexeme)
    (bound ts : List Lexeme) :
    elementsWithin place comment element (l :: bound) (t :: ts) =
      if t.token = .mark .rightBrace then .ok ([], ts)
      else if t.token = .mark .semi then elementsWithin place comment element bound ts
      else (do
        let first ← element
        let rest ← elementsWithin place comment element bound
        return first :: rest : Reader (List α)) (t :: ts) := by
  obtain ⟨token, span, line⟩ := t
  cases token with
  | lineComment | blockComment => cases ht
  | mark mark => cases mark <;> rfl
  | _ => rfl

namespace Agrees

/-- The elements of a body: the comments between them are not kept. -/
theorem elementsWithin (hcomment : ∀ text, keep (comment text) = none)
    (hfront : TakesFront element)
    (helement : ∀ m < n, Agrees (m + 1) m (fun a b => keep a = some b) element element')
    (bound bound' ts : List Lexeme) (hbound : ts.length ≤ bound.length)
    (hbound' : (significant ts).length ≤ bound'.length) (hts : (significant ts).length ≤ n) :
    SameOutcome (fun as bs => as.filterMap keep = bs) n
      (Reader.elementsWithin place comment element bound ts)
      (Reader.elementsWithin place comment' element' bound' (significant ts)) := by
  induction bound generalizing bound' ts with
  | nil =>
    obtain rfl : ts = [] := List.length_eq_zero_iff.1 (Nat.le_zero.1 hbound)
    rw [significant_nil, elementsWithin_nil, elementsWithin_nil]
    exact .refused _ []
  | cons l bound ih =>
    cases ts with
    | nil =>
      rw [significant_nil, elementsWithin_nil, elementsWithin_nil]
      exact .refused _ []
    | cons t ts =>
      have hbound : ts.length ≤ bound.length := Nat.le_of_succ_le_succ hbound
      by_cases ht : t.token.isComment = true
      · -- The comment is an element of the first run only.
        obtain ⟨text, htext⟩ := Token.exists_comment? ht
        rw [significant_comment ht] at hbound' hts ⊢
        rw [elementsWithin_comment htext]
        refine (ih bound' ts hbound hbound' hts).map_left fun as bs h => ?_
        rw [List.filterMap_cons_none (hcomment text)]
        exact h
      · have ht : t.token.isComment = false := by simpa using ht
        rw [significant_cons ht] at hbound' hts ⊢
        obtain ⟨l', bound', rfl⟩ := List.exists_cons_of_length_pos (l := bound')
          (Nat.lt_of_lt_of_le (Nat.zero_lt_succ _) hbound')
        have hbound' : (significant ts).length ≤ bound'.length := Nat.le_of_succ_le_succ hbound'
        rw [elementsWithin_cons ht, elementsWithin_cons ht]
        by_cases hbrace : t.token = .mark .rightBrace
        · rw [if_pos hbrace, if_pos hbrace]
          exact .taken rfl (Nat.le_of_succ_le hts)
        by_cases hsemi : t.token = .mark .semi
        · rw [if_neg hbrace, if_neg hbrace, if_pos hsemi, if_pos hsemi]
          exact ih bound' ts hbound hbound' (Nat.le_of_succ_le hts)
        rw [if_neg hbrace, if_neg hbrace, if_neg hsemi, if_neg hsemi]
        have hfirst := helement (significant ts).length hts (t :: ts)
          (by rw [significant_cons ht]; rfl)
        rw [significant_cons ht] at hfirst
        refine hfirst.bind fun a b rest hread hab hrest => ?_
        have hshorter := length_le_of_taken ht (hfront _ _ _ hread) hrest
        have hthen := ih bound' rest (hshorter.trans hbound) (hrest.trans hbound')
          (hrest.trans (Nat.le_of_succ_le hts))
        refine hthen.bind fun as bs rest _ has hrest => .taken ?_ hrest
        rw [List.filterMap_cons_some hab, has]

theorem elements (hcomment : ∀ text, keep (comment text) = none) (hfront : TakesFront element)
    (helement : ∀ m < n, Agrees (m + 1) m (fun a b => keep a = some b) element element') :
    Agrees n n (fun as bs => as.filterMap keep = bs) (Reader.elements place comment element)
      (Reader.elements place comment' element') :=
  fun ts hts => elementsWithin hcomment hfront helement ts (significant ts) ts (Nat.le_refl _)
    (Nat.le_refl _) hts

/-- The elements of a body between braces. -/
theorem body (hcomment : ∀ text, keep (comment text) = none) (hfront : TakesFront element)
    (helement : ∀ m < n, Agrees (m + 1) m (fun a b => keep a = some b) element element') :
    Agrees n (n - 1) (fun as bs => as.filterMap keep = bs) (Reader.body place comment element)
      (Reader.body place comment' element') :=
  Blind.bind (Blind.expect _) fun _ =>
    elements hcomment hfront fun m hm => helement m (Nat.lt_of_lt_of_le hm (Nat.sub_le n 1))

end Agrees
end

/-! ## Enums and services -/

namespace Agrees

theorem enumElement : Agrees (n + 1) n (fun a b => a.uncommented? = some b) Reader.enumElement
    Reader.enumElement := by
  refine Blind.bind (Blind.lookahead 2) fun start => .ite ?_ (.ite ?_ ?_)
  · exact Blind.bind Blind.optionDecl fun decl => .pure rfl
  · refine Blind.bind Blind.advance fun _ => Blind.bind Blind.reservedItems fun items => ?_
    exact Blind.bind (Blind.expect _) fun _ => .mono (.pure rfl) (Nat.sub_le n 1)
  · refine Blind.bind Blind.ident fun name => Blind.bind (Blind.expect _) fun _ => ?_
    refine Blind.bind Blind.integer fun number => Blind.bind Blind.bracketedOptions fun _ => ?_
    exact Blind.bind (Blind.expect _) fun _ => .mono (.pure rfl) (by omega)

theorem enumDecl : Agrees n (n - 1) (fun a b => a.uncommented = b) Reader.enumDecl
    Reader.enumDecl := by
  refine Blind.bind Blind.line fun line => Blind.bind (Blind.expectKeyword _) fun _ => ?_
  refine Blind.bind Blind.ident fun name => ?_
  refine (body (fun _ => rfl) .enumElement fun m _ => enumElement).bind fun as bs h => ?_
  refine .mono (.pure ?_) (by omega)
  rw [EnumDecl.uncommented, h]

theorem rpcOptions : Blind n n Reader.rpcOptions := by
  refine Blind.bind (Blind.eat _) fun brace => .ite ?_ ?_
  · -- The body of a method keeps no comments, so its elements are read as those of any other body.
    have hitem (m : Nat) : Agrees (m + 1) m (fun a b => a.map some = some b)
        (some <$> Reader.optionDecl) (some <$> Reader.optionDecl) :=
      Blind.bind Blind.optionDecl fun decl => .pure rfl
    refine (elements (fun _ => rfl) (.map .optionDecl some) fun m _ => hitem m).bind
      fun as bs h => ?_
    refine Blind.bind (Blind.eat _) fun _ => .pure ?_
    subst h
    rw [List.filterMap_filterMap]
    congr 1
    funext a
    cases a <;> rfl
  · exact Blind.bind (Blind.expect _) fun _ => .mono (.pure rfl) (Nat.sub_le n 1)

theorem rpc : Blind n (n - 1) Reader.rpc := by
  refine Blind.bind Blind.line fun line => Blind.bind (Blind.expectKeyword _) fun _ => ?_
  refine Blind.bind Blind.ident fun name => Blind.bind Blind.rpcType fun request => ?_
  refine Blind.bind (Blind.expectKeyword _) fun _ => Blind.bind Blind.rpcType fun response => ?_
  exact Blind.bind rpcOptions fun options => .mono (.pure rfl) (by omega)

theorem serviceElement : Agrees (n + 1) n (fun a b => a.uncommented? = some b)
    Reader.serviceElement Reader.serviceElement := by
  refine Blind.bind (Blind.atKeyword _) fun isOption => .ite ?_ ?_
  · exact Blind.bind Blind.optionDecl fun decl => .pure rfl
  · refine Blind.bind (Blind.atKeyword _) fun isRpc => .ite ?_ (.refuseNext _)
    exact Blind.bind rpc fun method => .pure rfl

theorem service : Agrees n (n - 1) (fun a b => a.uncommented = b) Reader.service
    Reader.service := by
  refine Blind.bind Blind.line fun line => Blind.bind (Blind.expectKeyword _) fun _ => ?_
  refine Blind.bind Blind.ident fun name => ?_
  refine (body (fun _ => rfl) .serviceElement fun m _ => serviceElement).bind fun as bs h => ?_
  refine .mono (.pure ?_) (by omega)
  rw [Service.uncommented, h]

/-! ## Messages -/

section

variable {element element' : Reader MessageElement}

theorem groupAfterLabel (hfront : TakesFront element)
    (helement : ∀ m < n, Agrees (m + 1) m (fun a b => a.uncommented? = some b) element element') :
    Agrees (n + 1) n (fun a b => (a.1, a.2.1, elementsUncommented a.2.2) = b)
      (Reader.groupAfterLabel element) (Reader.groupAfterLabel element') := by
  refine Blind.bind (Blind.expectKeyword _) fun _ => Blind.bind Blind.ident fun name => ?_
  refine Blind.bind (Blind.expect _) fun _ => Blind.bind Blind.fieldNumber fun number => ?_
  refine Blind.bind Blind.bracketedOptions fun _ => ?_
  refine (body (fun _ => rfl) hfront fun m hm => helement m (by omega)).bind fun as bs h => ?_
  refine .mono (.pure ?_) (by omega)
  rw [elementsUncommented_eq_filterMap, h]

/-- What follows the label of a member: a group or a field. -/
theorem groupOrField {group : FieldLabel → Nat → String × UInt32 × List MessageElement → α}
    {field : Field → α} {keep : α → Option β}
    {group' : FieldLabel → Nat → String × UInt32 × List MessageElement → β} {field' : Field → β}
    (hgroup : ∀ label line name number elements,
      keep (group label line (name, number, elements)) =
        some (group' label line (name, number, elementsUncommented elements)))
    (hfield : ∀ f, keep (field f) = some (field' f)) (hfront : TakesFront element)
    (helement : ∀ m < n, Agrees (m + 1) m (fun a b => a.uncommented? = some b) element element') :
    Agrees (n + 1) n (fun a b => keep a = some b)
      (do
        let line ← Reader.line
        let label ← Reader.fieldLabel
        if opensGroup (← lookahead 3) then
          return group label line (← Reader.groupAfterLabel element)
        else
          return field (← Reader.fieldAfterLabel label line))
      (do
        let line ← Reader.line
        let label ← Reader.fieldLabel
        if opensGroup (← lookahead 3) then
          return group' label line (← Reader.groupAfterLabel element')
        else
          return field' (← Reader.fieldAfterLabel label line)) := by
  refine Blind.bind Blind.line fun line => Blind.bind Blind.fieldLabel fun label => ?_
  refine Blind.bind (Blind.lookahead 3) fun start => .ite ?_ ?_
  · refine (groupAfterLabel hfront helement).bind fun a b h => .pure ?_
    subst h
    exact hgroup ..
  · exact Blind.bind (Blind.fieldAfterLabel label line) fun f => .pure (hfield f)

theorem oneofElement (hfront : TakesFront element)
    (helement : ∀ m < n, Agrees (m + 1) m (fun a b => a.uncommented? = some b) element element') :
    Agrees (n + 1) n (fun a b => a.uncommented? = some b) (Reader.oneofElement element)
      (Reader.oneofElement element') := by
  refine Blind.bind (Blind.lookahead 4) fun start => .ite ?_ ?_
  · refine Blind.bind Blind.optionDecl fun decl => .pure ?_
    rw [OneofElement.uncommented?]
  · refine groupOrField (fun label line name number elements => ?_) (fun f => ?_) hfront helement
    · rw [OneofElement.uncommented?]
    · rw [OneofElement.uncommented?]

theorem extendDecl (hfront : TakesFront element)
    (helement : ∀ m < n, Agrees (m + 1) m (fun a b => a.uncommented? = some b) element element') :
    Agrees (n + 1) n (fun a b => a.uncommented = b) (Reader.extendDecl element)
      (Reader.extendDecl element') := by
  refine Blind.bind Blind.line fun line => Blind.bind (Blind.expectKeyword _) fun _ => ?_
  refine Blind.bind Blind.dottedName fun target => ?_
  refine (body (fun _ => rfl) hfront fun m hm => helement m (by omega)).bind fun as bs h => ?_
  refine .mono (.pure ?_) (by omega)
  rw [Extend.uncommented, h]

theorem messageDecl (hfront : TakesFront element)
    (helement : ∀ m < n, Agrees (m + 1) m (fun a b => a.uncommented? = some b) element element') :
    Agrees (n + 1) n (fun a b => a.uncommented = b) (Reader.messageDecl element)
      (Reader.messageDecl element') := by
  refine Blind.bind Blind.line fun line => Blind.bind (Blind.expectKeyword _) fun _ => ?_
  refine Blind.bind Blind.ident fun name => ?_
  refine (body (fun _ => rfl) hfront fun m hm => helement m (by omega)).bind fun as bs h => ?_
  refine .mono (.pure ?_) (by omega)
  rw [Message.uncommented, h]

/-- An element of a message body is read alike if the elements of its own bodies are. -/
theorem messageElementWith (hfront : TakesFront element)
    (helement : ∀ m < n, Agrees (m + 1) m (fun a b => a.uncommented? = some b) element element') :
    Agrees (n + 1) n (fun a b => a.uncommented? = some b) (Reader.messageElementWith element)
      (Reader.messageElementWith element') := by
  refine Blind.bind (Blind.lookahead 4) fun start => ?_
  dsimp only
  refine .ite ?message (.ite ?enum (.ite ?oneof (Blind.bind Blind.atExtend fun extension =>
    .ite ?extend (.ite ?option (.ite ?reserved (.ite ?extensions (.ite ?map ?member)))))))
  case message =>
    refine (messageDecl hfront helement).bind fun a b h => .pure ?_
    subst h
    rw [MessageElement.uncommented?, elementsUncommented_eq_filterMap, Message.uncommented]
  case enum =>
    refine enumDecl.bind fun a b h => .pure ?_
    rw [MessageElement.uncommented?, h]
  case oneof =>
    refine Blind.bind (Blind.expectKeyword _) fun _ => Blind.bind Blind.ident fun name => ?_
    have hmember (m : Nat) (hm : m < n - 1) := oneofElement (n := m) hfront
      fun m' hm' => helement m' (by omega)
    refine (body (fun _ => by rw [OneofElement.uncommented?]) hfront.oneofElement hmember).bind
      fun as bs h => ?_
    refine .mono (.pure ?_) (by omega)
    rw [MessageElement.uncommented?, membersUncommented_eq_filterMap, h]
  case extend =>
    refine (extendDecl hfront helement).bind fun a b h => .pure ?_
    subst h
    rw [MessageElement.uncommented?, elementsUncommented_eq_filterMap, Extend.uncommented]
  case option =>
    refine Blind.bind Blind.optionDecl fun decl => .pure ?_
    rw [MessageElement.uncommented?]
  case reserved =>
    refine Blind.bind Blind.advance fun _ => Blind.bind Blind.reservedItems fun items => ?_
    refine Blind.bind (Blind.expect _) fun _ => .mono (.pure ?_) (Nat.sub_le n 1)
    rw [MessageElement.uncommented?]
  case extensions =>
    refine Blind.bind Blind.advance fun _ => Blind.bind Blind.reservedItems fun items => ?_
    refine Blind.bind Blind.bracketedOptions fun _ => Blind.bind (Blind.expect _) fun _ => ?_
    refine .mono (.pure ?_) (Nat.sub_le n 1)
    rw [MessageElement.uncommented?]
  case map =>
    refine Blind.bind Blind.mapField fun field => .pure ?_
    rw [MessageElement.uncommented?]
  case member =>
    refine groupOrField (fun label line name number elements => ?_) (fun f => ?_) hfront helement
    · rw [MessageElement.uncommented?]
    · rw [MessageElement.uncommented?]

end

/-- The elements of message bodies, read within any two depths that are large enough. -/
theorem messageElement {depth depth' : Nat} (hdepth : n < depth) (hdepth' : n < depth') :
    Agrees (n + 1) n (fun a b => a.uncommented? = some b) (Reader.messageElement depth)
      (Reader.messageElement depth') := by
  induction depth generalizing n depth' with
  | zero => cases hdepth
  | succ depth ih =>
    have hpos : depth' ≠ 0 := Nat.ne_of_gt (Nat.zero_lt_of_lt hdepth')
    obtain ⟨depth', rfl⟩ := Nat.exists_eq_add_one_of_ne_zero hpos
    refine messageElementWith (.messageElement depth) fun m hm => ?_
    exact ih (by omega) (by omega)

/-! ## Files -/

section

variable {depth depth' : Nat}

theorem statementOf (hdepth : n ≤ depth) (hdepth' : n ≤ depth') (keyword : String) :
    Agrees (n + 1) n (fun a b => a.uncommented? = some b) (Reader.statementOf depth keyword)
      (Reader.statementOf depth' keyword) := by
  have helement (m : Nat) (hm : m < n) :
      Agrees (m + 1) m (fun a b => a.uncommented? = some b) (Reader.messageElement depth)
        (Reader.messageElement depth') :=
    messageElement (Nat.lt_of_lt_of_le hm hdepth) (Nat.lt_of_lt_of_le hm hdepth')
  unfold Reader.statementOf
  split
  · exact Blind.bind Blind.numberedDialect fun d => .pure rfl
  · refine Blind.bind Blind.advance fun _ => Blind.bind Blind.dialectValue fun name => .pure rfl
  · refine Blind.bind Blind.advance fun _ => Blind.bind Blind.dottedName fun name => ?_
    exact Blind.bind (Blind.expect _) fun _ => .mono (.pure rfl) (by omega)
  · exact Blind.bind Blind.importDecl fun decl => .pure rfl
  · exact Blind.bind Blind.optionDecl fun decl => .pure rfl
  · refine (messageDecl (.messageElement depth) helement).bind fun a b h => .pure ?_
    rw [Statement.uncommented?, FileElement.uncommented?, h]
    rfl
  · refine enumDecl.bind fun a b h => .pure ?_
    rw [Statement.uncommented?, FileElement.uncommented?, h]
    rfl
  · refine service.bind fun a b h => .pure ?_
    rw [Statement.uncommented?, FileElement.uncommented?, h]
    rfl
  · refine (extendDecl (.messageElement depth) helement).bind fun a b h => .pure ?_
    rw [Statement.uncommented?, FileElement.uncommented?, h]
    rfl
  · exact .refuse _

/-- What one step of a file answers without the comments: the statements that are left of it. -/
def Survive (answer answer' : Option (List Statement)) : Prop :=
  ∃ ss, answer = some ss ∧ answer' = some (ss.filterMap Statement.uncommented?)

/-- A statement of a file that starts with a significant lexeme. -/
theorem statement?_cons {t : Lexeme} {ts : List Lexeme} (ht : t.token.isComment = false)
    (hdepth : (significant ts).length ≤ depth) (hdepth' : (significant ts).length ≤ depth') :
    SameOutcome Survive (significant ts).length (Reader.statement? depth (t :: ts))
      (Reader.statement? depth' (t :: significant ts)) := by
  have hrefused (complaint : Complaint) :
      SameOutcome Survive (significant ts).length (.error ⟨complaint, t :: ts⟩)
        (.error ⟨complaint, t :: significant ts⟩) := by
    rw [← significant_cons ht]
    exact .refused complaint (t :: ts)
  have hkeyword (keyword : String) := statementOf hdepth hdepth' keyword (t :: ts)
    (by rw [significant_cons ht]; rfl)
  rw [significant_cons ht] at hkeyword
  obtain ⟨token, span, line⟩ := t
  cases token with
  | lineComment | blockComment => cases ht
  | mark mark =>
    cases mark with
    | semi => exact .taken ⟨[], rfl, rfl⟩ (Nat.le_refl _)
    | _ => exact hrefused _
  | ident keyword =>
    refine (hkeyword keyword).bind fun a b rest _ hab hrest => .taken ⟨[a], rfl, ?_⟩ hrest
    rw [List.filterMap_cons_some hab, List.filterMap_nil]
  | int | float | str => exact hrefused _

theorem repeatWithin_statement?_nil (bound : List Lexeme) :
    repeatWithin (Reader.statement? depth) bound [] = .ok ([], []) := by
  cases bound <;> rfl

theorem repeatWithin_statement?_comment {t : Lexeme} {text : String}
    (ht : t.token.comment? = some text) (l : Lexeme) (bound ts : List Lexeme) :
    repeatWithin (Reader.statement? depth) (l :: bound) (t :: ts) =
      (do
        let rest ← repeatWithin (Reader.statement? depth) bound
        return [.element (.comment text)] :: rest : Reader (List (List Statement))) ts := by
  obtain ⟨token, span, line⟩ := t
  cases token with
  | lineComment text | blockComment text =>
    cases ht
    rfl
  | _ => cases ht

/-- The statements of a file: the comments between them are not kept. -/
theorem repeatWithin_statement? (bound bound' ts : List Lexeme) (hbound : ts.length ≤ bound.length)
    (hbound' : (significant ts).length ≤ bound'.length) (hdepth : (significant ts).length ≤ depth)
    (hdepth' : (significant ts).length ≤ depth') :
    SameOutcome (fun groups groups' =>
        groups.flatten.filterMap Statement.uncommented? = groups'.flatten)
      (significant ts).length (repeatWithin (Reader.statement? depth) bound ts)
      (repeatWithin (Reader.statement? depth') bound' (significant ts)) := by
  induction bound generalizing bound' ts with
  | nil =>
    obtain rfl : ts = [] := List.length_eq_zero_iff.1 (Nat.le_zero.1 hbound)
    rw [significant_nil, repeatWithin_statement?_nil, repeatWithin_statement?_nil]
    exact .taken rfl (Nat.le_refl _)
  | cons l bound ih =>
    cases ts with
    | nil =>
      rw [significant_nil, repeatWithin_statement?_nil, repeatWithin_statement?_nil]
      exact .taken rfl (Nat.le_refl _)
    | cons t ts =>
      have hbound : ts.length ≤ bound.length := Nat.le_of_succ_le_succ hbound
      by_cases ht : t.token.isComment = true
      · obtain ⟨text, htext⟩ := Token.exists_comment? ht
        rw [significant_comment ht] at hbound' hdepth hdepth' ⊢
        rw [repeatWithin_statement?_comment htext]
        refine (ih bound' ts hbound hbound' hdepth hdepth').map_left fun groups groups' h => ?_
        rw [List.flatten_cons, List.filterMap_append, h]
        rfl
      · have ht : t.token.isComment = false := by simpa using ht
        rw [significant_cons ht] at hbound' hdepth hdepth' ⊢
        obtain ⟨l', bound', rfl⟩ := List.exists_cons_of_length_pos (l := bound')
          (Nat.lt_of_lt_of_le (Nat.zero_lt_succ _) hbound')
        have hbound' : (significant ts).length ≤ bound'.length := Nat.le_of_succ_le_succ hbound'
        have hdepth := Nat.le_of_succ_le hdepth
        have hdepth' := Nat.le_of_succ_le hdepth'
        refine (statement?_cons ht hdepth hdepth').bind fun a b rest hread hab hrest => ?_
        obtain ⟨ss, rfl, rfl⟩ := hab
        have hshorter := length_le_of_taken ht (TakesFront.statement? depth _ _ _ hread) hrest
        have hthen := ih bound' rest (hshorter.trans hbound) (hrest.trans hbound')
          (hrest.trans hdepth) (hrest.trans hdepth')
        refine hthen.bind fun groups groups' rest' _ h hrest' => .taken ?_ ?_
        · rw [List.flatten_cons, List.filterMap_append, h, List.flatten_cons]
        · exact hrest'.trans (hrest.trans (Nat.le_succ _))

/-- Each run reads its text with the bounds that the text itself gives. -/
theorem statements (ts : List Lexeme) :
    SameOutcome (fun ss ss' => ss.filterMap Statement.uncommented? = ss') (significant ts).length
      (Reader.statements ts) (Reader.statements (significant ts)) := by
  have hgroups := repeatWithin_statement? ts (significant ts) ts (Nat.le_refl _) (Nat.le_refl _)
    (length_significant_le ts) (Nat.le_refl (significant ts).length)
  exact hgroups.bind fun groups groups' rest _ h hrest => .taken h hrest

end

end Agrees
end Reader

/-! ## Whole texts -/

/-- Reads the lexemes of a schema text. The text gives the line at which it ends. -/
def parseLexemes (path source : String) (lexemes : List Lexeme) : Except ParseError SchemaFile :=
  match Reader.statements lexemes with
  | .error refusal =>
    .error ⟨refusal.complaint, path, (nextLine? refusal.rest).getD (endLine source)⟩
  | .ok (statements, _) => .ok (SchemaFile.ofStatements statements)

/-- Reading a text is reading its lexemes. -/
theorem parseSchema_eq_parseLexemes {path source : String} {lexemes : List Lexeme}
    (h : tokenize source = .ok lexemes) :
    parseSchema path source = parseLexemes path source lexemes := by
  unfold parseSchema
  rw [h]
  rfl

/-- The comments among lexemes change nothing but the comments of the file that is read. -/
theorem parseLexemes_significant (path source : String) (lexemes : List Lexeme) :
    parseLexemes path source (significant lexemes) =
      (parseLexemes path source lexemes).map SchemaFile.uncommented := by
  have h := Reader.Agrees.statements lexemes
  unfold parseLexemes
  generalize Reader.statements lexemes = p at h
  generalize Reader.statements (significant lexemes) = q at h
  cases h with
  | taken related _ =>
    subst related
    exact congrArg Except.ok (SchemaFile.uncommented_ofStatements _).symm
  | refused complaint rest =>
    simp only [nextLine?_significant]
    rfl

/--
**Comments are transparent.** Whatever text has lexemes: reading them without the comments, their
places in the text kept, gives the same complaint at the same line, or the file that is read from
all of them, without the comments among its declarations and in the bodies of these.
-/
theorem parseLexemes_without_comments (path : String) {source : String} {lexemes : List Lexeme}
    (h : tokenize source = .ok lexemes) :
    parseLexemes path source (significant lexemes) =
      (parseSchema path source).map SchemaFile.uncommented := by
  rw [parseSchema_eq_parseLexemes h]
  exact parseLexemes_significant path source lexemes

/-- An enum with a comment inside its head, two in its body and one inside a value. -/
def commentedText : String :=
  "enum /* a */ E \x7b // b\n /* c */ X = /* d */ 0; \x7d"

theorem parseLexemes_commentedText : ∃ lexemes, tokenize commentedText = .ok lexemes ∧
    lexemes.length = 12 ∧ (significant lexemes).length = 8 ∧
    (parseSchema "e.proto" commentedText).map SchemaFile.enums =
      .ok [⟨"E", [.comment "b", .comment "c", .value ⟨"X", 0⟩], 1⟩] ∧
    parseLexemes "e.proto" commentedText (significant lexemes) =
      (parseSchema "e.proto" commentedText).map SchemaFile.uncommented :=
  ⟨(tokenize commentedText).toOption.getD [], by decide +kernel, by decide +kernel,
    by decide +kernel, by decide +kernel, parseLexemes_without_comments _ (by decide +kernel)⟩

end SchemaGraph
