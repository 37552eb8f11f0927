import SchemaGraph.Proofs.Schema.Reading
/-!
# Reading the elements of message bodies

No keyword is reserved, so what an element of a message body is turns on the tokens with which it
starts. `StartsMember` says that they start a field or a group and nothing else; the elements of the
other kinds pass the tests before their own because they start with another keyword. From the lemma
for each kind the mutual theorems `messageElement` and `oneofElement` follow: an element is read
from its words.
-/

namespace SchemaGraph

variable {α β : Type} {ws mid rest : List Word}

/-! ## How members of bodies start -/

/-- The keywords of labels. -/
def labelWords : List String :=
  ["repeated", "optional", "required"]

/-- The keywords that can start an element of a message body other than a field or a group. -/
def elementKeywords : List String :=
  ["message", "enum", "oneof", "extend", "option", "reserved", "extensions", "map"]

theorem firstComponent_eq {name c : String} {ts : List Token}
    (h : dottedTokens name = .ident c :: ts) : firstComponent name = c := by
  unfold dottedTokens at h
  unfold firstComponent
  split at h
  · cases h
  · rename_i first others hsplit
    rw [hsplit, List.headD_cons]
    unfold componentTokens at h
    split at h
    · cases others <;> simp at h
    · exact Token.ident.inj (List.cons.inj h).1

/-- How the tokens of a type name start: with a dot, or with its first component, which is the whole
name if nothing follows. -/
theorem dottedTokens_cases {name : String} (h : isTypeName name = true) :
    (∃ first others, dottedTokens name = .mark .dot :: .ident first :: furtherTokens others) ∨
      ∃ others, dottedTokens name = .ident (firstComponent name) :: furtherTokens others ∧
        (others = [] → firstComponent name = name) := by
  obtain ⟨absolute, first, others, -, hname, htokens⟩ := exists_components h
  cases absolute with
  | true => exact .inl ⟨first, others, htokens⟩
  | false =>
    have hfirst := firstComponent_eq htokens
    refine .inr ⟨others, hfirst ▸ htokens, ?_⟩
    rintro rfl
    rw [hfirst, hname]
    simp [Name.join]

theorem firstComponent_of_head? {name k : String} (h : isTypeName name = true)
    (hk : (tokensOf (.dotted name :: ws)).head? = some (.ident k)) : firstComponent name = k := by
  rcases dottedTokens_cases h with ⟨_, _, htokens⟩ | ⟨_, htokens, -⟩
  · simp [Word.tokens, htokens] at hk
  · simpa [Word.tokens, htokens] using hk

theorem startsElement_dotted {name : String} (h : isTypeName name = true) (ws : List Word) :
    StartsElement (.dotted name :: ws) := by
  rcases dottedTokens_cases h with ⟨_, _, htokens⟩ | ⟨_, htokens, -⟩
  · exact .inr (by simp [Word.tokens, htokens])
  · exact .inl ⟨firstComponent name, by simp [Word.tokens, htokens]⟩

namespace Reader

theorem opensDeclaration_eq_false {keyword : String} {ts : List Token}
    (h : ts.head? ≠ some (.ident keyword)) : opensDeclaration keyword ts = false := by
  unfold opensDeclaration
  split
  · rename_i word _ _
    exact beq_eq_false_iff_ne.2 fun heq => h (by rw [heq]; rfl)
  · rfl

theorem opensExtend_eq_false {ts : List Token} (h : ts.head? ≠ some (.ident "extend")) :
    opensExtend ts = false := by
  unfold opensExtend
  split
  · exact absurd rfl h
  · exact absurd rfl h
  · rfl

/-- After a dotted name only a brace makes an extension. -/
theorem isNameThenBrace_components (first : String) (others : List String) {t : Token}
    (ht : t ≠ .mark .dot) (ts : List Token) :
    isNameThenBrace (.ident first :: (furtherTokens others ++ t :: ts)) =
      decide (t = .mark .leftBrace) := by
  induction others generalizing first with
  | nil =>
    cases t with
    | mark m => cases m <;> first | rfl | exact absurd rfl ht
    | _ => rfl
  | cons second others ih => exact ih second

/-- The tokens of an element of a message body that can only be a field or a group. -/
structure StartsMember (ts : List Token) : Prop where
  opens : ∀ keyword ∈ ["message", "enum", "oneof"], opensDeclaration keyword (ts.take 4) = false
  extend : opensExtend ts = false
  statement : ∀ keyword ∈ ["option", "reserved", "extensions"], ts.head? ≠ some (.ident keyword)
  map : ts.take 2 ≠ [.ident "map", .mark .leftAngle]

theorem StartsMember.of_head {ts : List Token}
    (h : ∀ keyword ∈ elementKeywords, ts.head? ≠ some (.ident keyword)) : StartsMember ts where
  opens keyword hkeyword := by
    refine opensDeclaration_eq_false ?_
    rw [List.head?_take, if_neg (by decide)]
    exact h keyword (List.mem_append_left _ hkeyword)
  extend := opensExtend_eq_false (h "extend" (by decide))
  statement keyword hkeyword := h keyword (by revert keyword; decide)
  map hmap := by
    have hhead := congrArg List.head? hmap
    rw [List.head?_take, if_neg (by decide)] at hhead
    exact h "map" (by decide) hhead

/-- A field without a label starts no other element, although its type may start with one of their
keywords: `message`, `enum`, `oneof`, `extend` or `map`. -/
theorem StartsMember.field {typeName name : String} (htype : isTypeName typeName = true)
    (hfirst : firstComponent typeName ∉ statementWords) (ws : List Word) :
    StartsMember (tokensOf (.dotted typeName :: .ident name :: .mark .equals :: ws)) := by
  have htokens : tokensOf (.dotted typeName :: .ident name :: .mark .equals :: ws) =
      dottedTokens typeName ++ .ident name :: .mark .equals :: tokensOf ws := rfl
  rcases dottedTokens_cases htype with ⟨first, others, hdotted⟩ | ⟨others, hdotted, -⟩
  · refine .of_head fun keyword _ => ?_
    rw [htokens, hdotted]
    simp
  · rw [htokens, hdotted]
    constructor
    -- After the type comes a name and no brace, and inside the type a dot.
    · intro keyword _
      cases others <;> rfl
    · by_cases hextend : firstComponent typeName = "extend"
      · rw [hextend]
        cases others with
        | nil => rfl
        | cons second others => exact isNameThenBrace_components second others (by simp) _
      · exact opensExtend_eq_false (by simpa using hextend)
    · rintro keyword hkeyword heq
      have hall : ∀ k ∈ ["option", "reserved", "extensions"], k ∈ statementWords := by decide
      have hmem := hall keyword hkeyword
      rw [← Token.ident.inj (Option.some.inj heq)] at hmem
      exact hfirst hmem
    · cases others <;> simp [furtherTokens]

theorem opensGroup_field {typeName name : String} (htype : isTypeName typeName = true)
    (hgroup : typeName ≠ "group") (ws : List Word) :
    opensGroup ((tokensOf (.dotted typeName :: .ident name :: .mark .equals :: ws)).take 3) =
      false := by
  have htokens : tokensOf (.dotted typeName :: .ident name :: .mark .equals :: ws) =
      dottedTokens typeName ++ .ident name :: .mark .equals :: tokensOf ws := rfl
  rcases dottedTokens_cases htype with ⟨first, others, hdotted⟩ | ⟨others, hdotted, hwhole⟩
  · rw [htokens, hdotted]
    rfl
  · rw [htokens, hdotted]
    cases others with
    | nil =>
      rw [hwhole rfl]
      unfold opensGroup
      split
      · rename_i heq
        exact absurd (Token.ident.inj (List.cons.inj heq).1) hgroup
      · rfl
    | cons second others =>
      unfold opensGroup
      split
      · rename_i heq
        cases (List.cons.inj (List.cons.inj heq).2).1
      · rfl

namespace Takes

/-! ## Fields and groups -/

/-- A label is read where a type follows it, and none where no label starts. -/
theorem fieldLabel {label : FieldLabel} (hstart : StartsElement ws)
    (hno : label = .unlabelled → ∀ k ∈ labelWords, (tokensOf ws).head? ≠ some (.ident k)) :
    Takes Reader.fieldLabel (label.words ++ ws) label ws := by
  have hlabel (l : FieldLabel) (hl : l = label) : Takes (do
      if l ≠ .unlabelled then Reader.advance
      return l) (label.words ++ ws) label ws := by
    subst hl
    cases l with
    | unlabelled => exact neg (not_not_intro rfl) (pure rfl)
    | optional | required | repeated => exact pos (by decide) (bind (advance rfl) (pure rfl))
  refine bind (lookahead 2) (hlabel _ ?_)
  cases label with
  | unlabelled =>
    rw [FieldLabel.words, if_pos rfl, List.nil_append]
    cases htokens : tokensOf ws with
    | nil => rfl
    | cons t ts =>
      cases t with
      | ident word =>
        have hword : ∀ k ∈ labelWords, word ≠ k := by
          intro k hk heq
          exact hno rfl k hk (by rw [htokens, heq]; rfl)
        simp [hword "repeated" (by decide), hword "optional" (by decide),
          hword "required" (by decide)]
      | _ => rfl
  | optional | required | repeated =>
    rcases hstart with ⟨s, hs⟩ | hs
    · obtain ⟨ts, hts⟩ := List.head?_eq_some_iff.1 hs
      simp [FieldLabel.words, Word.tokens, FieldLabel.text, hts]
    · obtain ⟨ts, hts⟩ := List.head?_eq_some_iff.1 hs
      simp [FieldLabel.words, Word.tokens, FieldLabel.text, hts]

/-- What a body does with an element that can only be a field or a group. -/
def groupOrField (element : Reader MessageElement)
    (group : FieldLabel → String → UInt32 → List MessageElement → Nat → α) (field : Field → α) :
    Reader α := do
  let line ← Reader.line
  let label ← Reader.fieldLabel
  if opensGroup (← Reader.lookahead 3) then
    let (name, number, elements) ← Reader.groupAfterLabel element
    return group label name number elements line
  else
    return field (← Reader.fieldAfterLabel label line)

theorem fieldAfterLabel {label : FieldLabel} {typeName name : String} {number : UInt32}
    {line : Nat} (h : isTypeName typeName = true) :
    Takes (Reader.fieldAfterLabel label line) (.dotted typeName :: .ident name :: .mark .equals ::
      .number number.toNat :: .mark .semi :: rest) ⟨label, typeName, name, number, none, line⟩
      rest :=
  bind (dottedName h (by simp [Word.tokens])) (bind ident (bind expect (bind fieldNumber
    (bind (bracketedOptions (by simp [Word.tokens])) (bind expect (pure rfl))))))

theorem atExtend {b : Bool} (h : opensExtend (tokensOf ws) = b) :
    Takes Reader.atExtend ws b ws := by
  by_cases hhead : (tokensOf ws).head? = some (.ident "extend")
  · exact bind (atKeyword hhead) (pos rfl (bind allAhead (pure h)))
  · have hfalse : false = b := (opensExtend_eq_false hhead).symm.trans h
    exact bind (atKeyword_not hhead) (neg (by decide) (pure hfalse))

theorem atExtend_not {keyword : String} (h : keyword ≠ "extend") :
    Takes Reader.atExtend (.ident keyword :: ws) false (.ident keyword :: ws) :=
  atExtend (opensExtend_eq_false (by simpa [Word.tokens] using h))

section

variable {element : Reader MessageElement}
  {group : FieldLabel → String → UInt32 → List MessageElement → Nat → α} {field : Field → α}

theorem groupOrField_field {f : Field} (h : f.isPrintable = true) :
    Takes (groupOrField element group field) (f.words ++ rest) (field f.onLineOne) rest := by
  simp only [Field.isPrintable, Bool.and_eq_true, bne_iff_ne, Option.isNone_iff_eq_none] at h
  obtain ⟨⟨⟨⟨htype, hname⟩, hoptions⟩, hgroup⟩, hlabel⟩ := h
  have hno (hunlabelled : f.label = .unlabelled) (ws : List Word) :
      ∀ k ∈ labelWords, (tokensOf (.dotted f.typeName :: ws)).head? ≠ some (.ident k) := by
    intro k hk hhead
    have hall : ∀ k ∈ labelWords, k ∈ statementWords := by decide
    rw [← firstComponent_of_head? htype hhead] at hk
    simp [hunlabelled, hall _ hk] at hlabel
  have hline (ws : List Word) : tokensOf (f.label.words ++ .dotted f.typeName :: ws) ≠ [] := by
    rw [tokensOf_append]
    exact List.append_ne_nil_of_right_ne_nil _ (startsElement_dotted htype ws).ne_nil
  rw [Field.words, List.append_assoc]
  refine bind (line (hline _)) (bind (fieldLabel (startsElement_dotted htype _) (hno · _))
    (bind (lookahead 3) (neg (Bool.eq_false_iff.1 (opensGroup_field htype hgroup _))
      (bind (fieldAfterLabel htype) (pure ?_)))))
  rw [← hoptions]
  rfl

theorem groupOrField_group {label : FieldLabel} {name : String} {number : UInt32}
    {inside : List Word} {elements : List MessageElement}
    (hbody : Takes (Reader.body .message .comment element) (braced inside ++ rest) elements rest) :
    Takes (groupOrField element group field) (groupWords label name number inside ++ rest)
      (group label name number elements 1) rest := by
  have hgroup : Takes (Reader.groupAfterLabel element) (.ident "group" :: .ident name ::
      .mark .equals :: .number number.toNat :: (braced inside ++ rest)) (name, number, elements)
      rest :=
    bind expectKeyword (bind ident (bind expect (bind fieldNumber
      (bind (bracketedOptions (by simp [braced, Word.tokens])) (bind hbody (pure rfl))))))
  have hno (ws : List Word) :
      ∀ k ∈ labelWords, (tokensOf (.ident "group" :: ws)).head? ≠ some (.ident k) := by
    have hall : ∀ k ∈ labelWords, "group" ≠ k := by decide
    intro k hk
    simpa [Word.tokens] using hall k hk
  rw [groupWords, List.append_assoc]
  refine bind (line (by simp [Word.tokens])) (bind (fieldLabel (.inl ⟨"group", rfl⟩) fun _ => hno _)
    (bind (lookahead 3) (pos rfl (bind hgroup (pure rfl)))))

theorem messageElementWith_member {e : MessageElement} (h : StartsMember (tokensOf ws))
    (hmember : Takes (groupOrField element .group .field) ws e rest) :
    Takes (Reader.messageElementWith element) ws e rest := by
  have hhead : ((tokensOf ws).take 4).head? = (tokensOf ws).head? := by
    rw [List.head?_take, if_neg (by decide)]
  have hopens {keyword : String} (hkeyword : keyword ∈ ["message", "enum", "oneof"]) :
      ¬ opensDeclaration keyword ((tokensOf ws).take 4) = true := by
    rw [h.opens keyword hkeyword]
    decide
  have hstatement {keyword : String} (hkeyword : keyword ∈ ["option", "reserved", "extensions"])
      {p : Prop} : ¬ (((tokensOf ws).take 4).head? = some (.ident keyword) ∧ p) := by
    rw [hhead]
    exact fun hstarts => h.statement keyword hkeyword hstarts.1
  have hmap : ¬ ((tokensOf ws).take 4).take 2 = [.ident "map", .mark .leftAngle] := by
    rw [List.take_take]
    exact h.map
  refine bind (lookahead 4) ?_
  dsimp only
  exact neg (hopens (by decide)) (neg (hopens (by decide)) (neg (hopens (by decide))
    (bind (atExtend h.extend) (neg (by decide) (neg (hstatement (by decide))
      (neg (hstatement (by decide)) (neg (hstatement (by decide)) (neg hmap hmember))))))))

theorem oneofElement_member {m : OneofElement} (h : StartsMember (tokensOf ws))
    (hmember : Takes (groupOrField element .group .field) ws m rest) :
    Takes (Reader.oneofElement element) ws m rest := by
  have hhead : ((tokensOf ws).take 4).head? = (tokensOf ws).head? := by
    rw [List.head?_take, if_neg (by decide)]
  refine bind (lookahead 4) (neg (fun hoption => ?_) hmember)
  rw [hhead] at hoption
  exact h.statement "option" (by decide) hoption.1

/-! ## Other elements of message bodies -/

theorem mapField {f : MapField} (h : f.isPrintable = true) :
    Takes Reader.mapField (f.words ++ rest) f.onLineOne rest := by
  simp only [MapField.isPrintable, Bool.and_eq_true, Option.isNone_iff_eq_none] at h
  obtain ⟨⟨⟨hkey, hvalue⟩, -⟩, hoptions⟩ := h
  refine bind (line (by simp [MapField.words, Word.tokens])) (bind expectKeyword (bind expect
    (bind (dottedName hkey (by simp [Word.tokens])) (bind expect
    (bind (dottedName hvalue (by simp [Word.tokens])) (bind expect (bind ident (bind expect
    (bind fieldNumber (bind (bracketedOptions (by simp [Word.tokens]))
    (bind expect (pure ?_))))))))))))
  rw [← hoptions]
  rfl

theorem messageDecl {name : String} {inside : List Word} {elements : List MessageElement}
    (hbody : Takes (Reader.body .message .comment element) (braced inside ++ rest) elements rest) :
    Takes (Reader.messageDecl element) (.ident "message" :: .ident name :: (braced inside ++ rest))
      ⟨name, elements, 1⟩ rest :=
  bind (line (by simp [Word.tokens])) (bind expectKeyword (bind ident (bind hbody (pure rfl))))

theorem extendDecl {target : String} {inside : List Word} {elements : List MessageElement}
    (htarget : isTypeName target = true)
    (hbody : Takes (Reader.body .message .comment element) (braced inside ++ rest) elements rest) :
    Takes (Reader.extendDecl element) (.ident "extend" :: .dotted target :: (braced inside ++ rest))
      ⟨target, elements, 1⟩ rest :=
  bind (line (by simp [Word.tokens])) (bind expectKeyword
    (bind (dottedName htarget (by simp [braced, Word.tokens])) (bind hbody (pure rfl))))

theorem opensExtend_extend {target : String} (h : isTypeName target = true) (ws : List Word) :
    opensExtend (tokensOf (.ident "extend" :: .dotted target :: .mark .leftBrace :: ws)) =
      true := by
  have htokens : tokensOf (.ident "extend" :: .dotted target :: .mark .leftBrace :: ws) =
      .ident "extend" :: (dottedTokens target ++ .mark .leftBrace :: tokensOf ws) := rfl
  have hbrace (first : String) (others : List String) :=
    isNameThenBrace_components first others (t := .mark .leftBrace) (by simp) (tokensOf ws)
  rcases dottedTokens_cases h with ⟨first, others, hdotted⟩ | ⟨others, hdotted, -⟩
  · rw [htokens, hdotted]
    exact hbrace first others
  · rw [htokens, hdotted]
    exact hbrace (firstComponent target) others

end

section

variable {keyword other : String} (hne : keyword ≠ other)
include hne

theorem opens_not :
    ¬ opensDeclaration other ((tokensOf (.ident keyword :: ws)).take 4) = true := by
  rw [opensDeclaration_eq_false]
  · decide
  · simpa [Word.tokens] using hne

theorem starts_not {p : Prop} :
    ¬ (((tokensOf (.ident keyword :: ws)).take 4).head? = some (.ident other) ∧ p) := by
  rintro ⟨hhead, -⟩
  exact hne (by simpa [Word.tokens] using hhead)

end

theorem continuesField_items {items : List ReservedItem} {keyword : String}
    (h : ReservedItem.arePrintable items = true) :
    ¬ continuesField ((tokensOf (.ident keyword ::
      (ReservedItem.statementWords items ++ rest))).take 4) = true := by
  obtain ⟨t, ts, htokens, ht⟩ := tokensOf_statementWords h
  rw [tokensOf_cons, tokensOf_append, htokens]
  rcases ht with rfl | ⟨_, rfl⟩ | ⟨_, rfl⟩ <;> simp [Word.tokens, continuesField]

/-! ## Message bodies -/

section

variable {element : Reader MessageElement}

theorem startsMember_label {label : FieldLabel} (h : label ≠ .unlabelled) :
    StartsMember (tokensOf (label.words ++ ws)) := by
  refine .of_head fun keyword hkeyword => ?_
  have hall : ∀ k ∈ elementKeywords, k ∉ labelWords := by decide
  have hnot := hall keyword hkeyword
  cases label with
  | unlabelled => exact absurd rfl h
  | optional | required | repeated =>
    rintro heq
    exact hnot (by rw [← Token.ident.inj (Option.some.inj heq)]; decide)

theorem startsMember_field {f : Field} (h : f.isPrintable = true) :
    StartsMember (tokensOf (f.words ++ rest)) := by
  simp only [Field.isPrintable, Bool.and_eq_true, Bool.or_eq_true, bne_iff_ne, Bool.not_eq_true',
    List.contains_eq_mem, decide_eq_false_iff_not] at h
  obtain ⟨⟨⟨⟨htype, -⟩, -⟩, -⟩, hlabel⟩ := h
  rw [Field.words, List.append_assoc]
  by_cases hunlabelled : f.label = .unlabelled
  · rw [hunlabelled]
    exact .field htype (hlabel.resolve_left (not_not_intro hunlabelled)) _
  · exact startsMember_label hunlabelled

theorem startsMember_group (label : FieldLabel) (name : String) (number : UInt32)
    (inside : List Word) :
    StartsMember (tokensOf (groupWords label name number inside ++ rest)) := by
  rw [groupWords, List.append_assoc]
  by_cases hunlabelled : label = .unlabelled
  · rw [hunlabelled]
    refine .of_head fun keyword hkeyword => ?_
    have hall : ∀ k ∈ elementKeywords, "group" ≠ k := by decide
    simpa [FieldLabel.words, Word.tokens] using hall keyword hkeyword
  · exact startsMember_label hunlabelled

theorem startsElement_label {label : FieldLabel} (h : StartsElement ws) :
    StartsElement (label.words ++ ws) := by
  cases label with
  | unlabelled => exact h
  | optional | required | repeated => exact .inl ⟨_, rfl⟩

theorem startsElement_field {f : Field} (h : f.isPrintable = true) : StartsElement f.words := by
  simp only [Field.isPrintable, Bool.and_eq_true] at h
  exact startsElement_label (startsElement_dotted h.1.1.1.1 _)

theorem startsElement_element {e : MessageElement} (h : e.isPrintable = true) :
    StartsElement e.words := by
  cases e with
  | option | comment => cases h
  | field f => exact startsElement_field h
  | group => exact startsElement_label (.inl ⟨_, rfl⟩)
  | map | oneof | enum | message | reserved | extensions | extend => exact .inl ⟨_, rfl⟩

theorem startsElement_member {m : OneofElement} (h : m.isPrintable = true) :
    StartsElement m.words := by
  cases m with
  | option | comment => cases h
  | field f => exact startsElement_field h
  | group => exact startsElement_label (.inl ⟨_, rfl⟩)

/-- A message body is read if its elements are. -/
theorem messageBody {es : List MessageElement} (h : elementsPrintable es = true)
    (helement : ∀ e ∈ es, ∀ left, Takes element (e.words ++ left) e.onLineOne left) :
    Takes (Reader.body .message .comment element) (braced (elementWords es) ++ rest)
      (elementsOnLineOne es) rest := by
  rw [elementsPrintable_eq_all, List.all_eq_true] at h
  rw [elementWords_eq_flatMap, elementsOnLineOne_eq_map]
  exact body (fun e he => startsElement_element (h e he)) helement

theorem messageElementWith_message {name : String} {inside : List Word}
    {elements : List MessageElement}
    (hbody : Takes (Reader.body .message .comment element) (braced inside ++ rest) elements rest) :
    Takes (Reader.messageElementWith element)
      (.ident "message" :: .ident name :: (braced inside ++ rest)) (.message name elements 1)
      rest :=
  bind (lookahead 4) (pos rfl (bind (messageDecl hbody) (pure rfl)))

theorem messageElementWith_enum {decl : EnumDecl} (h : decl.isPrintable = true) :
    Takes (Reader.messageElementWith element) (decl.words ++ rest) (.enum decl.onLineOne) rest :=
  bind (lookahead 4) (neg (opens_not (by decide)) (pos rfl (bind (enumDecl h) (pure rfl))))

theorem messageElementWith_oneof {name : String} {members : List OneofElement}
    (h : membersPrintable members = true)
    (hmember : ∀ m ∈ members, ∀ left,
      Takes (Reader.oneofElement element) (m.words ++ left) m.onLineOne left) :
    Takes (Reader.messageElementWith element)
      (.ident "oneof" :: .ident name :: (braced (memberWords members) ++ rest))
      (.oneof name (membersOnLineOne members)) rest := by
  rw [membersPrintable_eq_all, List.all_eq_true] at h
  have hbody : Takes (Reader.body .oneof .comment (Reader.oneofElement element))
      (braced (memberWords members) ++ rest) (membersOnLineOne members) rest := by
    rw [memberWords_eq_flatMap, membersOnLineOne_eq_map]
    exact body (fun m hm => startsElement_member (h m hm)) hmember
  exact bind (lookahead 4) (neg (opens_not (by decide)) (neg (opens_not (by decide))
    (pos rfl (bind expectKeyword (bind ident (bind hbody (pure rfl)))))))

theorem messageElementWith_extend {target : String} {inside : List Word}
    {elements : List MessageElement} (htarget : isTypeName target = true)
    (hbody : Takes (Reader.body .message .comment element) (braced inside ++ rest) elements rest) :
    Takes (Reader.messageElementWith element)
      (.ident "extend" :: .dotted target :: (braced inside ++ rest)) (.extend target elements 1)
      rest :=
  bind (lookahead 4) (neg (opens_not (by decide)) (neg (opens_not (by decide))
    (neg (opens_not (by decide)) (bind (atExtend (opensExtend_extend htarget _))
      (pos rfl (bind (extendDecl htarget hbody) (pure rfl)))))))

theorem messageElementWith_reserved {items : List ReservedItem}
    (h : ReservedItem.arePrintable items = true) :
    Takes (Reader.messageElementWith element)
      (.ident "reserved" :: (ReservedItem.statementWords items ++ rest)) (.reserved items) rest :=
  bind (lookahead 4) (neg (opens_not (by decide)) (neg (opens_not (by decide))
    (neg (opens_not (by decide)) (bind (atExtend_not (by decide)) (neg (by decide)
      (neg (starts_not (by decide)) (pos ⟨rfl, continuesField_items h⟩
        (bind (advance rfl) (bind (reservedItems h) (bind expect (pure rfl)))))))))))

theorem messageElementWith_extensions {items : List ReservedItem}
    (h : ReservedItem.arePrintable items = true) :
    Takes (Reader.messageElementWith element)
      (.ident "extensions" :: (ReservedItem.statementWords items ++ rest)) (.extensions items)
      rest :=
  bind (lookahead 4) (neg (opens_not (by decide)) (neg (opens_not (by decide))
    (neg (opens_not (by decide)) (bind (atExtend_not (by decide)) (neg (by decide)
      (neg (starts_not (by decide)) (neg (starts_not (by decide))
        (pos ⟨rfl, continuesField_items h⟩ (bind (advance rfl) (bind (reservedItems h)
          (bind (bracketedOptions (by simp [Word.tokens])) (bind expect (pure rfl)))))))))))))

theorem messageElementWith_map {f : MapField} (h : f.isPrintable = true) :
    Takes (Reader.messageElementWith element) (f.words ++ rest) (.map f.onLineOne) rest :=
  bind (lookahead 4) (neg (opens_not (by decide)) (neg (opens_not (by decide))
    (neg (opens_not (by decide)) (bind (atExtend_not (by decide)) (neg (by decide)
      (neg (starts_not (by decide)) (neg (starts_not (by decide)) (neg (starts_not (by decide))
        (pos rfl (bind (mapField h) (pure rfl)))))))))))

end

/-- The words inside the braces of a declaration are fewer than all its words. -/
theorem length_inside {before inside : List Word} {depth : Nat} (hws : ws = before ++ braced inside)
    (hdepth : ws.length ≤ depth + 1) : inside.length ≤ depth := by
  rw [hws, braced, List.length_append, List.length_cons, List.length_append] at hdepth
  omega

-- By recursion on the tree. Each level of bodies uses up one of the depth, and the words inside a
-- body are fewer than those around it, so the depth that is left is enough for them.
mutual

/-- An element of a message body is read from its words, if they are not more than the depth. -/
theorem messageElement (e : MessageElement) (h : e.isPrintable = true) {depth : Nat}
    (hdepth : e.words.length ≤ depth) (rest : List Word) :
    Takes (Reader.messageElement depth) (e.words ++ rest) e.onLineOne rest := by
  obtain ⟨depth, rfl⟩ : ∃ d, depth = d + 1 := by
    refine Nat.exists_eq_add_one.2 (Nat.lt_of_lt_of_le (List.length_pos_iff.2 ?_) hdepth)
    rintro hnil
    exact (startsElement_element h).ne_nil (by rw [hnil]; rfl)
  cases e with
  | option | comment => cases h
  | field f => exact messageElementWith_member (startsMember_field h) (groupOrField_field h)
  | map f => exact messageElementWith_map h
  | enum decl => exact messageElementWith_enum h
  | reserved items => exact messageElementWith_reserved h
  | extensions items => exact messageElementWith_extensions h
  | message name elements line =>
    obtain ⟨-, helements⟩ := Bool.and_eq_true_iff.1 h
    have hinside : (elementWords elements).length ≤ depth :=
      length_inside (rfl : _ = [_, _] ++ _) hdepth
    exact messageElementWith_message
      (messageBody helements (messageElements elements helements hinside))
  | group label name number elements line =>
    obtain ⟨-, helements⟩ := Bool.and_eq_true_iff.1 h
    have hinside : (elementWords elements).length ≤ depth :=
      length_inside (List.append_assoc label.words [_, _, _, _] _).symm hdepth
    exact messageElementWith_member (startsMember_group ..)
      (groupOrField_group (messageBody helements (messageElements elements helements hinside)))
  | extend target elements line =>
    obtain ⟨htarget, helements⟩ := Bool.and_eq_true_iff.1 h
    have hinside : (elementWords elements).length ≤ depth :=
      length_inside (rfl : _ = [_, _] ++ _) hdepth
    exact messageElementWith_extend htarget
      (messageBody helements (messageElements elements helements hinside))
  | oneof name members =>
    obtain ⟨-, hmembers⟩ := Bool.and_eq_true_iff.1 h
    have hinside : (memberWords members).length ≤ depth :=
      length_inside (rfl : _ = [_, _] ++ _) hdepth
    exact messageElementWith_oneof hmembers (oneofElements members hmembers hinside)

theorem messageElements (es : List MessageElement) (h : elementsPrintable es = true) {depth : Nat}
    (hdepth : (elementWords es).length ≤ depth) :
    ∀ e ∈ es, ∀ left, Takes (Reader.messageElement depth) (e.words ++ left) e.onLineOne left := by
  cases es with
  | nil => nofun
  | cons e es =>
    obtain ⟨he, hes⟩ := Bool.and_eq_true_iff.1 h
    rw [elementWords, List.length_append] at hdepth
    exact List.forall_mem_cons.2 ⟨messageElement e he (by omega), messageElements es hes (by omega)⟩

/-- A member of a oneof is read from its words, if they are not more than the depth. -/
theorem oneofElement (m : OneofElement) (h : m.isPrintable = true) {depth : Nat}
    (hdepth : m.words.length ≤ depth) (rest : List Word) :
    Takes (Reader.oneofElement (Reader.messageElement depth)) (m.words ++ rest) m.onLineOne
      rest := by
  cases m with
  | option | comment => cases h
  | field f => exact oneofElement_member (startsMember_field h) (groupOrField_field h)
  | group label name number elements line =>
    obtain ⟨-, helements⟩ := Bool.and_eq_true_iff.1 h
    have hinside : (elementWords elements).length ≤ depth :=
      length_inside (List.append_assoc label.words [_, _, _, _] _).symm (Nat.le_succ_of_le hdepth)
    exact oneofElement_member (startsMember_group ..)
      (groupOrField_group (messageBody helements (messageElements elements helements hinside)))

theorem oneofElements (ms : List OneofElement) (h : membersPrintable ms = true) {depth : Nat}
    (hdepth : (memberWords ms).length ≤ depth) :
    ∀ m ∈ ms, ∀ left, Takes (Reader.oneofElement (Reader.messageElement depth)) (m.words ++ left)
      m.onLineOne left := by
  cases ms with
  | nil => nofun
  | cons m ms =>
    obtain ⟨hm, hms⟩ := Bool.and_eq_true_iff.1 h
    rw [memberWords, List.length_append] at hdepth
    exact List.forall_mem_cons.2 ⟨oneofElement m hm (by omega), oneofElements ms hms (by omega)⟩

end

end Takes
end Reader
end SchemaGraph
