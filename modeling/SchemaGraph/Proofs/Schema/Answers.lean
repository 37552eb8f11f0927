import SchemaGraph.Proofs.Schema.Front
/-!
# What readers answer

`Reader.Gives I p x` says that from lexemes with the property `I` the reader `x` answers nothing but
what `p` holds of. The property is one that the rest of a list inherits from the list, so that it
goes from one part of a composed reader to the next.

What holds of every declaration follows from what holds of its parts, and the grammar is the same
whatever that is: `ElementLaws` and `FileLaws` say what is asked of the parts, and
`FileLaws.statements` answers for the whole text.
-/

namespace SchemaGraph

/-- A property of lexemes that whatever a reader leaves of them has too. -/
class Inherited (I : List Lexeme → Prop) : Prop where
  of_suffix : ∀ {ts ts' : List Lexeme}, I ts → ts' <:+ ts → I ts'

namespace Reader

variable {α β : Type}

/-- From lexemes with the property `I` the reader gives only what `p` holds of. -/
def Gives (I : List Lexeme → Prop) (p : α → Prop) (x : Reader α) : Prop :=
  ∀ ts a rest, I ts → x ts = .ok (a, rest) → p a

namespace Gives

variable {I : List Lexeme → Prop} {p p' : α → Prop} {q : β → Prop}

theorem of_forall {x : Reader α} (h : ∀ a, p a) : Gives I p x :=
  fun _ a _ _ _ => h a

theorem mono {x : Reader α} (hx : Gives I p x) (h : ∀ a, p a → p' a) : Gives I p' x :=
  fun ts a rest hts hread => h a (hx ts a rest hts hread)

theorem pure {a : α} (h : p a) : Gives I p (Pure.pure a) := by
  intro ts b rest _ hb
  cases hb
  exact h

theorem refuse (complaint : Complaint) : Gives I p (Reader.refuse complaint) :=
  fun _ _ _ _ h => by cases h

theorem refuseNext (complaint : Option Token → Complaint) :
    Gives I p (Reader.refuseNext complaint) :=
  fun _ _ _ _ h => by cases h

theorem ite {c : Prop} [Decidable c] {x y : Reader α} (hx : Gives I p x) (hy : Gives I p y) :
    Gives I p (if c then x else y) := by
  split
  · exact hx
  · exact hy

variable [Inherited I]

/-- What the first part gives is known to the second. -/
theorem bind {x : Reader α} {f : α → Reader β} (hx : Gives I p x) (hfront : TakesFront x)
    (hf : ∀ a, p a → Gives I q (f a)) : Gives I q (x >>= f) := by
  intro ts b rest hts h
  obtain ⟨a, between, hfirst, hsecond⟩ := bind_eq_ok h
  have hbetween := Inherited.of_suffix hts (hfront _ _ _ hfirst)
  exact hf a (hx ts a between hts hfirst) between b rest hbetween hsecond

/-- A first part whose answer does not matter. -/
theorem after {x : Reader α} {f : α → Reader β} (hfront : TakesFront x)
    (hf : ∀ a, Gives I q (f a)) : Gives I q (x >>= f) :=
  bind (p := fun _ => True) (fun _ _ _ _ _ => trivial) hfront fun a _ => hf a

theorem map {x : Reader α} (hx : Gives I p x) (hfront : TakesFront x) {f : α → β}
    (hf : ∀ a, p a → q (f a)) : Gives I q (x >>= fun a => Pure.pure (f a)) :=
  bind hx hfront fun a ha => pure (hf a ha)

theorem elementsWithin (place : BodyPlace) {comment : String → α} {element : Reader α}
    (hcomment : ∀ text, p (comment text)) (helement : Gives I p element)
    (hfront : TakesFront element) (bound : List Lexeme) :
    Gives I (fun as => ∀ a ∈ as, p a) (Reader.elementsWithin place comment element bound) := by
  have hrest (bound : List Lexeme) := TakesFront.elementsWithin place comment hfront bound
  have hcons {a : α} {as : List α} (ha : p a) (has : ∀ b ∈ as, p b) : ∀ b ∈ a :: as, p b :=
    List.forall_mem_cons.2 ⟨ha, has⟩
  induction bound with
  | nil => exact refuse _
  | cons _ bound ih =>
    refine after .nextOrComment fun token => ?_
    split
    · exact refuse _
    · exact after .advanceOne fun _ => pure (by simp)
    · exact after .advanceOne fun _ => ih
    · split
      · exact after .advanceOne fun _ => map ih (hrest bound) fun as => hcons (hcomment _)
      · exact bind helement hfront fun a ha => map ih (hrest bound) fun as => hcons ha

theorem body (place : BodyPlace) {comment : String → α} {element : Reader α}
    (hcomment : ∀ text, p (comment text)) (helement : Gives I p element)
    (hfront : TakesFront element) :
    Gives I (fun as => ∀ a ∈ as, p a) (Reader.body place comment element) :=
  after (.expect _) fun _ ts as rest hts h =>
    elementsWithin place hcomment helement hfront ts ts as rest hts h

theorem repeatWithin {step : Reader (Option α)}
    (hstep : Gives I (fun answer => ∀ a, answer = some a → p a) step)
    (hfront : TakesFront step) (bound : List Lexeme) :
    Gives I (fun as => ∀ a ∈ as, p a) (Reader.repeatWithin step bound) := by
  induction bound with
  | nil => exact pure (by simp)
  | cons _ bound ih =>
    refine bind hstep hfront fun answer hanswer => ?_
    cases answer with
    | none => exact pure (by simp)
    | some a =>
      exact map ih (.repeatWithin hfront bound) fun as has =>
        List.forall_mem_cons.2 ⟨hanswer a rfl, has⟩

/-! ## Elements of messages -/

/-- What is asked of the parts that are read, so that every element of a message body has the
property `P`, and every member of a oneof the property `Q`. -/
structure ElementLaws (I : List Lexeme → Prop) (P : MessageElement → Prop)
    (Q : OneofElement → Prop) : Prop where
  comment : ∀ text, P (.comment text) ∧ Q (.comment text)
  optionDecl : Gives I (fun decl => P (.option decl) ∧ Q (.option decl)) Reader.optionDecl
  field : ∀ label line,
    Gives I (fun f => P (.field f) ∧ Q (.field f)) (Reader.fieldAfterLabel label line)
  mapField : Gives I (fun f => P (.map f)) Reader.mapField
  items : Gives I (fun items => P (.reserved items) ∧ P (.extensions items)) Reader.reservedItems
  enumDecl : Gives I (fun decl => P (.enum decl)) Reader.enumDecl
  /-- The name of a message is read before its elements. -/
  message : Gives I (fun name => ∀ elements line, (∀ e ∈ elements, P e) →
    P (.message name elements line)) Reader.ident
  /-- The number of a group is read before its elements. -/
  group : Gives I (fun number => ∀ label name elements line, (∀ e ∈ elements, P e) →
    P (.group label name number elements line) ∧ Q (.group label name number elements line))
    Reader.fieldNumber
  oneof : ∀ name members, (∀ m ∈ members, Q m) → P (.oneof name members)
  extend : ∀ target elements line, (∀ e ∈ elements, P e) → P (.extend target elements line)

namespace ElementLaws

variable {P : MessageElement → Prop} {Q : OneofElement → Prop}

section

variable {element : Reader MessageElement} (laws : ElementLaws I P Q)
  (helement : Gives I P element) (hfront : TakesFront element)

include laws helement hfront

theorem elements : Gives I (fun es => ∀ e ∈ es, P e) (Reader.body .message .comment element) :=
  body _ (fun text => (laws.comment text).1) helement hfront

theorem groupAfterLabel : Gives I (fun decl => ∀ label line,
    P (.group label decl.1 decl.2.1 decl.2.2 line) ∧ Q (.group label decl.1 decl.2.1 decl.2.2 line))
    (Reader.groupAfterLabel element) :=
  after (.expectKeyword _) fun _ => after .ident fun name => after (.expect _) fun _ =>
    bind laws.group .fieldNumber fun _ hnumber => after .bracketedOptions fun _ =>
    map (laws.elements helement hfront) (.body _ _ hfront) fun elements helements label line =>
      hnumber label name elements line helements

/-- What follows the label of a member: a group or a field. -/
theorem groupOrField {p : α → Prop} {field : Field → α}
    {group : FieldLabel → Nat → String × UInt32 × List MessageElement → α}
    (hgroup : ∀ label line decl, P (.group label decl.1 decl.2.1 decl.2.2 line) ∧
      Q (.group label decl.1 decl.2.1 decl.2.2 line) → p (group label line decl))
    (hfield : ∀ f, P (.field f) ∧ Q (.field f) → p (field f)) :
    Gives I p (do
      let line ← Reader.line
      let label ← Reader.fieldLabel
      if opensGroup (← lookahead 3) then
        return group label line (← Reader.groupAfterLabel element)
      else
        return field (← Reader.fieldAfterLabel label line)) := by
  refine after .line fun line => after .fieldLabel fun label =>
    after (.look (ahead 3)) fun start => ?_
  split
  · exact map (laws.groupAfterLabel helement hfront) (.groupAfterLabel hfront)
      fun decl h => hgroup label line decl (h label line)
  · exact map (laws.field label line) (.fieldAfterLabel label line) hfield

theorem oneofElement : Gives I Q (Reader.oneofElement element) := by
  refine after (.look (ahead 4)) fun start => ?_
  split
  · exact map laws.optionDecl .optionDecl fun _ h => h.2
  · exact laws.groupOrField helement hfront (fun _ _ _ h => h.2) fun _ h => h.2

theorem extendDecl : Gives I (fun decl => P (.extend decl.target decl.elements decl.line))
    (Reader.extendDecl element) :=
  after .line fun line => after (.expectKeyword _) fun _ => after .dottedName fun target =>
    map (laws.elements helement hfront) (.body _ _ hfront) fun elements =>
      laws.extend target elements line

theorem messageDecl : Gives I (fun decl => P (.message decl.name decl.elements decl.line))
    (Reader.messageDecl element) :=
  after .line fun line => after (.expectKeyword _) fun _ =>
    bind laws.message .ident fun _ hname =>
    map (laws.elements helement hfront) (.body _ _ hfront) fun elements => hname elements line

theorem messageElementWith : Gives I P (Reader.messageElementWith element) := by
  refine after (.look (ahead 4)) fun start => ?_
  dsimp only
  refine ite ?message (ite ?enum (ite ?oneof (after .atExtend fun extension =>
    ite ?extend (ite ?option (ite ?reserved (ite ?extensions (ite ?map ?member)))))))
  case message =>
    exact map (laws.messageDecl helement hfront) (.messageDecl hfront) fun _ h => h
  case enum => exact map laws.enumDecl .enumDecl fun _ h => h
  case oneof =>
    exact after (.expectKeyword _) fun _ => after .ident fun name =>
      map (body _ (fun text => (laws.comment text).2) (laws.oneofElement helement hfront)
        (.oneofElement hfront)) (.body _ _ (.oneofElement hfront)) (laws.oneof name)
  case extend => exact map (laws.extendDecl helement hfront) (.extendDecl hfront) fun _ h => h
  case option => exact map laws.optionDecl .optionDecl fun _ h => h.1
  case reserved =>
    exact after .advance fun _ => bind laws.items .reservedItems fun _ hitems =>
      after (.expect _) fun _ => pure hitems.1
  case extensions =>
    exact after .advance fun _ => bind laws.items .reservedItems fun _ hitems =>
      after .bracketedOptions fun _ => after (.expect _) fun _ => pure hitems.2
  case map => exact map laws.mapField .mapField fun _ h => h
  case member => exact laws.groupOrField helement hfront (fun _ _ _ h => h.1) fun _ h => h.1

end

/-- The elements of a body inside another are read in the same way. -/
theorem messageElement (laws : ElementLaws I P Q) (depth : Nat) :
    Gives I P (Reader.messageElement depth) := by
  induction depth with
  | zero => exact refuse _
  | succ depth ih => exact laws.messageElementWith ih (.messageElement depth)

end ElementLaws

/-! ## Files -/

/-- What is asked beside `ElementLaws`, so that every declaration of a file has the property `R`.
What a message body can declare has `P` there. -/
structure FileLaws (I : List Lexeme → Prop) (P : MessageElement → Prop) (Q : OneofElement → Prop)
    (R : FileElement → Prop) : Prop extends ElementLaws I P Q where
  fileComment : ∀ text, R (.comment text)
  fileOption : ∀ decl, P (.option decl) → R (.option decl)
  fileMessage : ∀ decl, P (.message decl.name decl.elements decl.line) → R (.message decl)
  fileEnum : ∀ decl, P (.enum decl) → R (.enum decl)
  fileExtend : ∀ decl, P (.extend decl.target decl.elements decl.line) → R (.extend decl)
  service : Gives I (fun decl => R (.service decl)) Reader.service

namespace FileLaws

variable {P : MessageElement → Prop} {Q : OneofElement → Prop} {R : FileElement → Prop}

theorem statementOf (laws : FileLaws I P Q R) (depth : Nat) (keyword : String) :
    Gives I (fun s => ∀ e, s = .element e → R e) (Reader.statementOf depth keyword) := by
  have helement {e : FileElement} (h : R e) : ∀ e', Statement.element e = .element e' → R e' :=
    fun _ heq => Statement.element.inj heq ▸ h
  have hbody := laws.messageElement depth
  have hfront := TakesFront.messageElement depth
  unfold Reader.statementOf
  -- In the order of the keywords: the first four make no element.
  split
  · exact after .numberedDialect fun _ => pure fun _ => nofun
  · exact after .advance fun _ => after .dialectValue fun _ => pure fun _ => nofun
  · exact after .advance fun _ => after .dottedName fun _ => after (.expect _) fun _ =>
      pure fun _ => nofun
  · exact after .importDecl fun _ => pure fun _ => nofun
  · exact map laws.optionDecl .optionDecl fun _ h => helement (laws.fileOption _ h.1)
  · exact map (laws.messageDecl hbody hfront) (.messageDecl hfront) fun _ h =>
      helement (laws.fileMessage _ h)
  · exact map laws.enumDecl .enumDecl fun _ h => helement (laws.fileEnum _ h)
  · exact map laws.service .service fun _ h => helement h
  · exact map (laws.extendDecl hbody hfront) (.extendDecl hfront) fun _ h =>
      helement (laws.fileExtend _ h)
  · exact refuse _

theorem statement? (laws : FileLaws I P Q R) (depth : Nat) :
    Gives I (fun answer => ∀ ss, answer = some ss → ∀ s ∈ ss, ∀ e, s = .element e → R e)
      (Reader.statement? depth) := by
  refine after .nextOrComment fun token => ?_
  split
  · exact pure fun _ => nofun
  · exact after .advance fun _ => pure fun _ heq => Option.some.inj heq ▸ nofun
  · refine map (laws.statementOf depth _) (.statementOf depth _) fun s hs _ heq => ?_
    rw [← Option.some.inj heq]
    exact List.forall_mem_singleton.2 hs
  · split
    · refine after .advanceOne fun _ => pure fun _ heq => ?_
      rw [← Option.some.inj heq]
      refine List.forall_mem_singleton.2 fun _ heq => ?_
      exact Statement.element.inj heq ▸ laws.fileComment _
    · exact refuse _

/-- Every declaration of a text has the property. -/
theorem statements (laws : FileLaws I P Q R) :
    Gives I (fun ss => ∀ s ∈ ss, ∀ e, s = .element e → R e) Reader.statements := by
  intro ts ss rest hts h
  obtain ⟨groups, between, hgroups, hpure⟩ := bind_eq_ok h
  cases hpure
  intro s hs
  obtain ⟨group, hgroup, hs⟩ := List.mem_flatten.1 hs
  exact repeatWithin (laws.statement? _) (.statement? _) ts ts groups rest hts hgroups group hgroup
    s hs

end FileLaws
end Gives
end Reader

end SchemaGraph
