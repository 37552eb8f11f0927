import SchemaGraph.Proofs.Registry.Outline
import SchemaGraph.Proofs.Schema.Answers
import SchemaGraph.Proofs.Token.Munch
/-!
# The names in a schema text

A reader gives names only if it finds them among its lexemes, and those of a text are letters,
digits and underscores that do not start with a digit. So every name that a file declares is such a
name, and every type that it mentions starts like one or with a dot (`labelled_of_parseSchema`).
-/

namespace SchemaGraph

/-- A text that starts like a name, or with a dot. -/
def IsLabel (name : String) : Prop :=
  ∃ c t, name.toList = c :: t ∧ (TokenClass.isWordStart c = true ∨ c = '.')

theorem IsLabel.ne_empty {name : String} (h : IsLabel name) : name ≠ "" := by
  rintro rfl
  obtain ⟨c, t, h, -⟩ := h
  cases h

/-! ## Names in outlines -/

namespace Outline

mutual

/-- The names that an outline declares, and the types that it mentions. -/
def names : Outline → List String
  | .reference ref => [ref.typeName]
  | .skipped .. => []
  | .declaration w _ inside => w.name :: namesIn inside

/-- The names that the outlines of a list declare, and the types that they mention. -/
def namesIn : List Outline → List String
  | [] => []
  | o :: os => names o ++ namesIn os

end

theorem namesIn_append (os os' : List Outline) :
    namesIn (os ++ os') = namesIn os ++ namesIn os' := by
  induction os with
  | nil => rfl
  | cons o os ih => rw [List.cons_append, namesIn, namesIn, ih, List.append_assoc]

theorem namesIn_singleton (o : Outline) : namesIn [o] = names o := by
  rw [namesIn, namesIn, List.append_nil]

theorem namesIn_flatMap {α : Type} (f : α → List Outline) (xs : List α) :
    namesIn (xs.flatMap f) = xs.flatMap fun x => namesIn (f x) := by
  induction xs with
  | nil => rfl
  | cons x xs ih => rw [List.flatMap_cons, List.flatMap_cons, namesIn_append, ih]

theorem namesIn_references (refs : List Reference) :
    namesIn (refs.map .reference) = refs.map (·.typeName) := by
  induction refs with
  | nil => rfl
  | cons ref refs ih =>
    rw [List.map_cons, namesIn, ih]
    rfl

theorem bodyOutline_eq_flatMap (site : DeclarationSite) (es : List MessageElement) :
    bodyOutline site es = es.flatMap (MessageElement.outline site) := by
  induction es with
  | nil => rfl
  | cons e es ih => rw [bodyOutline, ih, List.flatMap_cons]

mutual

theorem name_mem_names (o : Outline) {taken : List String} {w : Winner} (h : w ∈ winners o taken) :
    w.name ∈ names o := by
  cases o with
  | reference | skipped => cases h
  | declaration v rows inside =>
    rcases Winner.mem_contest h with rfl | h
    · exact List.mem_cons_self
    · exact List.mem_cons_of_mem _ (name_mem_namesIn inside h)

/-- The name of a winner is one of those declared. -/
theorem name_mem_namesIn (os : List Outline) {taken : List String} {w : Winner}
    (h : w ∈ winnersIn os taken) : w.name ∈ namesIn os := by
  cases os with
  | nil => cases h
  | cons o os =>
    rcases List.mem_append.1 h with h | h
    · exact List.mem_append_left _ (name_mem_names o h)
    · exact List.mem_append_right _ (name_mem_namesIn os h)

end

mutual

theorem typeName_mem_names (o : Outline) {taken : List String} {ref : Reference}
    (h : ref ∈ linked o taken) : ref.typeName ∈ names o := by
  cases o with
  | reference =>
    rw [linked, List.mem_singleton] at h
    exact List.mem_singleton.2 (congrArg _ h)
  | skipped => cases h
  | declaration v rows inside =>
    rw [linked] at h
    split at h
    · cases h
    · exact List.mem_cons_of_mem _ (typeName_mem_namesIn inside h)

/-- The type of a reference that counts is one of those mentioned. -/
theorem typeName_mem_namesIn (os : List Outline) {taken : List String} {ref : Reference}
    (h : ref ∈ linkedIn os taken) : ref.typeName ∈ namesIn os := by
  cases os with
  | nil => cases h
  | cons o os =>
    rcases List.mem_append.1 h with h | h
    · exact List.mem_append_left _ (typeName_mem_names o h)
    · exact List.mem_append_right _ (typeName_mem_namesIn os h)

end

/-- All names in the outlines of a list can start a node identifier. -/
def Labelled (os : List Outline) : Prop :=
  ∀ n ∈ namesIn os, IsLabel n

theorem labelled_nil : Labelled [] :=
  nofun

theorem labelled_flatMap {α : Type} {f : α → List Outline} {xs : List α}
    (h : ∀ x ∈ xs, Labelled (f x)) : Labelled (xs.flatMap f) := by
  intro n hn
  rw [namesIn_flatMap] at hn
  obtain ⟨x, hx, hn⟩ := List.mem_flatMap.1 hn
  exact h x hx n hn

theorem labelled_declaration {w : Winner} {rows : Option ((String → FieldKind) → List BodyRow)}
    {inside : List Outline} (hname : IsLabel w.name) (hinside : Labelled inside) :
    Labelled [.declaration w rows inside] := by
  intro n hn
  rw [namesIn_singleton, names] at hn
  rcases List.mem_cons.1 hn with rfl | hn
  · exact hname
  · exact hinside n hn

theorem labelled_reference {ref : Reference} (h : IsLabel ref.typeName) :
    Labelled [.reference ref] := by
  intro n hn
  rw [namesIn_singleton, names, List.mem_singleton] at hn
  exact hn ▸ h

end Outline

/-- The names in an element of a message body, wherever the message stands. -/
def MessageElement.Labelled (e : MessageElement) : Prop :=
  ∀ site, Outline.Labelled (e.outline site)

theorem MessageElement.Labelled.message {name : String} {elements : List MessageElement}
    (line : Nat) (hname : IsLabel name) (helements : ∀ e ∈ elements, e.Labelled) :
    Labelled (.message name elements line) := by
  intro site
  rw [MessageElement.outline]
  refine Outline.labelled_declaration hname ?_
  rw [Outline.bodyOutline_eq_flatMap]
  exact Outline.labelled_flatMap fun e he => helements e he _

/-- The names in a statement of a file, whatever its package is. -/
def Statement.Labelled (s : Statement) : Prop :=
  ∀ e, s = .element e → ∀ site, Outline.Labelled (e.outline site)

/-! ## Names that readers give -/

/-- All names among the lexemes can be read as names. -/
def Spelled (ts : List Lexeme) : Prop :=
  ∀ t ∈ ts, ∀ name, t.token = .ident name → IsName name.toList

instance : Inherited Spelled where
  of_suffix h hsuffix := fun t ht => h t (hsuffix.mem ht)

namespace Reader

variable {α : Type}

namespace Gives

variable {p : α → Prop}

theorem ident : Gives Spelled IsLabel Reader.ident := by
  intro ts name rest hts h
  obtain ⟨token, between, hnext, hrest⟩ := bind_eq_ok h
  cases hnext
  cases hpeek : peek ts with
  | none =>
    rw [hpeek] at hrest
    cases hrest
  | some token =>
    rw [hpeek] at hrest
    cases token with
    | ident word =>
      cases hrest
      obtain ⟨t, ht, htoken⟩ := mem_of_peek_eq hpeek
      obtain ⟨c, cs, heq, hc, -⟩ := hts t ht name htoken
      exact ⟨c, cs, heq, .inl hc⟩
    | _ => cases hrest

theorem dottedName : Gives Spelled IsLabel Reader.dottedName := by
  refine after (.eat .dot) fun absolute => bind ident .ident fun first hfirst =>
    after (.repeated ?_) fun others => pure ?_
  · refine TakesFront.bind (.eat .dot) fun dot => ?_
    split
    · exact .map .ident some
    · exact .pure none
  · -- How the name starts does not depend on the components after the first.
    have hstart : ∃ u, String.intercalate "." (first :: others) = first ++ u := by
      cases others with
      | nil => exact ⟨"", by simp⟩
      | cons second others => exact ⟨_, by rw [String.intercalate_cons_cons, String.append_assoc]⟩
    obtain ⟨u, hu⟩ := hstart
    rw [hu]
    cases absolute with
    | true => exact ⟨'.', (first ++ u).toList, by simp, .inr rfl⟩
    | false =>
      obtain ⟨c, t, heq, hc⟩ := hfirst
      exact ⟨c, t ++ u.toList, by simp [heq], hc⟩

/-! ## Declarations -/

theorem fieldAfterLabel (label : FieldLabel) (line : Nat) :
    Gives Spelled (fun field => IsLabel field.typeName) (Reader.fieldAfterLabel label line) :=
  bind dottedName .dottedName fun _ htype => after .ident fun _ => after (.expect _) fun _ =>
    after .fieldNumber fun _ => after .bracketedOptions fun _ => after (.expect _) fun _ =>
    pure htype

theorem mapField : Gives Spelled (fun field => IsLabel field.valueType) Reader.mapField :=
  after .line fun _ => after (.expectKeyword _) fun _ => after (.expect _) fun _ =>
    after .dottedName fun _ => after (.expect _) fun _ => bind dottedName .dottedName
      fun _ htype => after (.expect _) fun _ => after .ident fun _ => after (.expect _) fun _ =>
    after .fieldNumber fun _ => after .bracketedOptions fun _ => after (.expect _) fun _ =>
    pure htype

theorem enumDecl : Gives Spelled (fun decl => IsLabel decl.name) Reader.enumDecl :=
  after .line fun _ => after (.expectKeyword _) fun _ => bind ident .ident fun _ hname =>
    after (.body _ _ .enumElement) fun _ => pure hname

/-! ## Services and files -/

theorem rpcType : Gives Spelled (fun type => IsLabel type.2) Reader.rpcType := by
  refine after (.expect _) fun _ => after (.look atStream) fun streaming => ?_
  split
  · exact after .advance fun _ => bind dottedName .dottedName fun _ htype =>
      after (.expect _) fun _ => pure htype
  · exact bind dottedName .dottedName fun _ htype => after (.expect _) fun _ => pure htype

theorem rpc : Gives Spelled (fun rpc => IsLabel rpc.name ∧ IsLabel rpc.requestType ∧
    IsLabel rpc.responseType) Reader.rpc :=
  after .line fun _ => after (.expectKeyword _) fun _ => bind ident .ident fun _ hname =>
    bind rpcType .rpcType fun _ hrequest => after (.expectKeyword _) fun _ =>
    bind rpcType .rpcType fun _ hresponse => after .rpcOptions fun _ =>
    pure ⟨hname, hrequest, hresponse⟩

theorem serviceElement : Gives Spelled (fun e => ∀ rpc, e = .rpc rpc → IsLabel rpc.name ∧
    IsLabel rpc.requestType ∧ IsLabel rpc.responseType) Reader.serviceElement := by
  refine after (.atKeyword _) fun isOption => ?_
  split
  · exact after .optionDecl fun _ => pure fun _ => nofun
  · refine after (.atKeyword _) fun isRpc => ?_
    split
    · exact map rpc .rpc fun decl hdecl _ heq => ServiceElement.rpc.inj heq ▸ hdecl
    · exact refuseNext _

theorem service :
    Gives Spelled (fun decl => ∀ site, Outline.Labelled [decl.outline site]) Reader.service := by
  refine after .line fun _ => after (.expectKeyword _) fun _ => bind ident .ident fun _ hname =>
    bind (body _ (fun _ _ => nofun) serviceElement .serviceElement) (.body _ _ .serviceElement)
      fun elements helements => pure fun site => ?_
  refine Outline.labelled_declaration hname (Outline.labelled_flatMap fun rpc hrpc n hn => ?_)
  obtain ⟨e, he, hsome⟩ := List.mem_filterMap.1 hrpc
  have heq : e = .rpc rpc := by
    cases e <;> simp_all
  obtain ⟨hrpcName, hrequest, hresponse⟩ := helements e he rpc heq
  rw [Rpc.outline, Outline.namesIn, Outline.namesIn_references] at hn
  rcases List.mem_append.1 hn with hn | hn
  · rw [Outline.names, Outline.namesIn, List.mem_singleton] at hn
    exact hn ▸ hrpcName
  · simp only [Rpc.references, List.map_cons, List.map_nil, List.mem_cons, List.not_mem_nil,
      or_false] at hn
    rcases hn with rfl | rfl
    · exact hrequest
    · exact hresponse

/-- In a message body, messages, enums and the types of fields have names; of groups nothing is
asked. -/
theorem labelledElements : ElementLaws Spelled MessageElement.Labelled
    (fun member => ∀ owner, Outline.Labelled (OneofElement.outline owner member)) where
  comment _ := ⟨fun _ => nofun, fun _ => nofun⟩
  optionDecl := of_forall fun _ => ⟨fun _ => nofun, fun _ => nofun⟩
  field label line := mono (fieldAfterLabel label line) fun _ hf =>
    ⟨fun _ => Outline.labelled_reference hf, fun _ => Outline.labelled_reference hf⟩
  mapField := mono mapField fun _ hm _ => Outline.labelled_reference hm
  items := of_forall fun _ => ⟨fun _ => nofun, fun _ => nofun⟩
  enumDecl := mono enumDecl fun decl hdecl site => by
    rw [MessageElement.outline]
    exact Outline.labelled_declaration hdecl Outline.labelled_nil
  message := mono ident fun _ hname _ line => .message line hname
  group := of_forall fun _ _ _ _ _ _ => ⟨fun _ => nofun, fun _ => nofun⟩
  oneof name members hmembers site := by
    rw [MessageElement.outline]
    exact Outline.labelled_flatMap fun member hmember => hmembers member hmember _
  extend _ _ _ _ := fun _ => nofun

theorem labelledFile : FileLaws Spelled MessageElement.Labelled
    (fun member => ∀ owner, Outline.Labelled (OneofElement.outline owner member))
    (fun e => ∀ site, Outline.Labelled (e.outline site)) where
  toElementLaws := labelledElements
  fileComment _ _ := nofun
  fileOption _ h := h
  fileMessage _ h := h
  fileEnum _ h := h
  fileExtend _ h := h
  service := service

theorem statements : Gives Spelled (fun ss => ∀ s ∈ ss, s.Labelled) Reader.statements :=
  labelledFile.statements

end Gives
end Reader

/-- The elements of a file are those among its statements, in their order. -/
theorem SchemaFile.elements_ofStatements (statements : List Statement) :
    (SchemaFile.ofStatements statements).elements = statements.filterMap fun
      | .element e => some e
      | _ => none :=
  collected_ofStatements rfl (fun _ s => by cases s <;> simp [add]) statements

theorem SchemaFile.mem_elements_ofStatements {statements : List Statement} {e : FileElement} :
    e ∈ (SchemaFile.ofStatements statements).elements ↔ .element e ∈ statements := by
  rw [SchemaFile.elements_ofStatements, List.mem_filterMap]
  constructor
  · rintro ⟨s, hs, he⟩
    cases s with
    | element e' => exact Option.some.inj he ▸ hs
    | _ => cases he
  · exact fun h => ⟨_, h, rfl⟩

/-- What a file declares is named by letters, digits and underscores that do not start with a digit,
and the types that it mentions start so or with a dot. -/
theorem labelled_of_parseSchema {path source : String} {file : SchemaFile}
    (h : parseSchema path source = .ok file) (unit : String) :
    Outline.Labelled (Outline.ofFile (unit, file)) := by
  obtain ⟨lexemes, statements, rest, htokenize, hread, rfl⟩ := exists_statements_of_parseSchema h
  have hspelled : Spelled lexemes := fun t ht _ hname =>
    isName_of_mem_lexemesFrom htokenize ht hname
  have hstatements := Reader.Gives.statements lexemes statements rest hspelled hread
  refine Outline.labelled_flatMap fun e he => ?_
  exact hstatements _ (SchemaFile.mem_elements_ofStatements.1 he) e rfl _

end SchemaGraph
