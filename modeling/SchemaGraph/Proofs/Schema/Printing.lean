import SchemaGraph.Proofs.Token.Words
import SchemaGraph.Schema.Grammar
/-!
# Canonical texts of declaration trees

`SchemaFile.print` writes a file as words with one space between them: the dialect, the package, the
imports and the elements in their order. `SchemaFile.isPrintable` tells the files that have such a
text: names are identifiers, types are dotted names, there are no comments and no options, and no
field starts like another statement. A text on one line does not keep the lines of declarations, so
`onLineOne` is the file as it can be read from its text.
-/

namespace SchemaGraph

/-! ## Fields and numbers -/

/-- The first component of a name; empty when the name starts with a dot. -/
def firstComponent (name : String) : String :=
  (Text.split (· == '.') name).headD ""

/-- The keywords with which a type without a label before it cannot start: a label is read as a
label, and the others start a statement of their own. -/
def statementWords : List String :=
  ["option", "reserved", "extensions", "repeated", "optional", "required"]

/-- The words of braces around a body. -/
def braced (ws : List Word) : List Word :=
  .mark .leftBrace :: (ws ++ [.mark .rightBrace])

/-- The word of a label, if there is one. -/
def FieldLabel.words (label : FieldLabel) : List Word :=
  if label = .unlabelled then [] else [.ident label.text]

namespace Field

def words (field : Field) : List Word :=
  field.label.words ++ [.dotted field.typeName, .ident field.name, .mark .equals,
    .number field.number.toNat, .mark .semi]

def isPrintable (field : Field) : Bool :=
  isTypeName field.typeName && isIdentifier field.name && field.options.isNone &&
    field.typeName != "group" &&
    (field.label != .unlabelled || !statementWords.contains (firstComponent field.typeName))

def onLineOne (field : Field) : Field :=
  { field with line := 1 }

end Field

namespace MapField

def words (field : MapField) : List Word :=
  [.ident "map", .mark .leftAngle, .dotted field.keyType, .mark .comma, .dotted field.valueType,
    .mark .rightAngle, .ident field.name, .mark .equals, .number field.number.toNat, .mark .semi]

def isPrintable (field : MapField) : Bool :=
  isTypeName field.keyType && isTypeName field.valueType && isIdentifier field.name &&
    field.options.isNone

def onLineOne (field : MapField) : MapField :=
  { field with line := 1 }

end MapField

/-- The words of a group whose body has the given ones. -/
def groupWords (label : FieldLabel) (name : String) (number : UInt32) (inside : List Word) :
    List Word :=
  label.words ++ .ident "group" :: .ident name :: .mark .equals :: .number number.toNat ::
    braced inside

/-- The words of an integer, its sign apart. -/
def integerWords (value : Int) : List Word :=
  if value < 0 then [.mark .minus, .number value.natAbs] else [.number value.natAbs]

/-- Whether an integer is in the range of literals. -/
def isWritable (value : Int) : Bool :=
  value.natAbs ≤ Reader.maxInteger

namespace ReservedItem

def words : ReservedItem → List Word
  | range start none => integerWords start
  | range start (some stop) => integerWords start ++ .ident "to" :: integerWords stop
  | name text => [.quoted text]

def isPrintable : ReservedItem → Bool
  | range start stop => isWritable start && stop.all isWritable
  | name text => isIdentifier text

/-- The words of a statement of items after its keyword. -/
def statementWords (items : List ReservedItem) : List Word :=
  List.intercalate [.mark .comma] (items.map words) ++ [.mark .semi]

/-- Whether a statement of the items can be written. -/
def arePrintable (items : List ReservedItem) : Bool :=
  !items.isEmpty && items.all isPrintable

end ReservedItem

/-! ## Enums -/

namespace EnumElement

def words : EnumElement → List Word
  | value v => .ident v.name :: .mark .equals :: (integerWords v.number ++ [.mark .semi])
  | reserved items => .ident "reserved" :: ReservedItem.statementWords items
  | option _ | comment _ => []

def isPrintable : EnumElement → Bool
  | value v => isIdentifier v.name && isWritable v.number
  | reserved items => ReservedItem.arePrintable items
  | option _ | comment _ => false

end EnumElement

namespace EnumDecl

def words (decl : EnumDecl) : List Word :=
  .ident "enum" :: .ident decl.name :: braced (decl.elements.flatMap EnumElement.words)

def isPrintable (decl : EnumDecl) : Bool :=
  isIdentifier decl.name && decl.elements.all EnumElement.isPrintable

def onLineOne (decl : EnumDecl) : EnumDecl :=
  { decl with line := 1 }

end EnumDecl

/-! ## Messages -/

mutual

/-- The words of an element of a message body. -/
def MessageElement.words : MessageElement → List Word
  | .field field => field.words
  | .map field => field.words
  | .oneof name members => .ident "oneof" :: .ident name :: braced (memberWords members)
  | .enum decl => decl.words
  | .message name elements _ => .ident "message" :: .ident name :: braced (elementWords elements)
  | .reserved items => .ident "reserved" :: ReservedItem.statementWords items
  | .extensions items => .ident "extensions" :: ReservedItem.statementWords items
  | .group label name number elements _ => groupWords label name number (elementWords elements)
  | .extend target elements _ => .ident "extend" :: .dotted target :: braced (elementWords elements)
  | .option _ | .comment _ => []

/-- The words of the elements of a message body. -/
def elementWords : List MessageElement → List Word
  | [] => []
  | e :: es => e.words ++ elementWords es

/-- The words of a member of a oneof. -/
def OneofElement.words : OneofElement → List Word
  | .field field => field.words
  | .group label name number elements _ => groupWords label name number (elementWords elements)
  | .option _ | .comment _ => []

/-- The words of the members of a oneof. -/
def memberWords : List OneofElement → List Word
  | [] => []
  | member :: members => member.words ++ memberWords members

end

mutual

/-- Whether an element of a message body can be written. -/
def MessageElement.isPrintable : MessageElement → Bool
  | .field field => field.isPrintable
  | .map field => field.isPrintable
  | .oneof name members => isIdentifier name && membersPrintable members
  | .enum decl => decl.isPrintable
  | .message name elements _ => isIdentifier name && elementsPrintable elements
  | .reserved items | .extensions items => ReservedItem.arePrintable items
  | .group _ name _ elements _ => isIdentifier name && elementsPrintable elements
  | .extend target elements _ => isTypeName target && elementsPrintable elements
  | .option _ | .comment _ => false

/-- Whether the elements of a message body can be written. -/
def elementsPrintable : List MessageElement → Bool
  | [] => true
  | e :: es => e.isPrintable && elementsPrintable es

/-- Whether a member of a oneof can be written. -/
def OneofElement.isPrintable : OneofElement → Bool
  | .field field => field.isPrintable
  | .group _ name _ elements _ => isIdentifier name && elementsPrintable elements
  | .option _ | .comment _ => false

/-- Whether the members of a oneof can be written. -/
def membersPrintable : List OneofElement → Bool
  | [] => true
  | member :: members => member.isPrintable && membersPrintable members

end

mutual

/-- An element of a message body, itself and all inside it on line 1. -/
def MessageElement.onLineOne : MessageElement → MessageElement
  | .field field => .field field.onLineOne
  | .map field => .map field.onLineOne
  | .oneof name members => .oneof name (membersOnLineOne members)
  | .enum decl => .enum decl.onLineOne
  | .message name elements _ => .message name (elementsOnLineOne elements) 1
  | .reserved items => .reserved items
  | .extensions items => .extensions items
  | .group label name number elements _ => .group label name number (elementsOnLineOne elements) 1
  | .extend target elements _ => .extend target (elementsOnLineOne elements) 1
  | .option decl => .option decl
  | .comment text => .comment text

/-- The elements of a message body, all on line 1. -/
def elementsOnLineOne : List MessageElement → List MessageElement
  | [] => []
  | e :: es => e.onLineOne :: elementsOnLineOne es

/-- A member of a oneof, itself and all inside it on line 1. -/
def OneofElement.onLineOne : OneofElement → OneofElement
  | .field field => .field field.onLineOne
  | .group label name number elements _ => .group label name number (elementsOnLineOne elements) 1
  | .option decl => .option decl
  | .comment text => .comment text

/-- The members of a oneof, all on line 1. -/
def membersOnLineOne : List OneofElement → List OneofElement
  | [] => []
  | member :: members => member.onLineOne :: membersOnLineOne members

end

theorem elementWords_eq_flatMap (es : List MessageElement) :
    elementWords es = es.flatMap MessageElement.words := by
  induction es with
  | nil => rfl
  | cons e es ih => rw [elementWords, ih, List.flatMap_cons]

theorem memberWords_eq_flatMap (members : List OneofElement) :
    memberWords members = members.flatMap OneofElement.words := by
  induction members with
  | nil => rfl
  | cons member members ih => rw [memberWords, ih, List.flatMap_cons]

theorem elementsOnLineOne_eq_map (es : List MessageElement) :
    elementsOnLineOne es = es.map MessageElement.onLineOne := by
  induction es with
  | nil => rfl
  | cons e es ih => rw [elementsOnLineOne, ih, List.map_cons]

theorem membersOnLineOne_eq_map (members : List OneofElement) :
    membersOnLineOne members = members.map OneofElement.onLineOne := by
  induction members with
  | nil => rfl
  | cons member members ih => rw [membersOnLineOne, ih, List.map_cons]

theorem elementsPrintable_eq_all (es : List MessageElement) :
    elementsPrintable es = es.all MessageElement.isPrintable := by
  induction es with
  | nil => rfl
  | cons e es ih => rw [elementsPrintable, ih, List.all_cons]

theorem membersPrintable_eq_all (members : List OneofElement) :
    membersPrintable members = members.all OneofElement.isPrintable := by
  induction members with
  | nil => rfl
  | cons member members ih => rw [membersPrintable, ih, List.all_cons]

/-! ## Services -/

/-- The words of the type of a request or a response, in its parentheses. -/
def rpcTypeWords (streaming : Bool) (typeName : String) : List Word :=
  .mark .leftParen :: ((if streaming then [.ident "stream"] else []) ++
    [.dotted typeName, .mark .rightParen])

namespace Rpc

def words (rpc : Rpc) : List Word :=
  .ident "rpc" :: .ident rpc.name :: (rpcTypeWords rpc.clientStreaming rpc.requestType ++
    .ident "returns" :: (rpcTypeWords rpc.serverStreaming rpc.responseType ++ [.mark .semi]))

def isPrintable (rpc : Rpc) : Bool :=
  isIdentifier rpc.name && isTypeName rpc.requestType && isTypeName rpc.responseType &&
    rpc.options.isEmpty

end Rpc

namespace ServiceElement

def words : ServiceElement → List Word
  | rpc decl => decl.words
  | option _ | comment _ => []

def isPrintable : ServiceElement → Bool
  | rpc decl => decl.isPrintable
  | option _ | comment _ => false

def onLineOne : ServiceElement → ServiceElement
  | rpc decl => rpc { decl with line := 1 }
  | option decl => option decl
  | comment text => comment text

end ServiceElement

namespace Service

def words (decl : Service) : List Word :=
  .ident "service" :: .ident decl.name :: braced (decl.elements.flatMap ServiceElement.words)

def isPrintable (decl : Service) : Bool :=
  isIdentifier decl.name && decl.elements.all ServiceElement.isPrintable

def onLineOne (decl : Service) : Service :=
  { decl with elements := decl.elements.map ServiceElement.onLineOne, line := 1 }

end Service

/-! ## Files -/

def Dialect.words : Dialect → List Word
  | edition name => [.ident "edition", .mark .equals, .quoted name, .mark .semi]
  | dialect => [.ident "syntax", .mark .equals, .quoted dialect.text, .mark .semi]

def Dialect.isPrintable : Dialect → Bool
  | edition name => isPlain name
  | proto2 | proto3 => true

/-- The word of a modifier, if there is one. -/
def ImportModifier.words : ImportModifier → List Word
  | plain => []
  | weak => [.ident "weak"]
  | exported => [.ident "public"]

namespace Import

def words (decl : Import) : List Word :=
  .ident "import" :: (decl.modifier.words ++ [.quoted decl.path, .mark .semi])

def onLineOne (decl : Import) : Import :=
  { decl with line := 1 }

end Import

namespace FileElement

def words : FileElement → List Word
  | message decl => (MessageElement.message decl.name decl.elements decl.line).words
  | enum decl => decl.words
  | service decl => decl.words
  | extend decl => (MessageElement.extend decl.target decl.elements decl.line).words
  | option _ | comment _ => []

def isPrintable : FileElement → Bool
  | message decl => (MessageElement.message decl.name decl.elements decl.line).isPrintable
  | enum decl => decl.isPrintable
  | service decl => decl.isPrintable
  | extend decl => (MessageElement.extend decl.target decl.elements decl.line).isPrintable
  | option _ | comment _ => false

def onLineOne : FileElement → FileElement
  | message decl => message ⟨decl.name, elementsOnLineOne decl.elements, 1⟩
  | enum decl => enum decl.onLineOne
  | service decl => service decl.onLineOne
  | extend decl => extend ⟨decl.target, elementsOnLineOne decl.elements, 1⟩
  | option decl => option decl
  | comment text => comment text

end FileElement

namespace Statement

def words : Statement → List Word
  | dialect value => value.words
  | package name => [.ident "package", .dotted name, .mark .semi]
  | imports decl => decl.words
  | element e => e.words

def isPrintable : Statement → Bool
  | dialect value => value.isPrintable
  | package name => isTypeName name
  | imports decl => isPlain decl.path
  | element e => e.isPrintable

def onLineOne : Statement → Statement
  | dialect value => dialect value
  | package name => package name
  | imports decl => imports decl.onLineOne
  | element e => element e.onLineOne

end Statement

namespace SchemaFile

/-- The statements of a file: its dialect, its package, its imports and its elements. -/
def statements (file : SchemaFile) : List Statement :=
  .dialect file.dialect :: (file.package.toList.map .package ++ file.imports.map .imports ++
    file.elements.map .element)

/-- The text of a file, with one space between two words. -/
def print (file : SchemaFile) : String :=
  spaced (file.statements.flatMap Statement.words)

/-- Whether the file has a text from which it can be read. -/
def isPrintable (file : SchemaFile) : Bool :=
  file.statements.all Statement.isPrintable

/-- The file with all its declarations on line 1. -/
def onLineOne (file : SchemaFile) : SchemaFile :=
  { file with
    imports := file.imports.map Import.onLineOne
    elements := file.elements.map FileElement.onLineOne }

end SchemaFile

/-! ## Words that are read as what they are -/

section

variable {ws : List Word}

/-- All words are read as what they are. -/
def Readable (ws : List Word) : Prop :=
  ∀ w ∈ ws, w.isReadable = true

@[simp] theorem readable_nil : Readable [] :=
  nofun

@[simp] theorem readable_cons {w : Word} :
    Readable (w :: ws) ↔ w.isReadable = true ∧ Readable ws :=
  List.forall_mem_cons

@[simp] theorem readable_append {ws' : List Word} :
    Readable (ws ++ ws') ↔ Readable ws ∧ Readable ws' :=
  List.forall_mem_append

theorem readable_flatMap {α : Type} {f : α → List Word} {as : List α}
    (h : ∀ a ∈ as, Readable (f a)) : Readable (as.flatMap f) := by
  intro w hw
  obtain ⟨a, ha, hw⟩ := List.mem_flatMap.1 hw
  exact h a ha w hw

theorem readable_keyword {keyword : String} (h : isIdentifier keyword = true)
    (hws : Readable ws) : Readable (.ident keyword :: ws) :=
  readable_cons.2 ⟨h, hws⟩

@[simp] theorem readable_braced : Readable (braced ws) ↔ Readable ws := by
  simp [braced, Word.isReadable]

theorem FieldLabel.readable (label : FieldLabel) : Readable label.words := by
  cases label with
  | unlabelled => exact readable_nil
  | optional | required | repeated => exact readable_keyword (by decide) readable_nil

theorem Field.readable {f : Field} (h : f.isPrintable = true) : Readable f.words := by
  simp only [isPrintable, Bool.and_eq_true] at h
  obtain ⟨⟨⟨⟨htype, hname⟩, -⟩, -⟩, -⟩ := h
  simp [words, f.label.readable, Word.isReadable, htype, hname]

theorem MapField.readable {f : MapField} (h : f.isPrintable = true) : Readable f.words := by
  simp only [isPrintable, Bool.and_eq_true] at h
  obtain ⟨⟨⟨hkey, hvalue⟩, hname⟩, -⟩ := h
  refine readable_keyword (by decide) ?_
  simp [Word.isReadable, hkey, hvalue, hname]

theorem readable_groupWords (label : FieldLabel) {name : String} (number : UInt32)
    (h : isIdentifier name = true) (hws : Readable ws) :
    Readable (groupWords label name number ws) := by
  refine readable_append.2 ⟨label.readable, readable_keyword (by decide) ?_⟩
  simp [Word.isReadable, h, hws]

theorem readable_integerWords (value : Int) : Readable (integerWords value) := by
  unfold integerWords
  split <;> simp [Word.isReadable]

theorem isPlain_of_isIdentifier {name : String} (h : isIdentifier name = true) :
    isPlain name = true := by
  have hword := (isIdentifier_iff.1 h).isWordChar
  refine isPlain_iff.2 fun d hd => ⟨?_, ?_, ?_⟩
  all_goals
    rintro rfl
    exact absurd (hword _ hd) (by decide)

namespace ReservedItem

theorem readable {item : ReservedItem} (h : item.isPrintable = true) : Readable item.words := by
  cases item with
  | name text => simpa [words, Word.isReadable] using isPlain_of_isIdentifier h
  | range start stop =>
    cases stop with
    | none => exact readable_integerWords start
    | some stop =>
      exact readable_append.2 ⟨readable_integerWords start,
        readable_keyword (by decide) (readable_integerWords stop)⟩

theorem readable_statementWords {items : List ReservedItem} (h : arePrintable items = true) :
    Readable (statementWords items) := by
  obtain ⟨hne, hall⟩ := Bool.and_eq_true_iff.1 h
  rw [List.all_eq_true] at hall
  obtain ⟨first, others, rfl⟩ := List.exists_cons_of_ne_nil (l := items) (by simpa using hne)
  rw [statementWords, List.map_cons, intercalate_eq_append_flatMap]
  refine readable_append.2 ⟨readable_append.2 ⟨readable (hall first List.mem_cons_self), ?_⟩, ?_⟩
  · refine readable_flatMap fun ws hws => ?_
    obtain ⟨item, hitem, rfl⟩ := List.mem_map.1 hws
    exact readable_cons.2 ⟨rfl, readable (hall item (List.mem_cons_of_mem _ hitem))⟩
  · exact readable_cons.2 ⟨rfl, readable_nil⟩

end ReservedItem

theorem EnumElement.readable {e : EnumElement} (h : e.isPrintable = true) : Readable e.words := by
  cases e with
  | option | comment => cases h
  | value v =>
    obtain ⟨hname, -⟩ := Bool.and_eq_true_iff.1 h
    simp [words, Word.isReadable, hname, readable_integerWords]
  | reserved items => exact readable_keyword (by decide) (ReservedItem.readable_statementWords h)

theorem EnumDecl.readable {decl : EnumDecl} (h : decl.isPrintable = true) :
    Readable decl.words := by
  obtain ⟨hname, helements⟩ := Bool.and_eq_true_iff.1 h
  rw [List.all_eq_true] at helements
  refine readable_keyword (by decide) (readable_keyword hname (readable_braced.2 ?_))
  exact readable_flatMap fun e he => EnumElement.readable (helements e he)

mutual

theorem MessageElement.readable (e : MessageElement) (h : e.isPrintable = true) :
    Readable e.words := by
  cases e with
  | option | comment => cases h
  | field f => exact Field.readable h
  | map f => exact MapField.readable h
  | enum decl => exact EnumDecl.readable h
  | reserved items | extensions items =>
    exact readable_keyword (by decide) (ReservedItem.readable_statementWords h)
  | message name elements line =>
    obtain ⟨hname, helements⟩ := Bool.and_eq_true_iff.1 h
    exact readable_keyword (by decide) (readable_keyword hname
      (readable_braced.2 (readable_elementWords elements helements)))
  | group label name number elements line =>
    obtain ⟨hname, helements⟩ := Bool.and_eq_true_iff.1 h
    exact readable_groupWords label number hname (readable_elementWords elements helements)
  | extend target elements line =>
    obtain ⟨htarget, helements⟩ := Bool.and_eq_true_iff.1 h
    exact readable_keyword (by decide) (readable_cons.2 ⟨htarget,
      readable_braced.2 (readable_elementWords elements helements)⟩)
  | oneof name members =>
    obtain ⟨hname, hmembers⟩ := Bool.and_eq_true_iff.1 h
    exact readable_keyword (by decide) (readable_keyword hname
      (readable_braced.2 (readable_memberWords members hmembers)))

theorem readable_elementWords (es : List MessageElement) (h : elementsPrintable es = true) :
    Readable (elementWords es) := by
  cases es with
  | nil => exact readable_nil
  | cons e es =>
    obtain ⟨he, hes⟩ := Bool.and_eq_true_iff.1 h
    exact readable_append.2 ⟨e.readable he, readable_elementWords es hes⟩

theorem OneofElement.readable (m : OneofElement) (h : m.isPrintable = true) : Readable m.words := by
  cases m with
  | option | comment => cases h
  | field f => exact Field.readable h
  | group label name number elements line =>
    obtain ⟨hname, helements⟩ := Bool.and_eq_true_iff.1 h
    exact readable_groupWords label number hname (readable_elementWords elements helements)

theorem readable_memberWords (ms : List OneofElement) (h : membersPrintable ms = true) :
    Readable (memberWords ms) := by
  cases ms with
  | nil => exact readable_nil
  | cons m ms =>
    obtain ⟨hm, hms⟩ := Bool.and_eq_true_iff.1 h
    exact readable_append.2 ⟨m.readable hm, readable_memberWords ms hms⟩

end

theorem readable_rpcTypeWords (streaming : Bool) {typeName : String}
    (h : isTypeName typeName = true) : Readable (rpcTypeWords streaming typeName) := by
  have hkeyword : isIdentifier "stream" = true := by decide
  cases streaming <;> simp [rpcTypeWords, Word.isReadable, h, hkeyword]

theorem ServiceElement.readable {e : ServiceElement} (h : e.isPrintable = true) :
    Readable e.words := by
  cases e with
  | option | comment => cases h
  | rpc decl =>
    simp only [isPrintable, Rpc.isPrintable, Bool.and_eq_true] at h
    obtain ⟨⟨⟨hname, hrequest⟩, hresponse⟩, -⟩ := h
    refine readable_keyword (by decide) (readable_keyword hname (readable_append.2
      ⟨readable_rpcTypeWords _ hrequest, readable_keyword (by decide) (readable_append.2
        ⟨readable_rpcTypeWords _ hresponse, readable_cons.2 ⟨rfl, readable_nil⟩⟩)⟩))

theorem Service.readable {decl : Service} (h : decl.isPrintable = true) : Readable decl.words := by
  obtain ⟨hname, helements⟩ := Bool.and_eq_true_iff.1 h
  rw [List.all_eq_true] at helements
  refine readable_keyword (by decide) (readable_keyword hname (readable_braced.2 ?_))
  exact readable_flatMap fun e he => ServiceElement.readable (helements e he)

/-- The words of a statement that can be written are read as what they are. -/
theorem Statement.readable {s : Statement} (h : s.isPrintable = true) : Readable s.words := by
  cases s with
  | dialect value =>
    cases value with
    | proto2 | proto3 => exact readable_keyword (by decide) (by simp [Word.isReadable]; decide)
    | edition name =>
      have hplain : isPlain name = true := h
      exact readable_keyword (by decide) (by simp [Word.isReadable, hplain])
  | package name =>
    have hname : isTypeName name = true := h
    exact readable_keyword (by decide) (by simp [Word.isReadable, hname])
  | imports decl =>
    have hpath : isPlain decl.path = true := h
    have hmodifier : Readable decl.modifier.words := by
      cases decl.modifier with
      | plain => exact readable_nil
      | weak | exported => exact readable_keyword (by decide) readable_nil
    exact readable_keyword (by decide) (readable_append.2
      ⟨hmodifier, by simp [Word.isReadable, hpath]⟩)
  | element e =>
    cases e with
    | option | comment => cases h
    | message decl | extend decl => exact MessageElement.readable _ h
    | enum decl => exact EnumDecl.readable h
    | service decl => exact Service.readable h

end

end SchemaGraph
