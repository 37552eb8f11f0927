/-!
# Declaration trees

A `SchemaFile` is what a schema text declares. Each kind of body has its own type of element, so
that a function on a body says what it does with every construct. Comments between statements are
elements; comments inside a statement are not kept.

Declarations and imports keep the line on which they start, counted from one. It is a natural
number, below `2 ^ 32` if the text has fewer than `2 ^ 32 - 1` line feeds.
-/

namespace SchemaGraph

/-- The dialect that a file declares. -/
inductive Dialect where
  | proto2
  | proto3
  /-- An edition, by its name. -/
  | edition (name : String)
  deriving DecidableEq, Repr, Inhabited

/-- The name of a dialect. -/
def Dialect.text : Dialect → String
  | proto2 => "proto2"
  | proto3 => "proto3"
  | edition name => name

/-- How an import statement qualifies its import. -/
inductive ImportModifier where
  | plain | weak | exported
  deriving DecidableEq, Repr

/-- An import statement, with the line on which it starts. -/
structure Import where
  path : String
  modifier : ImportModifier
  line : Nat
  deriving DecidableEq, Repr

/-- An option statement; the value is kept as the texts of its tokens. -/
structure OptionDecl where
  name : String
  value : String
  deriving DecidableEq, Repr

/-- The label before a field's type. -/
inductive FieldLabel where
  | unlabelled | optional | required | repeated
  deriving DecidableEq, Repr

/-- The keyword of a label, empty when there is none. -/
def FieldLabel.text : FieldLabel → String
  | unlabelled => ""
  | optional => "optional"
  | required => "required"
  | repeated => "repeated"

/-- A field of a message or a member of a oneof, with the line on which it starts. -/
structure Field where
  label : FieldLabel
  typeName : String
  name : String
  number : UInt32
  /-- The text between the brackets after the number, if there are any. -/
  options : Option String
  line : Nat
  deriving DecidableEq, Repr

/-- A map field. -/
structure MapField where
  keyType : String
  valueType : String
  name : String
  number : UInt32
  options : Option String
  line : Nat
  deriving DecidableEq, Repr

/-- An item of a `reserved` or `extensions` statement. -/
inductive ReservedItem where
  /-- A number, or the numbers from `start` to `stop`. -/
  | range (start : Int) (stop : Option Int)
  | name (name : String)
  deriving DecidableEq, Repr

/-- A value of an enum. -/
structure EnumValue where
  name : String
  number : Int
  deriving DecidableEq, Repr

/-- An element of an enum body. -/
inductive EnumElement where
  | value (value : EnumValue)
  | option (decl : OptionDecl)
  | reserved (items : List ReservedItem)
  | comment (text : String)
  deriving DecidableEq, Repr

/-- An enum declaration. -/
structure EnumDecl where
  name : String
  elements : List EnumElement
  line : Nat
  deriving DecidableEq, Repr

mutual

/-- An element of a message body. -/
inductive MessageElement where
  | field (field : Field)
  | map (field : MapField)
  | oneof (name : String) (members : List OneofElement)
  | enum (decl : EnumDecl)
  | message (name : String) (elements : List MessageElement) (line : Nat)
  | reserved (items : List ReservedItem)
  | extensions (items : List ReservedItem)
  | option (decl : OptionDecl)
  | comment (text : String)
  /-- A field and a nested message declared together. -/
  | group (label : FieldLabel) (name : String) (number : UInt32) (elements : List MessageElement)
      (line : Nat)
  | extend (target : String) (elements : List MessageElement) (line : Nat)

/-- An element of the body of a oneof. -/
inductive OneofElement where
  | field (field : Field)
  | option (decl : OptionDecl)
  | comment (text : String)
  | group (label : FieldLabel) (name : String) (number : UInt32) (elements : List MessageElement)
      (line : Nat)

end

/-- A message declaration. -/
structure Message where
  name : String
  elements : List MessageElement
  line : Nat

/-- An extension of a message declared elsewhere. -/
structure Extend where
  target : String
  elements : List MessageElement
  line : Nat

/-- A method of a service. -/
structure Rpc where
  name : String
  requestType : String
  responseType : String
  clientStreaming : Bool
  serverStreaming : Bool
  options : List OptionDecl
  line : Nat
  deriving DecidableEq, Repr

/-- An element of a service body. -/
inductive ServiceElement where
  | rpc (rpc : Rpc)
  | option (decl : OptionDecl)
  | comment (text : String)
  deriving DecidableEq, Repr

/-- A service declaration. -/
structure Service where
  name : String
  elements : List ServiceElement
  line : Nat
  deriving DecidableEq, Repr

/-- The methods of a service, in source order. -/
def Service.rpcs (s : Service) : List Rpc :=
  s.elements.filterMap fun
    | .rpc rpc => some rpc
    | _ => none

/-- A declaration at the top level of a file. -/
inductive FileElement where
  | message (decl : Message)
  | enum (decl : EnumDecl)
  | service (decl : Service)
  | extend (decl : Extend)
  | option (decl : OptionDecl)
  | comment (text : String)

/-- What a schema text declares. -/
structure SchemaFile where
  dialect : Dialect
  package : Option String
  imports : List Import
  elements : List FileElement

namespace SchemaFile

/-- A file that declares nothing. -/
def empty : SchemaFile :=
  ⟨.proto2, none, [], []⟩

/-- The name of the file's package, empty when it has none. -/
def packageName (file : SchemaFile) : String :=
  file.package.getD ""

/-- The messages at top level, in source order. -/
def messages (file : SchemaFile) : List Message :=
  file.elements.filterMap fun
    | .message decl => some decl
    | _ => none

/-- The enums at top level, in source order. -/
def enums (file : SchemaFile) : List EnumDecl :=
  file.elements.filterMap fun
    | .enum decl => some decl
    | _ => none

/-- The services, in source order. -/
def services (file : SchemaFile) : List Service :=
  file.elements.filterMap fun
    | .service decl => some decl
    | _ => none

end SchemaFile

/-- The names of the messages declared directly in a body, in source order. -/
def nestedMessageNames (elements : List MessageElement) : List String :=
  elements.filterMap fun
    | .message name _ _ => some name
    | _ => none

/-- The names of the enums declared directly in a body, in source order. -/
def nestedEnumNames (elements : List MessageElement) : List String :=
  elements.filterMap fun
    | .enum decl => some decl.name
    | _ => none

end SchemaGraph
