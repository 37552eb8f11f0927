import Mathlib.Data.List.Induction
import SchemaGraph.Proofs.Schema.Names
/-!
# Declaration trees further down

A declaration that stands `n` lines further down is the same but for its line and the lines of what
is inside it. The statements of two texts, one after the other, declare what the first declare and
then what the second do, and the later package and dialect are kept.
-/

namespace SchemaGraph

variable (n : Nat)

/-! ## Declarations -/

def Field.down (field : Field) : Field :=
  { field with line := field.line + n }

def MapField.down (field : MapField) : MapField :=
  { field with line := field.line + n }

def EnumDecl.down (decl : EnumDecl) : EnumDecl :=
  { decl with line := decl.line + n }

mutual

/-- The element of a message body, `n` lines further down with all inside it. -/
def MessageElement.down : MessageElement → MessageElement
  | .field field => .field (field.down n)
  | .map field => .map (field.down n)
  | .oneof name members => .oneof name (membersDown members)
  | .enum decl => .enum (decl.down n)
  | .message name elements line => .message name (elementsDown elements) (line + n)
  | .reserved items => .reserved items
  | .extensions items => .extensions items
  | .option decl => .option decl
  | .comment text => .comment text
  | .group label name number elements line =>
    .group label name number (elementsDown elements) (line + n)
  | .extend target elements line => .extend target (elementsDown elements) (line + n)

/-- The elements of a message body, `n` lines further down. -/
def elementsDown : List MessageElement → List MessageElement
  | [] => []
  | e :: es => e.down :: elementsDown es

/-- The member of a oneof, `n` lines further down with all inside it. -/
def OneofElement.down : OneofElement → OneofElement
  | .field field => .field (field.down n)
  | .option decl => .option decl
  | .comment text => .comment text
  | .group label name number elements line =>
    .group label name number (elementsDown elements) (line + n)

/-- The members of a oneof, `n` lines further down. -/
def membersDown : List OneofElement → List OneofElement
  | [] => []
  | member :: members => member.down :: membersDown members

end

theorem elementsDown_eq_map (es : List MessageElement) :
    elementsDown n es = es.map (MessageElement.down n) := by
  induction es with
  | nil => rfl
  | cons e es ih => rw [elementsDown, ih, List.map_cons]

theorem membersDown_eq_map (members : List OneofElement) :
    membersDown n members = members.map (OneofElement.down n) := by
  induction members with
  | nil => rfl
  | cons member members ih => rw [membersDown, ih, List.map_cons]

def Message.down (decl : Message) : Message :=
  { decl with elements := decl.elements.map (MessageElement.down n), line := decl.line + n }

def Extend.down (decl : Extend) : Extend :=
  { decl with elements := decl.elements.map (MessageElement.down n), line := decl.line + n }

def Rpc.down (rpc : Rpc) : Rpc :=
  { rpc with line := rpc.line + n }

def ServiceElement.down : ServiceElement → ServiceElement
  | rpc decl => rpc (decl.down n)
  | option decl => option decl
  | comment text => comment text

def Service.down (decl : Service) : Service :=
  { decl with elements := decl.elements.map (ServiceElement.down n), line := decl.line + n }

/-- The declaration, `n` lines further down with all inside it. -/
def FileElement.down : FileElement → FileElement
  | message decl => message (decl.down n)
  | enum decl => enum (decl.down n)
  | service decl => service (decl.down n)
  | extend decl => extend (decl.down n)
  | option decl => option decl
  | comment text => comment text

def Import.down (decl : Import) : Import :=
  { decl with line := decl.line + n }

/-- The statement, `n` lines further down with all inside it. -/
def Statement.down : Statement → Statement
  | dialect d => dialect d
  | package name => package name
  | imports decl => imports (decl.down n)
  | element e => element (e.down n)

/-- Whether the statement names the dialect. -/
def Statement.namesDialect : Statement → Bool
  | dialect _ => true
  | _ => false

/-! ## No lines -/

mutual

theorem MessageElement.down_zero (e : MessageElement) : e.down 0 = e := by
  cases e with
  | field | map | enum | reserved | extensions | option | comment => rfl
  | oneof name members => rw [MessageElement.down, membersDown_zero]
  | message name elements line => rw [MessageElement.down, elementsDown_zero, Nat.add_zero]
  | group label name number elements line =>
    rw [MessageElement.down, elementsDown_zero, Nat.add_zero]
  | extend target elements line => rw [MessageElement.down, elementsDown_zero, Nat.add_zero]

theorem elementsDown_zero (es : List MessageElement) : elementsDown 0 es = es := by
  cases es with
  | nil => rfl
  | cons e es => rw [elementsDown, MessageElement.down_zero, elementsDown_zero]

theorem OneofElement.down_zero (member : OneofElement) : member.down 0 = member := by
  cases member with
  | field | option | comment => rfl
  | group label name number elements line =>
    rw [OneofElement.down, elementsDown_zero, Nat.add_zero]

theorem membersDown_zero (members : List OneofElement) : membersDown 0 members = members := by
  cases members with
  | nil => rfl
  | cons member members => rw [membersDown, OneofElement.down_zero, membersDown_zero]

end

theorem FileElement.down_zero (e : FileElement) : e.down 0 = e := by
  have helements (es : List MessageElement) : es.map (MessageElement.down 0) = es := by
    rw [← elementsDown_eq_map, elementsDown_zero]
  cases e with
  | enum | option | comment => rfl
  | message decl => rw [down, Message.down, helements, Nat.add_zero]
  | extend decl => rw [down, Extend.down, helements, Nat.add_zero]
  | service decl =>
    have hservice (e : ServiceElement) : e.down 0 = e := by cases e <;> rfl
    rw [down, Service.down, Nat.add_zero, List.map_congr_left fun e _ => hservice e, List.map_id']

theorem Statement.down_zero (s : Statement) : s.down 0 = s := by
  cases s with
  | dialect | package | imports => rfl
  | element e => rw [down, FileElement.down_zero]

/-! ## Files -/

namespace SchemaFile

theorem ofStatements_concat (ss : List Statement) (s : Statement) :
    ofStatements (ss ++ [s]) = (ofStatements ss).add s :=
  List.foldl_concat ..

/-- The later of two packages is kept. -/
theorem package_ofStatements_append (ss ss' : List Statement) :
    (ofStatements (ss ++ ss')).package =
      (ofStatements ss').package.or (ofStatements ss).package := by
  induction ss' using List.reverseRecOn with
  | nil => rw [List.append_nil]; rfl
  | append_singleton ss' s ih =>
    rw [← List.append_assoc, ofStatements_concat, ofStatements_concat]
    cases s with
    | package name => rfl
    | dialect | imports | element => exact ih

/-- The later of two dialects is kept. -/
theorem dialect_ofStatements_append (ss ss' : List Statement) :
    (ofStatements (ss ++ ss')).dialect =
      if ss'.any Statement.namesDialect then (ofStatements ss').dialect
      else (ofStatements ss).dialect := by
  induction ss' using List.reverseRecOn with
  | nil => rw [List.append_nil]; rfl
  | append_singleton ss' s ih =>
    rw [← List.append_assoc, ofStatements_concat, ofStatements_concat, List.any_append]
    cases s with
    | dialect d => simp [add, Statement.namesDialect]
    | package | imports | element => simpa [add, Statement.namesDialect] using ih

theorem imports_ofStatements_append (ss ss' : List Statement) :
    (ofStatements (ss ++ ss')).imports =
      (ofStatements ss).imports ++ (ofStatements ss').imports := by
  rw [imports_ofStatements, imports_ofStatements, imports_ofStatements, List.filterMap_append]

theorem elements_ofStatements_append (ss ss' : List Statement) :
    (ofStatements (ss ++ ss')).elements =
      (ofStatements ss).elements ++ (ofStatements ss').elements := by
  rw [elements_ofStatements, elements_ofStatements, elements_ofStatements, List.filterMap_append]

/-- The file, all of its declarations `n` lines further down. -/
def down (file : SchemaFile) : SchemaFile :=
  { file with
    imports := file.imports.map (Import.down n)
    elements := file.elements.map (FileElement.down n) }

theorem ofStatements_down (ss : List Statement) :
    ofStatements (ss.map (Statement.down n)) = (ofStatements ss).down n := by
  induction ss using List.reverseRecOn with
  | nil => rfl
  | append_singleton ss s ih =>
    rw [List.map_append, List.map_singleton, ofStatements_concat, ofStatements_concat, ih]
    cases s <;> simp [add, down, Statement.down]

end SchemaFile
end SchemaGraph
