import SchemaGraph.Proofs.Registry.Outline
/-!
# Where a declaration holds its name

`Outline.Holds o os taken` says that the declaration `o` stands somewhere in a list of outlines, and
that where it stands its name is free and so are the names of the declarations around it. Those are
the winners of the list (`exists_holds`, `Holds.mem_winnersIn`). In the outline of a file all of
them are declarations with a body or methods (`Holds.stated`). -/

namespace SchemaGraph

/-- A declaration with a body. -/
inductive Declaration where
  | message (decl : Message)
  | enum (decl : EnumDecl)
  | service (decl : Service)

namespace Declaration

/-- The name that is declared. -/
def name : Declaration → String
  | .message decl => decl.name
  | .enum decl => decl.name
  | .service decl => decl.name

/-- The kind of the entity that is declared. -/
def kind : Declaration → EntityKind
  | .message _ => .message
  | .enum _ => .enum
  | .service _ => .service

/-- The references of the body, when it belongs to the given owner. -/
def references (owner : String) : Declaration → List Reference
  | .message decl => decl.elements.flatMap (·.references owner)
  | .enum _ => []
  | .service decl => decl.rpcs.flatMap (Rpc.references owner)

/-- The rows of the body, for the kinds of types: one for each field, map field and member of a
oneof that stands directly in a message, one for each value of an enum and one for each method. -/
def rows (kind : String → FieldKind) : Declaration → List BodyRow
  | .message decl => decl.elements.flatMap (·.rows kind)
  | .enum decl => decl.rows
  | .service decl => decl.rpcs.map (Rpc.row kind)

/-- The outline of the body, where the scope of the site is the name that is declared. -/
def body (site : DeclarationSite) : Declaration → List Outline
  | .message decl => bodyOutline site decl.elements
  | .enum _ => []
  | .service decl => decl.rpcs.flatMap (Rpc.outline site site.scope)

/-- The declaration as a winner. -/
def winner (site : DeclarationSite) (d : Declaration) : Winner :=
  let q := Name.qualify site.scope d.name
  ⟨site.source, q, d.name, d.kind, site.parent, none, d.references q⟩

/-- The outline of the declaration. -/
def outline (site : DeclarationSite) (d : Declaration) : Outline :=
  .declaration (d.winner site) (some fun kind => d.rows kind)
    (d.body (site.inside (Name.qualify site.scope d.name)))

end Declaration

namespace Outline

/-- `o.Holds os taken`: the declaration `o` stands in the list, its name is free there, and so are
those of the declarations around it, when the names `taken` are taken before the list. -/
inductive Holds (o : Outline) : List Outline → List String → Prop
  | here {w : Winner} {rows : Option ((String → FieldKind) → List BodyRow)}
      {inside os : List Outline}
      {taken : List String} (ho : o = .declaration w rows inside)
      (free : w.qualifiedName ∉ taken) : Holds o (o :: os) taken
  | inside {w : Winner} {rows : Option ((String → FieldKind) → List BodyRow)}
      {inside os : List Outline} {taken : List String} (free : w.qualifiedName ∉ taken)
      (h : Holds o inside (taken ++ [w.qualifiedName])) :
      Holds o (.declaration w rows inside :: os) taken
  | after {o' : Outline} {os : List Outline} {taken : List String}
      (h : Holds o os (o'.takes taken)) : Holds o (o' :: os) taken

variable {o : Outline} {os os' : List Outline} {taken : List String} {w : Winner}
  {rows : Option ((String → FieldKind) → List BodyRow)} {inside : List Outline}

theorem not_holds_nil : ¬ o.Holds [] taken :=
  nofun

theorem holds_append : o.Holds (os ++ os') taken ↔
    o.Holds os taken ∨ o.Holds os' (takesIn os taken) := by
  induction os generalizing taken with
  | nil => simp [not_holds_nil, takesIn, winnersIn]
  | cons o' os ih =>
    rw [takesIn_cons, List.cons_append]
    constructor
    · intro h
      cases h with
      | here ho free => exact .inl (.here ho free)
      | inside free h => exact .inl (.inside free h)
      | after h => exact (ih.1 h).imp .after id
    · rintro (h | h)
      · cases h with
        | here ho free => exact .here ho free
        | inside free h => exact .inside free h
        | after h => exact .after (ih.2 (.inl h))
      · exact .after (ih.2 (.inr h))

theorem Holds.of_head {o' : Outline} (h : o.Holds [o'] taken) (os : List Outline) :
    o.Holds (o' :: os) taken := by
  have happend : o.Holds ([o'] ++ os) taken := holds_append.2 (.inl h)
  exact happend

/-- In a list that is put together of several ones the declaration stands in one of these. -/
theorem exists_of_holds_flatMap {α : Type} {f : α → List Outline} {xs : List α}
    (h : o.Holds (xs.flatMap f) taken) :
    ∃ before x after, xs = before ++ x :: after ∧
      o.Holds (f x) (takesIn (before.flatMap f) taken) := by
  induction xs generalizing taken with
  | nil => exact absurd h not_holds_nil
  | cons x xs ih =>
    rw [List.flatMap_cons, holds_append] at h
    rcases h with h | h
    · exact ⟨[], x, xs, rfl, by simpa [takesIn, winnersIn] using h⟩
    · obtain ⟨before, y, after, rfl, hy⟩ := ih h
      refine ⟨x :: before, y, after, rfl, ?_⟩
      rw [List.flatMap_cons, takesIn, winnersIn_append, List.map_append, ← List.append_assoc]
      exact hy

theorem Holds.of_singleton (h : o.Holds [.declaration w rows inside] taken) :
    o = .declaration w rows inside ∨ o.Holds inside (taken ++ [w.qualifiedName]) := by
  cases h with
  | here => exact .inl rfl
  | inside free h => exact .inr h
  | after h => exact absurd h not_holds_nil

/-! ## Winners -/

mutual

theorem exists_holds_singleton (o : Outline) {taken : List String} {w : Winner}
    (h : w ∈ winners o taken) :
    ∃ rows inside, (Outline.declaration w rows inside).Holds [o] taken := by
  cases o with
  | reference | skipped => cases h
  | declaration v rows inside =>
    have hfree := Winner.not_mem_of_mem_contest h
    rcases Winner.mem_contest h with rfl | h
    · exact ⟨rows, inside, .here rfl hfree⟩
    · obtain ⟨rows', inside', h⟩ := exists_holds inside h
      exact ⟨rows', inside', .inside hfree h⟩

/-- Every winner holds its name somewhere. -/
theorem exists_holds (os : List Outline) {taken : List String} {w : Winner}
    (h : w ∈ winnersIn os taken) :
    ∃ rows inside, (Outline.declaration w rows inside).Holds os taken := by
  cases os with
  | nil => cases h
  | cons o os =>
    rcases List.mem_append.1 h with h | h
    · obtain ⟨rows, inside, h⟩ := exists_holds_singleton o h
      exact ⟨rows, inside, h.of_head os⟩
    · obtain ⟨rows, inside, h⟩ := exists_holds os h
      exact ⟨rows, inside, .after h⟩

end

/-! ## Declarations of a file -/

/-- What stands in a file: a declaration with a body, or a method. -/
inductive Stated : Outline → Prop
  | declaration (site : DeclarationSite) (d : Declaration) : Stated (d.outline site)
  | method {w : Winner} (hkind : w.kind = .rpc) : Stated (.declaration w none [])

theorem not_holds_of_declaredIn {os : List Outline} (h : declaredIn os = []) :
    ¬ o.Holds os taken := by
  intro ho
  induction ho with
  | here ho => simp [ho, declaredIn, declared] at h
  | inside => simp [declaredIn, declared] at h
  | after _ ih =>
    rw [declaredIn, List.append_eq_nil_iff] at h
    exact ih h.2

mutual

theorem Holds.stated_element (site : DeclarationSite) (e : MessageElement) {taken : List String}
    (h : o.Holds (MessageElement.outline site e) taken) : Stated o := by
  cases e with
  | message name elements line =>
    rcases Holds.of_singleton h with rfl | h
    · exact .declaration site (.message ⟨name, elements, line⟩)
    · exact Holds.stated_body _ elements h
  | enum decl =>
    rcases Holds.of_singleton h with rfl | h
    · exact .declaration site (.enum decl)
    · exact absurd h not_holds_nil
  | oneof name members => exact absurd h (not_holds_of_declaredIn (declaredIn_oneof _ members))
  | field | map | group | extend | reserved | extensions | option | comment =>
    exact absurd h (not_holds_of_declaredIn rfl)

theorem Holds.stated_body (site : DeclarationSite) (es : List MessageElement)
    {taken : List String} (h : o.Holds (bodyOutline site es) taken) : Stated o := by
  cases es with
  | nil => exact absurd h not_holds_nil
  | cons e es =>
    rcases holds_append.1 h with h | h
    · exact Holds.stated_element site e h
    · exact Holds.stated_body site es h

end

theorem Holds.stated_rpc {site : DeclarationSite} {service : String} {rpc : Rpc}
    (h : o.Holds (rpc.outline site service) taken) : Stated o := by
  cases h with
  | here => exact .method rfl
  | inside free h => exact absurd h not_holds_nil
  | after h => exact absurd h (not_holds_of_declaredIn (declaredIn_references _))

theorem Holds.stated_fileElement {site : DeclarationSite} {e : FileElement}
    (h : o.Holds (e.outline site) taken) : Stated o := by
  cases e with
  | message decl => exact Holds.stated_element site (.message decl.name decl.elements decl.line) h
  | enum decl => exact Holds.stated_element site (.enum decl) h
  | service decl =>
    rcases Holds.of_singleton h with rfl | h
    · exact .declaration site (.service decl)
    · obtain ⟨_, rpc, _, _, hrpc⟩ := exists_of_holds_flatMap h
      exact hrpc.stated_rpc
  | extend | option | comment => exact absurd h (not_holds_of_declaredIn rfl)

/-- Whatever holds its name in files is a declaration with a body or a method. -/
theorem Holds.stated {files : List (String × SchemaFile)}
    (h : o.Holds (files.flatMap ofFile) taken) : Stated o := by
  obtain ⟨_, file, _, _, hfile⟩ := exists_of_holds_flatMap h
  obtain ⟨_, e, _, _, helement⟩ := exists_of_holds_flatMap hfile
  exact helement.stated_fileElement

/-- A winner that is no method is a declaration with a body. -/
theorem exists_declaration {files : List (String × SchemaFile)} {w : Winner}
    (hw : w ∈ Winner.ofFiles files) (hkind : w.kind ≠ .rpc) :
    ∃ (site : DeclarationSite) (d : Declaration),
      (d.outline site).Holds (files.flatMap ofFile) [] ∧ d.winner site = w := by
  rw [ofFiles_eq_winnersIn] at hw
  obtain ⟨rows, inside, h⟩ := exists_holds _ hw
  generalize ho : Outline.declaration w rows inside = o at h
  cases h.stated with
  | declaration site d => exact ⟨site, d, h, (Outline.declaration.inj ho).1.symm⟩
  | method hrpc => exact absurd ((Outline.declaration.inj ho).1 ▸ hrpc) hkind

end Outline
end SchemaGraph
