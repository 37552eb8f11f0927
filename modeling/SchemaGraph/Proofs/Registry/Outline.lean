import SchemaGraph.Proofs.Registry.Winners
/-!
# Outlines of files

An `Outline` is what declaring and building see of a file: its declarations one inside the other,
the references between them, and the constructs that are not drawn. Lines, options and comments are
left out. The functions on outlines thread the names that are taken: `winners` lists the
declarations that hold their names (`ofFiles_eq_winnersIn`), `lost` the names of those that do not,
and `linked` the references of the bodies that count. Where no name is lost, every declaration is a
winner (`winnersIn_eq_declaredIn`).
-/

namespace SchemaGraph

/-! ## Rows of a body -/

/-- The row of a field whose type is of the given kind. -/
def Field.row (field : Field) (oneof : Option String) (kind : FieldKind) : BodyRow :=
  .field field.label.text field.typeName field.name field.number kind oneof

/-- The rows of a member of a oneof, for the kinds of types. -/
def OneofElement.rows (kind : String → FieldKind) (oneof : String) : OneofElement → List BodyRow
  | .field f => [f.row (some oneof) (kind f.typeName)]
  | .option _ | .comment _ | .group .. => []

/-- The rows of an element of a message body, for the kinds of types. -/
def MessageElement.rows (kind : String → FieldKind) : MessageElement → List BodyRow
  | .field f => [f.row none (kind f.typeName)]
  | .map m => [.map m.keyType m.valueType m.name m.number (kind m.valueType)]
  | .oneof name members => members.flatMap (OneofElement.rows kind name)
  | .enum _ | .message .. | .reserved _ | .extensions _ | .option _ | .comment _ | .group ..
  | .extend .. => []

/-- The rows of an enum: one for each value. -/
def EnumDecl.rows (decl : EnumDecl) : List BodyRow :=
  decl.elements.filterMap fun
    | .value v => some (.value v.name v.number)
    | _ => none

/-- The row of a method, for the kinds of types. -/
def Rpc.row (kind : String → FieldKind) (rpc : Rpc) : BodyRow :=
  .rpc rpc.name rpc.requestType rpc.responseType rpc.clientStreaming rpc.serverStreaming
    (kind rpc.requestType) (kind rpc.responseType)

/-! ## Outlines -/

/-- What declaring and building see of a part of a file. -/
inductive Outline where
  | reference (ref : Reference)
  /-- A construct that is not drawn, with the scope in which it stands. -/
  | skipped (construct : Construct) (scope : String)
  /-- A declaration with what stands inside. Its rows are drawn for the kinds that the types in its
  body have; a method has none of its own. -/
  | declaration (winner : Winner) (rows : Option ((String → FieldKind) → List BodyRow))
      (inside : List Outline)

/-- The outline of a member of a oneof of the given owner. -/
def OneofElement.outline (owner : String) : OneofElement → List Outline
  | .field f => [.reference ⟨owner, f.name, f.typeName⟩]
  | .group _ name _ _ _ => [.skipped (.group name) owner]
  | .option _ | .comment _ => []

/-- The outline of an enum. -/
def EnumDecl.outline (site : DeclarationSite) (decl : EnumDecl) : Outline :=
  .declaration
    ⟨site.source, Name.qualify site.scope decl.name, decl.name, .enum, site.parent, none, []⟩
    (some fun _ => decl.rows) []

mutual

/-- The outline of an element of a message body. -/
def MessageElement.outline (site : DeclarationSite) : MessageElement → List Outline
  | .field f => [.reference ⟨site.scope, f.name, f.typeName⟩]
  | .map m => [.reference ⟨site.scope, m.name, m.valueType⟩]
  | .oneof _ members => members.flatMap (OneofElement.outline site.scope)
  | .message name elements _ =>
    let q := Name.qualify site.scope name
    [.declaration
      ⟨site.source, q, name, .message, site.parent, none, elements.flatMap (·.references q)⟩
      (some fun kind => elements.flatMap (·.rows kind)) (bodyOutline (site.inside q) elements)]
  | .enum decl => [decl.outline site]
  | .group _ name _ _ _ => [.skipped (.group name) site.scope]
  | .extend target _ _ => [.skipped (.extend target) site.scope]
  | .reserved _ => []
  | .extensions _ => []
  | .option _ => []
  | .comment _ => []

/-- The outline of a message body. -/
def bodyOutline (site : DeclarationSite) : List MessageElement → List Outline
  | [] => []
  | e :: es => MessageElement.outline site e ++ bodyOutline site es

end

/-- The outline of a method of the given service: the references belong to the service. -/
def Rpc.outline (site : DeclarationSite) (service : String) (rpc : Rpc) : List Outline :=
  .declaration
    ⟨site.source, Name.qualify site.scope rpc.name, rpc.name, .rpc, site.parent,
      some ⟨service, rpc.requestType, rpc.responseType, rpc.clientStreaming,
        rpc.serverStreaming⟩, []⟩
    none [] :: (rpc.references service).map .reference

/-- The outline of a service. -/
def Service.outline (site : DeclarationSite) (decl : Service) : Outline :=
  let q := Name.qualify site.scope decl.name
  .declaration
    ⟨site.source, q, decl.name, .service, site.parent, none,
      decl.rpcs.flatMap (Rpc.references q)⟩
    (some fun kind => decl.rpcs.map (Rpc.row kind))
    (decl.rpcs.flatMap (Rpc.outline (site.inside q) q))

/-- The outline of an element of a file. -/
def FileElement.outline (site : DeclarationSite) : FileElement → List Outline
  | .message decl => MessageElement.outline site (.message decl.name decl.elements decl.line)
  | .enum decl => [decl.outline site]
  | .service decl => [decl.outline site]
  | .extend decl => [.skipped (.extend decl.target) site.scope]
  | .option _ | .comment _ => []

namespace Outline

/-- The outline of a file that stands for the given unit. -/
def ofFile (file : String × SchemaFile) : List Outline :=
  file.2.elements.flatMap (FileElement.outline ⟨file.1, file.2.packageName, none⟩)

/-! ## What an outline leads to -/

mutual

/-- The declarations that hold their names, when others are taken already. -/
def winners : Outline → List String → List Winner
  | .reference _, _ => []
  | .skipped .., _ => []
  | .declaration w _ inside, taken => w.contest (winnersIn inside) taken

/-- The declarations of a list that hold their names. -/
def winnersIn : List Outline → List String → List Winner
  | [], _ => []
  | o :: os, taken =>
    winners o taken ++ winnersIn os (taken ++ (winners o taken).map (·.qualifiedName))

end

/-- The names that an outline takes, when others are taken already. -/
def takes (o : Outline) (taken : List String) : List String :=
  taken ++ (winners o taken).map (·.qualifiedName)

mutual

/-- The names of the declarations that are rejected. What stands inside them is not looked at. -/
def lost : Outline → List String → List String
  | .reference _, _ => []
  | .skipped .., _ => []
  | .declaration w _ inside, taken =>
    if w.qualifiedName ∈ taken then [w.qualifiedName]
    else lostIn inside (taken ++ [w.qualifiedName])

/-- The names of the declarations of a list that are rejected. -/
def lostIn : List Outline → List String → List String
  | [], _ => []
  | o :: os, taken => lost o taken ++ lostIn os (o.takes taken)

end

mutual

/-- The references of the declarations that hold their names, in the order in which they stand. -/
def linked : Outline → List String → List Reference
  | .reference ref, _ => [ref]
  | .skipped .., _ => []
  | .declaration w _ inside, taken =>
    if w.qualifiedName ∈ taken then [] else linkedIn inside (taken ++ [w.qualifiedName])

/-- The references of the declarations of a list that hold their names. -/
def linkedIn : List Outline → List String → List Reference
  | [], _ => []
  | o :: os, taken => linked o taken ++ linkedIn os (o.takes taken)

end

mutual

/-- All declarations, whether they hold their names or not. -/
def declared : Outline → List Winner
  | .reference _ => []
  | .skipped .. => []
  | .declaration w _ inside => w :: declaredIn inside

/-- All declarations of a list. -/
def declaredIn : List Outline → List Winner
  | [] => []
  | o :: os => declared o ++ declaredIn os

end

/-! ## Lists of outlines -/

/-- The names that a list takes. -/
def takesIn (os : List Outline) (taken : List String) : List String :=
  taken ++ (winnersIn os taken).map (·.qualifiedName)

theorem takesIn_cons (o : Outline) (os : List Outline) (taken : List String) :
    takesIn (o :: os) taken = takesIn os (o.takes taken) := by
  rw [takesIn, takesIn, takes, winnersIn, List.map_append, List.append_assoc]

theorem winnersIn_eq_inTurn (os : List Outline) (taken : List String) :
    winnersIn os taken = Winner.inTurn winners os taken := by
  induction os generalizing taken with
  | nil => rfl
  | cons o os ih => rw [winnersIn, Winner.inTurn, ih]

theorem winnersIn_append (os os' : List Outline) (taken : List String) :
    winnersIn (os ++ os') taken = winnersIn os taken ++ winnersIn os' (takesIn os taken) := by
  simp only [winnersIn_eq_inTurn, Winner.inTurn_append, takesIn]

/-- What is collected along a list of outlines, with the names taken up to each of them, is
collected of an initial part first. -/
theorem lostIn_append (os os' : List Outline) (taken : List String) :
    lostIn (os ++ os') taken = lostIn os taken ++ lostIn os' (takesIn os taken) := by
  induction os generalizing taken with
  | nil => simp [lostIn, takesIn, winnersIn]
  | cons o os ih => rw [List.cons_append, lostIn, lostIn, ih, takesIn_cons, List.append_assoc]

theorem linkedIn_append (os os' : List Outline) (taken : List String) :
    linkedIn (os ++ os') taken = linkedIn os taken ++ linkedIn os' (takesIn os taken) := by
  induction os generalizing taken with
  | nil => simp [linkedIn, takesIn, winnersIn]
  | cons o os ih => rw [List.cons_append, linkedIn, linkedIn, ih, takesIn_cons, List.append_assoc]

theorem winnersIn_singleton (o : Outline) (taken : List String) :
    winnersIn [o] taken = winners o taken := by
  rw [winnersIn, winnersIn, List.append_nil]

theorem lostIn_singleton (o : Outline) (taken : List String) :
    lostIn [o] taken = lost o taken := by
  rw [lostIn, lostIn, List.append_nil]

/-! ## The winners of a file -/

theorem inTurn_flatMap {α : Type} {winnersOf : α → List String → List Winner}
    {outline : α → List Outline} {xs : List α}
    (h : ∀ x ∈ xs, ∀ taken, winnersOf x taken = winnersIn (outline x) taken)
    (taken : List String) :
    Winner.inTurn winnersOf xs taken = winnersIn (xs.flatMap outline) taken := by
  induction xs generalizing taken with
  | nil => rfl
  | cons x xs ih =>
    rw [Winner.inTurn, List.flatMap_cons, winnersIn_append, h x (by simp),
      ih fun y hy => h y (by simp [hy])]
    rfl

theorem declaredIn_append (os os' : List Outline) :
    declaredIn (os ++ os') = declaredIn os ++ declaredIn os' := by
  induction os with
  | nil => rfl
  | cons o os ih => rw [List.cons_append, declaredIn, declaredIn, ih, List.append_assoc]

/-- Where nothing is declared, no name is taken or lost. -/
theorem eq_nil_of_declaredIn {os : List Outline} (h : declaredIn os = []) (taken : List String) :
    winnersIn os taken = [] ∧ lostIn os taken = [] := by
  induction os generalizing taken with
  | nil => exact ⟨rfl, rfl⟩
  | cons o os ih =>
    rw [declaredIn, List.append_eq_nil_iff] at h
    have hrest := ih h.2
    rw [winnersIn, lostIn, (hrest _).1, (hrest _).2]
    cases o with
    | reference | skipped => exact ⟨rfl, rfl⟩
    | declaration => cases h.1

theorem declaredIn_oneof (owner : String) (members : List OneofElement) :
    declaredIn (members.flatMap (OneofElement.outline owner)) = [] := by
  induction members with
  | nil => rfl
  | cons member members ih =>
    rw [List.flatMap_cons, declaredIn_append, ih]
    cases member <;> rfl

theorem declaredIn_references (refs : List Reference) :
    declaredIn (refs.map .reference) = [] := by
  induction refs with
  | nil => rfl
  | cons ref refs ih => exact ih

theorem contest_congr {w : Winner} {inside inside' : List String → List Winner}
    {taken : List String} (h : ∀ taken, inside taken = inside' taken) :
    w.contest inside taken = w.contest inside' taken := by
  rw [show inside = inside' from funext h]

mutual

theorem ofElement_eq_winnersIn (site : DeclarationSite) (e : MessageElement)
    (taken : List String) :
    Winner.ofElement site e taken = winnersIn (MessageElement.outline site e) taken := by
  cases e with
  | message name elements line =>
    rw [Winner.ofElement, MessageElement.outline, winnersIn_singleton, winners]
    exact contest_congr fun taken => ofElements_eq_winnersIn _ elements taken
  | enum decl =>
    rw [Winner.ofElement, MessageElement.outline, winnersIn_singleton, EnumDecl.outline, winners]
    exact contest_congr fun _ => rfl
  | oneof name members =>
    rw [MessageElement.outline, (eq_nil_of_declaredIn (declaredIn_oneof _ members) taken).1]
    rfl
  | field | map | reserved | extensions | option | comment | group | extend => rfl

theorem ofElements_eq_winnersIn (site : DeclarationSite) (es : List MessageElement)
    (taken : List String) :
    Winner.ofElements site es taken = winnersIn (bodyOutline site es) taken := by
  cases es with
  | nil => rfl
  | cons e es =>
    rw [Winner.ofElements, bodyOutline, winnersIn_append, ← ofElement_eq_winnersIn,
      ofElements_eq_winnersIn]
    rw [takesIn, ← ofElement_eq_winnersIn]

end

theorem ofRpc_eq_winnersIn (site : DeclarationSite) (service : String) (rpc : Rpc)
    (taken : List String) :
    Winner.ofRpc site service rpc taken = winnersIn (rpc.outline site service) taken := by
  rw [Rpc.outline, winnersIn, winners, (eq_nil_of_declaredIn (declaredIn_references _) _).1,
    List.append_nil]
  exact contest_congr fun _ => rfl

theorem ofService_eq_winners (site : DeclarationSite) (decl : Service) (taken : List String) :
    Winner.ofService site decl taken = winners (decl.outline site) taken := by
  rw [Winner.ofService, Service.outline, winners]
  exact contest_congr (inTurn_flatMap fun rpc _ => ofRpc_eq_winnersIn _ _ rpc)

theorem ofFileElement_eq_winnersIn (site : DeclarationSite) (e : FileElement)
    (taken : List String) :
    Winner.ofFileElement site e taken = winnersIn (e.outline site) taken := by
  cases e with
  | message decl => exact ofElement_eq_winnersIn site _ taken
  | enum decl => exact ofElement_eq_winnersIn site (.enum decl) taken
  | service decl =>
    rw [Winner.ofFileElement, FileElement.outline, winnersIn_singleton, ofService_eq_winners]
  | extend | option | comment => rfl

/-- The winners of a file are those of its outline. -/
theorem ofFile_eq_winnersIn (file : String × SchemaFile) (taken : List String) :
    Winner.ofFile file taken = winnersIn (ofFile file) taken :=
  inTurn_flatMap (fun e _ => ofFileElement_eq_winnersIn _ e) taken

/-- The winners of files are those of their outlines, one after the other. -/
theorem ofFiles_eq_winnersIn (files : List (String × SchemaFile)) :
    Winner.ofFiles files = winnersIn (files.flatMap ofFile) [] :=
  inTurn_flatMap (fun file _ => ofFile_eq_winnersIn file) []

/-- The names taken before one of several files are those that the files before it take. -/
theorem takenBefore_eq_takesIn {first others : List (String × SchemaFile)}
    {file : String × SchemaFile} (hnodup : ((first ++ file :: others).map (·.1)).Nodup) :
    Winner.takenBefore (first ++ file :: others) file.1 = takesIn (first.flatMap ofFile) [] := by
  rw [List.map_append, List.nodup_append, List.map_cons] at hnodup
  rw [Winner.takenBefore_append fun hin => hnodup.2.2 _ hin _ List.mem_cons_self rfl,
    ofFiles_eq_winnersIn]
  rfl

/-! ## Outlines in which no name is lost -/

mutual

/-- Where nothing is rejected, every declaration holds its name. -/
theorem winners_eq_declared {o : Outline} {taken : List String} (h : lost o taken = []) :
    winners o taken = declared o := by
  cases o with
  | reference => rfl
  | skipped => rfl
  | declaration w rows inside =>
    rw [lost] at h
    split at h
    · cases h
    · rename_i hnew
      rw [winners, declared, Winner.contest, if_neg hnew, winnersIn_eq_declaredIn h]

theorem winnersIn_eq_declaredIn {os : List Outline} {taken : List String}
    (h : lostIn os taken = []) : winnersIn os taken = declaredIn os := by
  cases os with
  | nil => rfl
  | cons o os =>
    rw [lostIn, List.append_eq_nil_iff] at h
    rw [winnersIn, declaredIn, winners_eq_declared h.1]
    have hrest := winnersIn_eq_declaredIn h.2
    rw [takes, winners_eq_declared h.1] at hrest
    rw [hrest]

end

mutual

/-- Declarations of distinct names that are not taken are all accepted. -/
theorem lost_eq_nil {o : Outline} {taken : List String}
    (h : (taken ++ (declared o).map (·.qualifiedName)).Nodup) : lost o taken = [] := by
  cases o with
  | reference => rfl
  | skipped => rfl
  | declaration w rows inside =>
    rw [declared, List.map_cons] at h
    have hnew : w.qualifiedName ∉ taken := fun hmem =>
      (List.nodup_append.1 h).2.2 _ hmem _ List.mem_cons_self rfl
    rw [lost, if_neg hnew]
    refine lostIn_eq_nil ?_
    rwa [List.append_assoc]

theorem lostIn_eq_nil {os : List Outline} {taken : List String}
    (h : (taken ++ (declaredIn os).map (·.qualifiedName)).Nodup) : lostIn os taken = [] := by
  cases os with
  | nil => rfl
  | cons o os =>
    rw [declaredIn, List.map_append, ← List.append_assoc] at h
    have hfirst := lost_eq_nil (List.nodup_append.1 h).1
    rw [lostIn, hfirst, List.nil_append]
    refine lostIn_eq_nil ?_
    rwa [takes, winners_eq_declared hfirst]

end

/-! ## Places in a list -/

/-- A winner of a list stands at some place in it. -/
theorem exists_split_of_mem_winnersIn {os : List Outline} {taken : List String} {w : Winner}
    (h : w ∈ winnersIn os taken) :
    ∃ before o after, os = before ++ o :: after ∧ w ∈ winners o (takesIn before taken) := by
  induction os generalizing taken with
  | nil => cases h
  | cons o os ih =>
    rw [winnersIn] at h
    rcases List.mem_append.1 h with h | h
    · exact ⟨[], o, os, rfl, by simpa [takesIn, winnersIn] using h⟩
    · obtain ⟨before, o', after, rfl, hmem⟩ := ih h
      exact ⟨o :: before, o', after, rfl, (takesIn_cons o before taken).symm ▸ hmem⟩

mutual

/-- A name that is lost is that of a declaration. -/
theorem lost_subset_declared (o : Outline) (taken : List String) :
    lost o taken ⊆ (declared o).map (·.qualifiedName) := by
  cases o with
  | reference => exact List.nil_subset _
  | skipped => exact List.nil_subset _
  | declaration w rows inside =>
    rw [lost, declared, List.map_cons]
    split
    · exact List.cons_subset_cons _ (List.nil_subset _)
    · exact List.Subset.trans (lostIn_subset_declaredIn inside _) (List.subset_cons_self _ _)

theorem lostIn_subset_declaredIn (os : List Outline) (taken : List String) :
    lostIn os taken ⊆ (declaredIn os).map (·.qualifiedName) := by
  cases os with
  | nil => exact List.nil_subset _
  | cons o os =>
    rw [lostIn, declaredIn, List.map_append]
    exact List.append_subset.2
      ⟨List.Subset.trans (lost_subset_declared o taken) (List.subset_append_left _ _),
        List.Subset.trans (lostIn_subset_declaredIn os _) (List.subset_append_right _ _)⟩

end

end Outline
end SchemaGraph
