import SchemaGraph.Proofs.Schema.Reading
/-!
# Texts without their comments

`significant` leaves out the comments among the lexemes of a text, and `uncommented` leaves out the
comments among the elements of a declaration tree, at whatever depth they stand. Everything that
readers look at before they take a lexeme is looked up among the significant lexemes.
-/

namespace SchemaGraph

/-- The lexemes that are no comments. -/
def significant (ts : List Lexeme) : List Lexeme :=
  ts.filter (!·.token.isComment)

section

variable {t : Lexeme} {ts : List Lexeme}

@[simp] theorem significant_nil : significant [] = [] :=
  rfl

theorem significant_comment (h : t.token.isComment = true) :
    significant (t :: ts) = significant ts := by
  simp [significant, h]

theorem significant_cons (h : t.token.isComment = false) :
    significant (t :: ts) = t :: significant ts := by
  simp [significant, h]

theorem isComment_of_mem_significant (h : t ∈ significant ts) : t.token.isComment = false := by
  have hkept := (List.mem_filter.1 h).2
  simpa using hkept

theorem significant_significant : significant (significant ts) = significant ts := by
  simp [significant]

theorem length_significant_le (ts : List Lexeme) : (significant ts).length ≤ ts.length :=
  List.length_filter_le _ ts

/-- What is left behind a significant lexeme, once one significant lexeme has been taken. -/
theorem length_le_of_taken {rest : List Lexeme} (ht : t.token.isComment = false)
    (hrest : rest <:+ t :: ts) (hfewer : (significant rest).length ≤ (significant ts).length) :
    rest.length ≤ ts.length := by
  rcases List.suffix_cons_iff.1 hrest with rfl | hrest
  · rw [significant_cons ht] at hfewer
    exact absurd hfewer (Nat.not_succ_le_self _)
  · exact hrest.length_le

/-! ## Looking ahead -/

theorem skipComments_significant : skipComments (significant ts) = significant ts :=
  skipComments_eq_self fun _ => isComment_of_mem_significant

/-- Skipping comments stops at the first significant lexeme. -/
theorem significant_skipComments :
    (skipComments ts).head? = (significant ts).head? ∧
      significant (skipComments ts).tail = (significant ts).tail := by
  induction ts with
  | nil => exact ⟨rfl, rfl⟩
  | cons t ts ih =>
    by_cases ht : t.token.isComment = true
    · have hskip : skipComments (t :: ts) = skipComments ts := by simp [skipComments, ht]
      rw [hskip, significant_comment ht]
      exact ih
    · have ht : t.token.isComment = false := by simpa using ht
      have hskip : skipComments (t :: ts) = t :: ts := by simp [skipComments, ht]
      rw [hskip, significant_cons ht]
      exact ⟨rfl, rfl⟩

theorem peek_eq_significant : peek ts = (significant ts).head?.map (·.token) := by
  rw [peek, significant_skipComments.1]

@[simp] theorem peek_significant : peek (significant ts) = peek ts := by
  rw [peek_eq_significant, significant_significant, peek_eq_significant]

@[simp] theorem nextLine?_significant : nextLine? (significant ts) = nextLine? ts := by
  rw [nextLine?, nextLine?, skipComments_significant, significant_skipComments.1]

theorem ahead_eq_significant (n : Nat) :
    ahead n ts = ((significant ts).map (·.token)).take n := by
  induction ts generalizing n with
  | nil => cases n <;> rfl
  | cons t ts ih =>
    cases n with
    | zero => rfl
    | succ n =>
      by_cases ht : t.token.isComment = true
      · rw [ahead, if_pos ht, significant_comment ht]
        exact ih (n + 1)
      · rw [ahead, if_neg ht, significant_cons (by simpa using ht), ih n]
        rfl

@[simp] theorem ahead_significant (n : Nat) : ahead n (significant ts) = ahead n ts := by
  rw [ahead_eq_significant, significant_significant, ahead_eq_significant]

/-- All that is ahead is all that is significant. -/
theorem ahead_length {n : Nat} (h : (significant ts).length ≤ n) :
    ahead n ts = (significant ts).map (·.token) := by
  rw [ahead_eq_significant, List.take_of_length_le]
  simpa using h

@[simp] theorem atStream_significant : Reader.atStream (significant ts) = Reader.atStream ts := by
  have hfilter : (significant ts).filter (!·.token.isComment) = ts.filter (!·.token.isComment) :=
    significant_significant
  unfold Reader.atStream
  rw [hfilter]

theorem length_significant_pos_of_peek {token : Token} (h : peek ts = some token) :
    0 < (significant ts).length := by
  rw [peek_eq_significant] at h
  cases hts : significant ts with
  | nil =>
    rw [hts] at h
    cases h
  | cons t rest => exact Nat.succ_pos _

end

/-! ## Significant tokens -/

/-- The tokens that are no comments. -/
def significantTokens (ts : List Lexeme) : List Token :=
  (significant ts).map (·.token)

section

variable {ts : List Lexeme} {t : Lexeme}

theorem significantTokens_comment (h : t.token.isComment = true) :
    significantTokens (t :: ts) = significantTokens ts := by
  rw [significantTokens, significantTokens, significant_comment h]

theorem significantTokens_cons (h : t.token.isComment = false) :
    significantTokens (t :: ts) = t.token :: significantTokens ts := by
  rw [significantTokens, significantTokens, significant_cons h, List.map_cons]

theorem head?_significantTokens : (significantTokens ts).head? = peek ts := by
  rw [significantTokens, List.head?_map, peek_eq_significant]

theorem head?_ahead (n : Nat) : (ahead (n + 1) ts).head? = peek ts := by
  rw [ahead_eq_significant, List.head?_take, if_neg (Nat.succ_ne_zero n)]
  exact head?_significantTokens

/-- The next token is the first one. -/
theorem significantTokens_of_peek {token : Token} (h : peek ts = some token) :
    significantTokens ts = token :: significantTokens (skipComments ts).tail := by
  unfold significantTokens
  rw [significant_skipComments.2, List.map_tail]
  exact (List.cons_head?_tail (head?_significantTokens.trans h)).symm

end

/-! ## Declaration trees without comments -/

/-- The element, or none for a comment. -/
def EnumElement.uncommented? : EnumElement → Option EnumElement
  | comment _ => none
  | element => some element

/-- The declaration without the comments in its body. -/
def EnumDecl.uncommented (decl : EnumDecl) : EnumDecl :=
  { decl with elements := decl.elements.filterMap EnumElement.uncommented? }

/-- The element, or none for a comment. -/
def ServiceElement.uncommented? : ServiceElement → Option ServiceElement
  | comment _ => none
  | element => some element

/-- The service without the comments in its body. -/
def Service.uncommented (decl : Service) : Service :=
  { decl with elements := decl.elements.filterMap ServiceElement.uncommented? }

mutual

/-- The element without the comments in its bodies, or none for a comment. -/
def MessageElement.uncommented? : MessageElement → Option MessageElement
  | .field field => some (.field field)
  | .map field => some (.map field)
  | .oneof name members => some (.oneof name (membersUncommented members))
  | .enum decl => some (.enum decl.uncommented)
  | .message name elements line => some (.message name (elementsUncommented elements) line)
  | .reserved items => some (.reserved items)
  | .extensions items => some (.extensions items)
  | .option decl => some (.option decl)
  | .comment _ => none
  | .group label name number elements line =>
    some (.group label name number (elementsUncommented elements) line)
  | .extend target elements line => some (.extend target (elementsUncommented elements) line)

/-- The elements of a message body without the comments among them and in their bodies. -/
def elementsUncommented : List MessageElement → List MessageElement
  | [] => []
  | e :: es => e.uncommented?.toList ++ elementsUncommented es

/-- The member of a oneof without the comments in its body, or none for a comment. -/
def OneofElement.uncommented? : OneofElement → Option OneofElement
  | .field field => some (.field field)
  | .option decl => some (.option decl)
  | .comment _ => none
  | .group label name number elements line =>
    some (.group label name number (elementsUncommented elements) line)

/-- The members of a oneof without the comments among them and in their bodies. -/
def membersUncommented : List OneofElement → List OneofElement
  | [] => []
  | member :: members => member.uncommented?.toList ++ membersUncommented members

end

theorem filterMap_cons_eq_append {α β : Type} (f : α → Option β) (a : α) (as : List α) :
    (a :: as).filterMap f = (f a).toList ++ as.filterMap f := by
  cases h : f a with
  | none => rw [List.filterMap_cons_none h, Option.toList_none, List.nil_append]
  | some b => rw [List.filterMap_cons_some h, Option.toList_some, List.singleton_append]

theorem elementsUncommented_eq_filterMap (es : List MessageElement) :
    elementsUncommented es = es.filterMap MessageElement.uncommented? := by
  induction es with
  | nil => rfl
  | cons e es ih => rw [elementsUncommented, ih, filterMap_cons_eq_append]

theorem membersUncommented_eq_filterMap (members : List OneofElement) :
    membersUncommented members = members.filterMap OneofElement.uncommented? := by
  induction members with
  | nil => rfl
  | cons member members ih => rw [membersUncommented, ih, filterMap_cons_eq_append]

/-- The message without the comments in its body. -/
def Message.uncommented (decl : Message) : Message :=
  { decl with elements := decl.elements.filterMap MessageElement.uncommented? }

/-- The extension without the comments in its body. -/
def Extend.uncommented (decl : Extend) : Extend :=
  { decl with elements := decl.elements.filterMap MessageElement.uncommented? }

/-- The declaration without the comments in its body, or none for a comment. -/
def FileElement.uncommented? : FileElement → Option FileElement
  | message decl => some (message decl.uncommented)
  | enum decl => some (enum decl.uncommented)
  | service decl => some (service decl.uncommented)
  | extend decl => some (extend decl.uncommented)
  | option decl => some (option decl)
  | comment _ => none

/-- The statement without the comments in its body, or none for a comment. -/
def Statement.uncommented? : Statement → Option Statement
  | dialect d => some (dialect d)
  | package name => some (package name)
  | imports decl => some (imports decl)
  | element e => e.uncommented?.map element

namespace SchemaFile

/-- The file without its comments. -/
def uncommented (file : SchemaFile) : SchemaFile :=
  { file with elements := file.elements.filterMap FileElement.uncommented? }

theorem uncommented_add (file : SchemaFile) (s : Statement) :
    (file.add s).uncommented = s.uncommented?.elim file.uncommented file.uncommented.add := by
  cases s with
  | dialect d => rfl
  | package name => rfl
  | imports decl => rfl
  | element e =>
    simp only [add, uncommented, Statement.uncommented?, List.filterMap_append]
    cases he : e.uncommented? with
    | none => simp [he]
    | some e' => simp [he, add]

/-- A file loses its comments with those among the statements that declare it. -/
theorem uncommented_ofStatements (ss : List Statement) :
    (ofStatements ss).uncommented = ofStatements (ss.filterMap Statement.uncommented?) := by
  have hfrom (file : SchemaFile) : (ss.foldl add file).uncommented =
      (ss.filterMap Statement.uncommented?).foldl add file.uncommented := by
    induction ss generalizing file with
    | nil => rfl
    | cons s ss ih =>
      rw [List.foldl_cons, ih, uncommented_add]
      cases hs : s.uncommented? with
      | none => rw [List.filterMap_cons_none hs, Option.elim_none]
      | some s' => rw [List.filterMap_cons_some hs, Option.elim_some, List.foldl_cons]
  exact hfrom empty

end SchemaFile
end SchemaGraph
