import SchemaGraph.Proofs.Schema.Elements
/-!
# Canonical texts are read back

The statements of a file are read one by one from the words that are written for them, and so
reading the text of a file gives the file (`parseSchema_print`).
-/

namespace SchemaGraph

variable {rest : List Word}

namespace Reader
namespace Takes

/-! ## Services -/

theorem filter_lay (offset : Nat) (ws : List Word) :
    (lay offset ws).filter (!·.token.isComment) = lay offset ws :=
  List.filter_eq_self.2 fun l hl => by rw [isComment_of_mem_lay hl]; rfl

/-- A type behind the keyword does not touch it. -/
theorem atStream_streaming {typeName : String} (h : isTypeName typeName = true) (offset : Nat)
    (ws : List Word) :
    atStream (lay offset (.ident "stream" :: .dotted typeName :: ws)) = true := by
  rw [atStream, filter_lay]
  rcases dottedTokens_cases h with ⟨first, others, htokens⟩ | ⟨others, htokens, -⟩
  · simp [lay, Word.tokens, htokens, Token.lay, Token.source, Token.text, Word.text]
  · simp [lay, Word.tokens, htokens, Token.lay]

/-- A type that starts with the keyword touches the dot behind it, or has no dot behind it. -/
theorem atStream_not {typeName : String} (h : isTypeName typeName = true) (offset : Nat)
    (ws : List Word) :
    atStream (lay offset (.dotted typeName :: .mark .rightParen :: ws)) = false := by
  rw [atStream, filter_lay]
  rcases dottedTokens_cases h with ⟨first, others, htokens⟩ | ⟨others, htokens, -⟩
  · simp [lay, Word.tokens, htokens, Token.lay]
  · cases others with
    | nil => simp [lay, Word.tokens, htokens, Token.lay, furtherTokens]
    | cons second others => simp [lay, Word.tokens, htokens, Token.lay, furtherTokens]

theorem rpcType {streaming : Bool} {typeName : String} (h : isTypeName typeName = true) :
    Takes Reader.rpcType (rpcTypeWords streaming typeName ++ rest) (streaming, typeName) rest := by
  have htype : Takes Reader.dottedName (.dotted typeName :: .mark .rightParen :: rest) typeName
      (.mark .rightParen :: rest) := dottedName h (by simp [Word.tokens])
  cases streaming with
  | true =>
    exact bind expect (bind (look fun offset => atStream_streaming h offset _)
      (pos rfl (bind (advance rfl) (bind htype (bind expect (pure rfl))))))
  | false =>
    exact bind expect (bind (look fun offset => atStream_not h offset _)
      (neg (by decide) (bind htype (bind expect (pure rfl)))))

theorem rpc {decl : Rpc} (h : decl.isPrintable = true) :
    Takes Reader.rpc (decl.words ++ rest) { decl with line := 1 } rest := by
  simp only [Rpc.isPrintable, Bool.and_eq_true, List.isEmpty_iff] at h
  obtain ⟨⟨⟨-, hrequest⟩, hresponse⟩, hoptions⟩ := h
  have hno : Takes Reader.rpcOptions (.mark .semi :: rest) [] rest :=
    bind (eat_not (by simp [Word.tokens])) (neg (by decide) (bind expect (pure rfl)))
  have hwords : decl.words ++ rest = .ident "rpc" :: .ident decl.name ::
      (rpcTypeWords decl.clientStreaming decl.requestType ++ .ident "returns" ::
        (rpcTypeWords decl.serverStreaming decl.responseType ++ .mark .semi :: rest)) := by
    simp [Rpc.words]
  rw [hwords]
  refine bind (line (by simp [Word.tokens])) (bind expectKeyword (bind ident
    (bind (rpcType hrequest) (bind expectKeyword (bind (rpcType hresponse)
    (bind hno (pure ?_)))))))
  rw [← hoptions]

theorem serviceElement {e : ServiceElement} (h : e.isPrintable = true) :
    Takes Reader.serviceElement (e.words ++ rest) e.onLineOne rest := by
  cases e with
  | option | comment => cases h
  | rpc decl =>
    exact bind (atKeyword_not (by simp [ServiceElement.words, Rpc.words, Word.tokens]))
      (neg (by decide) (bind (atKeyword rfl) (pos rfl (bind (rpc h) (pure rfl)))))

theorem service {decl : Service} (h : decl.isPrintable = true) :
    Takes Reader.service (decl.words ++ rest) decl.onLineOne rest := by
  obtain ⟨-, helements⟩ := Bool.and_eq_true_iff.1 h
  rw [List.all_eq_true] at helements
  have hstart : ∀ e ∈ decl.elements, StartsElement e.words := by
    intro e he
    have he := helements e he
    cases e with
    | option | comment => cases he
    | rpc => exact .inl ⟨_, rfl⟩
  exact bind (line (by simp [Service.words, Word.tokens])) (bind expectKeyword (bind ident
    (bind (body hstart fun e he left => serviceElement (helements e he)) (pure rfl))))

/-! ## Statements -/

theorem dialectValue {value : String} :
    Takes Reader.dialectValue (.mark .equals :: .quoted value :: .mark .semi :: rest) value rest :=
  bind expect (bind str (bind expect (pure rfl)))

theorem importDecl (decl : Import) :
    Takes Reader.importDecl (decl.words ++ rest) decl.onLineOne rest := by
  obtain ⟨path, modifier, line⟩ := decl
  have hpath : Takes (do
      let path ← Reader.str
      Reader.expect .semi
      return (⟨path, modifier, 1⟩ : Import)) (.quoted path :: .mark .semi :: rest)
      ⟨path, modifier, 1⟩ rest :=
    bind str (bind expect (pure rfl))
  refine bind (Takes.line (by simp [Import.words, Word.tokens])) (bind expectKeyword ?_)
  cases modifier with
  | plain => exact bind (next (a := some (.str path)) rfl) (neg (not_not_intro rfl) hpath)
  | weak =>
    exact bind (next (a := some (.ident "weak")) rfl) (pos (by decide) (bind (advance rfl) hpath))
  | exported =>
    exact bind (next (a := some (.ident "public")) rfl)
      (pos (by decide) (bind (advance rfl) hpath))

/-- A statement is read by its first word. -/
theorem statement? {s : Statement} (h : s.isPrintable = true) {depth : Nat}
    (hdepth : s.words.length ≤ depth) :
    Takes (Reader.statement? depth) (s.words ++ rest) (some [s.onLineOne]) rest := by
  have hof {keyword : String}
      (hkeyword : (tokensOf (s.words ++ rest)).head? = some (.ident keyword))
      (hs : Takes (Reader.statementOf depth keyword) (s.words ++ rest) s.onLineOne rest) :
      Takes (Reader.statement? depth) (s.words ++ rest) (some [s.onLineOne]) rest :=
    bind (nextOrComment hkeyword) (bind hs (pure rfl))
  -- One case for each keyword with which a statement starts.
  cases s with
  | dialect value =>
    cases value with
    | proto2 =>
      have hread : Takes Reader.numberedDialect (Dialect.proto2.words ++ rest) .proto2 rest :=
        bind expectKeyword (bind dialectValue (pos rfl (pure rfl)))
      exact hof rfl (bind hread (pure rfl))
    | proto3 =>
      have hread : Takes Reader.numberedDialect (Dialect.proto3.words ++ rest) .proto3 rest :=
        bind expectKeyword (bind dialectValue (neg (by decide) (pos rfl (pure rfl))))
      exact hof rfl (bind hread (pure rfl))
    | edition name => exact hof rfl (bind (advance rfl) (bind dialectValue (pure rfl)))
  | package name =>
    exact hof rfl (bind (advance rfl) (bind (dottedName h (by simp [Word.tokens]))
      (bind expect (pure rfl))))
  | imports decl => exact hof rfl (bind (importDecl decl) (pure rfl))
  | element e =>
    cases e with
    | option | comment => cases h
    | enum decl => exact hof rfl (bind (enumDecl h) (pure rfl))
    | service decl => exact hof rfl (bind (service h) (pure rfl))
    | message decl =>
      obtain ⟨-, helements⟩ := Bool.and_eq_true_iff.1 h
      have hinside : (elementWords decl.elements).length ≤ depth :=
        length_inside (rfl : _ = [_, _] ++ _) (Nat.le_succ_of_le hdepth)
      have hbody := messageElements decl.elements helements hinside
      exact hof rfl (bind (messageDecl (messageBody helements hbody)) (pure rfl))
    | extend decl =>
      obtain ⟨htarget, helements⟩ := Bool.and_eq_true_iff.1 h
      have hinside : (elementWords decl.elements).length ≤ depth :=
        length_inside (rfl : _ = [_, _] ++ _) (Nat.le_succ_of_le hdepth)
      have hbody := messageElements decl.elements helements hinside
      exact hof rfl (bind (extendDecl htarget (messageBody helements hbody)) (pure rfl))

theorem tokens_ne_nil {w : Word} (h : w.isReadable = true) : w.tokens ≠ [] := by
  cases w with
  | dotted name =>
    have hne := (startsElement_dotted h []).ne_nil
    rwa [tokensOf_cons, tokensOf_nil, List.append_nil] at hne
  | ident | number | quoted | mark => exact List.cons_ne_nil _ _

theorem startsElement_statement {s : Statement} (h : s.isPrintable = true) :
    StartsElement s.words := by
  cases s with
  | dialect value => cases value <;> exact .inl ⟨_, rfl⟩
  | package | imports => exact .inl ⟨_, rfl⟩
  | element e =>
    cases e with
    | option | comment => cases h
    | message | enum | service | extend => exact .inl ⟨_, rfl⟩

/-- There are no fewer lexemes than words, so they are enough for all bodies. -/
theorem length_words_le {ss : List Statement} (h : ∀ s ∈ ss, s.isPrintable = true) (offset : Nat)
    {s : Statement} (hs : s ∈ ss) :
    s.words.length ≤ (lay offset (ss.flatMap Statement.words)).length := by
  have hpart : s.words.length ≤ (ss.flatMap Statement.words).length := by
    obtain ⟨before, after, rfl⟩ := List.append_of_mem hs
    simp only [List.flatMap_append, List.flatMap_cons, List.length_append]
    omega
  have hwords : (ss.flatMap Statement.words).length ≤
      (tokensOf ((ss.flatMap Statement.words).flatMap fun w => [w])).length := by
    refine length_le_tokensOf fun w hw => ?_
    rw [tokensOf_cons, tokensOf_nil, List.append_nil]
    exact tokens_ne_nil (readable_flatMap (fun s hs => Statement.readable (h s hs)) w hw)
  rw [List.flatMap_singleton'] at hwords
  rw [length_lay]
  exact Nat.le_trans hpart hwords

theorem statements {ss : List Statement} (h : ∀ s ∈ ss, s.isPrintable = true) :
    Takes Reader.statements (ss.flatMap Statement.words) (ss.map Statement.onLineOne) [] := by
  intro offset
  -- The depth that the reader allows depends on where the words stand only by their number.
  let depth := (lay offset (ss.flatMap Statement.words)).length
  have hgroups : Takes (Reader.repeated (Reader.statement? depth))
      (ss.flatMap Statement.words ++ []) (ss.map fun s => [s.onLineOne]) [] :=
    repeated (fun _ => True) (fun s hs => (startsElement_statement (h s hs)).ne_nil)
      (fun s hs left _ => statement? (h s hs) (length_words_le h offset hs))
      (fun _ _ _ => trivial) trivial (bind (nextOrComment rfl) (pure rfl))
  have hread : Takes (statementsWithin depth) (ss.flatMap Statement.words ++ [])
      (ss.map Statement.onLineOne) [] := by
    refine bind hgroups (pure ?_)
    rw [← List.flatMap_def, List.map_eq_flatMap]
  rw [List.append_nil] at hread
  exact hread offset

end Takes
end Reader

namespace SchemaFile

theorem foldl_add_imports (file : SchemaFile) (imports : List Import) :
    (imports.map Statement.imports).foldl add file =
      { file with imports := file.imports ++ imports } := by
  induction imports generalizing file with
  | nil => simp
  | cons i imports ih =>
    rw [List.map_cons, List.foldl_cons, ih]
    simp [add]

theorem foldl_add_elements (file : SchemaFile) (elements : List FileElement) :
    (elements.map Statement.element).foldl add file =
      { file with elements := file.elements ++ elements } := by
  induction elements generalizing file with
  | nil => simp
  | cons e elements ih =>
    rw [List.map_cons, List.foldl_cons, ih]
    simp [add]

/-- The statements of a file declare the file again. -/
theorem ofStatements_statements (file : SchemaFile) : ofStatements file.statements = file := by
  rw [ofStatements, statements, List.foldl_cons, List.foldl_append, List.foldl_append,
    foldl_add_imports, foldl_add_elements]
  obtain ⟨dialect, package, imports, elements⟩ := file
  cases package <;> rfl

theorem statements_onLineOne (file : SchemaFile) :
    file.statements.map Statement.onLineOne = file.onLineOne.statements := by
  simp [statements, onLineOne, Statement.onLineOne, Function.comp_def]

end SchemaFile

/--
**A file is read back from its text.** Whatever keywords its names and types are, and however deep
its bodies are nested, reading the canonical text of a file gives the file, all on line 1.
-/
theorem parseSchema_print (path : String) {file : SchemaFile} (h : file.isPrintable = true) :
    parseSchema path file.print = .ok file.onLineOne := by
  have hprintable : ∀ s ∈ file.statements, s.isPrintable = true := List.all_eq_true.1 h
  have hreadable := readable_flatMap fun s hs => Statement.readable (hprintable s hs)
  obtain ⟨_, hread⟩ := Reader.Takes.statements hprintable 0
  unfold parseSchema
  rw [SchemaFile.print, tokenize_spaced hreadable]
  simp only [hread]
  rw [SchemaFile.statements_onLineOne, SchemaFile.ofStatements_statements]

/-- Keywords as names and types: a field of the type `extend.message`, one with the label and the
type `optional`, a value `reserved`, and the types `stream` and `stream.S`, streamed and not. -/
def keywordFile : SchemaFile where
  dialect := .proto2
  package := some "package"
  imports := [⟨"weak", .weak, 1⟩]
  elements := [
    .message ⟨"message", [
      .field ⟨.unlabelled, "extend.message", "option", 1, none, 1⟩,
      .field ⟨.optional, "optional", "map", 2, none, 1⟩,
      .oneof "oneof" [.group .unlabelled "group" 3 [.map ⟨"map", "map", "map", 4, none, 1⟩] 1],
      .enum ⟨"enum", [.value ⟨"reserved", -1⟩, .reserved [.range 2 (some 3), .name "to"]], 1⟩], 1⟩,
    .service ⟨"service", [.rpc ⟨"rpc", "stream", "stream.S", true, false, [], 1⟩], 1⟩]

theorem parseSchema_print_keywordFile :
    keywordFile.isPrintable = true ∧
      keywordFile.print = "syntax = \"proto2\" ; package package ; import weak \"weak\" ; " ++
        "message message \x7b extend.message option = 1 ; optional optional map = 2 ; " ++
        "oneof oneof \x7b group group = 3 \x7b map < map , map > map = 4 ; \x7d \x7d " ++
        "enum enum \x7b reserved = - 1 ; reserved 2 to 3 , \"to\" ; \x7d \x7d " ++
        "service service \x7b rpc rpc ( stream stream ) returns ( stream.S ) ; \x7d" ∧
      parseSchema "k.proto" keywordFile.print = .ok keywordFile :=
  ⟨by decide +kernel, by decide +kernel, parseSchema_print "k.proto" (by decide +kernel)⟩

end SchemaGraph
