import SchemaGraph.Proofs.Schema.Matching
import SchemaGraph.Proofs.Schema.Names
import SchemaGraph.Proofs.Schema.Numbers
import SchemaGraph.Proofs.Token.Rereading
/-!
# The recorded texts of options

A file keeps the value of an option, and the options in brackets behind a number, as a text: the
texts of the tokens that stand there, with one space between two of them (`RecordedIn`). Reading
such a text gives these tokens again, but for the characters of literals that are not written back
(`tokenize_recorded`).
-/

namespace SchemaGraph

/-! ## Recorded texts -/

/-- The texts of options in an element of an enum body. -/
def EnumElement.optionTexts : EnumElement → List String
  | option decl => [decl.value]
  | value _ | reserved _ | comment _ => []

/-- The texts of options in an enum. -/
def EnumDecl.optionTexts (decl : EnumDecl) : List String :=
  decl.elements.flatMap EnumElement.optionTexts

mutual

/-- The texts of options in an element of a message body: the values of statements, and the texts in
brackets that fields keep. -/
def MessageElement.optionTexts : MessageElement → List String
  | .field field => field.options.toList
  | .map field => field.options.toList
  | .oneof _ members => memberOptionTexts members
  | .enum decl => decl.optionTexts
  | .message _ elements _ => elementOptionTexts elements
  | .reserved _ => []
  | .extensions _ => []
  | .option decl => [decl.value]
  | .comment _ => []
  | .group _ _ _ elements _ => elementOptionTexts elements
  | .extend _ elements _ => elementOptionTexts elements

/-- The texts of options in a message body. -/
def elementOptionTexts : List MessageElement → List String
  | [] => []
  | e :: es => e.optionTexts ++ elementOptionTexts es

/-- The texts of options in a member of a oneof. -/
def OneofElement.optionTexts : OneofElement → List String
  | .field field => field.options.toList
  | .option decl => [decl.value]
  | .comment _ => []
  | .group _ _ _ elements _ => elementOptionTexts elements

/-- The texts of options in the body of a oneof. -/
def memberOptionTexts : List OneofElement → List String
  | [] => []
  | member :: members => member.optionTexts ++ memberOptionTexts members

end

theorem elementOptionTexts_eq_flatMap (es : List MessageElement) :
    elementOptionTexts es = es.flatMap MessageElement.optionTexts := by
  induction es with
  | nil => rfl
  | cons e es ih => rw [elementOptionTexts, ih, List.flatMap_cons]

theorem memberOptionTexts_eq_flatMap (members : List OneofElement) :
    memberOptionTexts members = members.flatMap OneofElement.optionTexts := by
  induction members with
  | nil => rfl
  | cons member members ih => rw [memberOptionTexts, ih, List.flatMap_cons]

/-- The texts of options in an element of a service body. -/
def ServiceElement.optionTexts : ServiceElement → List String
  | rpc decl => decl.options.map (·.value)
  | option decl => [decl.value]
  | comment _ => []

/-- The texts of options in a declaration. -/
def FileElement.optionTexts : FileElement → List String
  | message decl => elementOptionTexts decl.elements
  | enum decl => decl.optionTexts
  | service decl => decl.elements.flatMap ServiceElement.optionTexts
  | extend decl => elementOptionTexts decl.elements
  | option decl => [decl.value]
  | comment _ => []

/-- The texts of options in a file. -/
def SchemaFile.optionTexts (file : SchemaFile) : List String :=
  file.elements.flatMap FileElement.optionTexts

/-! ## Where they come from -/

/-- A run of the tokens that is the value of an option statement, or stands between the brackets of
options. -/
inductive RecordedRun (ts : List Token) : (run : List Token) → Prop where
  | value {u name run v : List Token} (rawName : IsRaw .equals name) (raw : IsRaw .semi run)
      (cut : ts = u ++ .ident "option" :: name ++ .mark .equals :: run ++ .mark .semi :: v) :
      RecordedRun ts run
  | bracketed {u run v : List Token} (raw : IsRaw .rightBracket run)
      (cut : ts = u ++ .mark .leftBracket :: run ++ .mark .rightBracket :: v) : RecordedRun ts run

theorem RecordedRun.subset {ts run : List Token} (h : RecordedRun ts run) : run ⊆ ts := by
  intro t ht
  cases h with
  | value _ _ cut | bracketed _ cut => simp [cut, ht]

/-- The text is that of the run, which stands among the lexemes. -/
structure RecordedFrom (whole : List Lexeme) (text : String) (run : List Token) : Prop where
  recorded : RecordedRun (significantTokens whole) run
  text_eq : text = String.intercalate " " (run.map Token.text)

/-- All texts of a list come from the lexemes. -/
def AllRecorded (whole : List Lexeme) (texts : List String) : Prop :=
  ∀ text ∈ texts, ∃ run, RecordedFrom whole text run

namespace AllRecorded

variable {α : Type} {whole : List Lexeme} {text : String} {texts : List String}

theorem nil : AllRecorded whole [] :=
  nofun

theorem singleton {run : List Token} (h : RecordedFrom whole text run) :
    AllRecorded whole [text] :=
  List.forall_mem_singleton.2 ⟨run, h⟩

theorem flatMap {f : α → List String} {as : List α} (h : ∀ a ∈ as, AllRecorded whole (f a)) :
    AllRecorded whole (as.flatMap f) := by
  intro text htext
  obtain ⟨a, ha, htext⟩ := List.mem_flatMap.1 htext
  exact h a ha text htext

theorem elements {es : List MessageElement} (h : ∀ e ∈ es, AllRecorded whole e.optionTexts) :
    AllRecorded whole (elementOptionTexts es) :=
  elementOptionTexts_eq_flatMap es ▸ flatMap h

theorem members {es : List OneofElement} (h : ∀ e ∈ es, AllRecorded whole e.optionTexts) :
    AllRecorded whole (memberOptionTexts es) :=
  memberOptionTexts_eq_flatMap es ▸ flatMap h

end AllRecorded

namespace Reader.Gives.OptionTexts

variable {α : Type} {whole : List Lexeme}

/-- The tokens of the rest of the lexemes end those of the lexemes. -/
theorem exists_significantTokens {ts : List Lexeme} (h : IsRest whole ts) :
    ∃ u, significantTokens whole = u ++ significantTokens ts := by
  obtain ⟨before, rfl⟩ := h
  exact ⟨significantTokens before, by simp [significantTokens, significant]⟩

/-! ## Options -/

theorem optionDecl :
    Gives (IsRest whole) (fun decl => AllRecorded whole [decl.value]) Reader.optionDecl := by
  intro ts decl rest hts h
  obtain ⟨name, run, hname, hrun, htext, htokens⟩ := Matches.isRaw_of_optionDecl h
  obtain ⟨u, hwhole⟩ := exists_significantTokens hts
  rw [htokens] at hwhole
  exact .singleton ⟨.value hname hrun (by simpa using hwhole), htext⟩

theorem bracketedOptions : Gives (IsRest whole) (fun text => AllRecorded whole text.toList)
    Reader.bracketedOptions := by
  intro ts text rest hts h
  rcases Matches.isRaw_of_bracketedOptions h with ⟨rfl, -⟩ | ⟨run, hrun, rfl, htokens⟩
  · exact .nil
  · obtain ⟨u, hwhole⟩ := exists_significantTokens hts
    rw [htokens] at hwhole
    exact .singleton ⟨.bracketed hrun (by simpa using hwhole), rfl⟩

/-! ## Declarations -/

theorem fieldAfterLabel (label : FieldLabel) (line : Nat) :
    Gives (IsRest whole) (fun field => AllRecorded whole field.options.toList)
      (Reader.fieldAfterLabel label line) :=
  after .dottedName fun _ => after .ident fun _ => after (.expect _) fun _ =>
    after .fieldNumber fun _ => bind bracketedOptions .bracketedOptions fun _ hoptions =>
    after (.expect _) fun _ => .pure hoptions

theorem mapField :
    Gives (IsRest whole) (fun field => AllRecorded whole field.options.toList) Reader.mapField :=
  after .line fun _ => after (.expectKeyword _) fun _ => after (.expect _) fun _ =>
    after .dottedName fun _ => after (.expect _) fun _ => after .dottedName fun _ =>
    after (.expect _) fun _ => after .ident fun _ => after (.expect _) fun _ =>
    after .fieldNumber fun _ => bind bracketedOptions .bracketedOptions fun _ hoptions =>
    after (.expect _) fun _ => .pure hoptions

theorem enumElement :
    Gives (IsRest whole) (fun e => AllRecorded whole e.optionTexts) Reader.enumElement := by
  refine after (.look (ahead 2)) fun start => ?_
  split
  · exact map optionDecl .optionDecl fun _ h => h
  · split
    · exact after .advance fun _ => after .reservedItems fun _ => after (.expect _) fun _ =>
        .pure .nil
    · exact after .ident fun _ => after (.expect _) fun _ => after .integer fun _ =>
        after .bracketedOptions fun _ => after (.expect _) fun _ => .pure .nil

theorem enumDecl :
    Gives (IsRest whole) (fun decl => AllRecorded whole decl.optionTexts) Reader.enumDecl :=
  after .line fun _ => after (.expectKeyword _) fun _ => after .ident fun _ =>
    map (body _ (fun _ => .nil) enumElement .enumElement) (.body _ _ .enumElement)
      fun _ helements => .flatMap helements

/-- Option statements keep a text, and so do the fields with options in brackets. -/
theorem elementLaws : ElementLaws (IsRest whole) (fun e => AllRecorded whole e.optionTexts)
    (fun member => AllRecorded whole member.optionTexts) where
  comment _ := ⟨.nil, .nil⟩
  optionDecl := mono optionDecl fun _ h => ⟨h, h⟩
  field label line := mono (fieldAfterLabel label line) fun _ h => ⟨h, h⟩
  mapField := mapField
  items := of_forall fun _ => ⟨.nil, .nil⟩
  enumDecl := enumDecl
  message := of_forall fun _ _ _ => .elements
  group := of_forall fun _ _ _ _ _ helements => ⟨.elements helements, .elements helements⟩
  oneof _ _ := .members
  extend _ _ _ := .elements

/-! ## Services and files -/

theorem rpcOptions : Gives (IsRest whole)
    (fun options => AllRecorded whole (options.map (·.value))) Reader.rpcOptions := by
  refine after (.eat _) fun brace => ?_
  split
  · -- Comments in the braces are left out.
    have helement : Gives (IsRest whole)
        (fun item : Option OptionDecl => ∀ decl, item = some decl → AllRecorded whole [decl.value])
        (some <$> Reader.optionDecl) :=
      map optionDecl .optionDecl fun _ hdecl _ heq => Option.some.inj heq ▸ hdecl
    have hfront : TakesFront (some <$> Reader.optionDecl) := .map .optionDecl some
    have hitems : Gives (IsRest whole) (fun items : List (Option OptionDecl) =>
        ∀ item ∈ items, ∀ decl, item = some decl → AllRecorded whole [decl.value])
        (Reader.elements .rpc (fun _ => none) (some <$> Reader.optionDecl)) :=
      fun ts items rest hts h =>
        elementsWithin .rpc (fun _ _ => nofun) helement hfront ts ts items rest hts h
    refine bind hitems (.elements _ _ hfront) fun items hitems => after (.eat _) fun _ => .pure ?_
    intro text htext
    obtain ⟨decl, hdecl, rfl⟩ := List.mem_map.1 htext
    obtain ⟨item, hitem, heq⟩ := List.mem_filterMap.1 hdecl
    exact hitems item hitem decl heq _ (.head _)
  · exact after (.expect _) fun _ => .pure .nil

theorem rpc : Gives (IsRest whole) (fun decl => AllRecorded whole (decl.options.map (·.value)))
    Reader.rpc :=
  after .line fun _ => after (.expectKeyword _) fun _ => after .ident fun _ =>
    after .rpcType fun _ => after (.expectKeyword _) fun _ => after .rpcType fun _ =>
    map rpcOptions .rpcOptions fun _ h => h

theorem serviceElement : Gives (IsRest whole) (fun e => AllRecorded whole e.optionTexts)
    Reader.serviceElement := by
  refine after (.atKeyword _) fun isOption => ite (map optionDecl .optionDecl fun _ h => h) ?_
  exact after (.atKeyword _) fun isRpc => ite (map rpc .rpc fun _ h => h) (.refuseNext _)

theorem service : Gives (IsRest whole)
    (fun decl => AllRecorded whole (decl.elements.flatMap ServiceElement.optionTexts))
    Reader.service :=
  after .line fun _ => after (.expectKeyword _) fun _ => after .ident fun _ =>
    map (body _ (fun _ => .nil) serviceElement .serviceElement) (.body _ _ .serviceElement)
      fun _ helements => .flatMap helements

theorem fileLaws : FileLaws (IsRest whole) (fun e => AllRecorded whole e.optionTexts)
    (fun member => AllRecorded whole member.optionTexts)
    (fun e => AllRecorded whole e.optionTexts) where
  toElementLaws := elementLaws
  fileComment _ := .nil
  fileOption _ h := h
  fileMessage _ h := h
  fileEnum _ h := h
  fileExtend _ h := h
  service := service

end Reader.Gives.OptionTexts

/-! ## Recorded texts, read again -/

variable {source text : String} {lexemes : List Lexeme} {run : List Token}

/-- The tokens of a run come from the source, and none of them is a comment. -/
theorem RecordedRun.isRead (h : RecordedRun (significantTokens lexemes) run)
    (htokenize : tokenize source = .ok lexemes) : ∀ t ∈ run, t.IsRead ∧ t.isComment = false := by
  intro t ht
  obtain ⟨l, hl, rfl⟩ := List.mem_map.1 (h.subset ht)
  exact ⟨isRead_of_mem htokenize (List.mem_of_mem_filter hl), isComment_of_mem_significant hl⟩

theorem map_reread_eq_self_iff :
    run.map Token.reread = run ↔ ∀ t ∈ run, t.isWrittenBack = true := by
  induction run with
  | nil => simp
  | cons t run ih =>
    rw [List.map_cons, List.cons.injEq, ih, Token.reread_eq_self_iff, List.forall_mem_cons]

/--
**Token texts are read again.** The text of each token of a source is one token, `Token.reread` of
it. The text that a file keeps of an option is that of a run of tokens of its source, and reading it
gives `Token.reread` of each of them. In both cases these are the tokens themselves exactly if all
characters of their literals are written back.
-/
theorem tokenize_recorded (h : tokenize source = .ok lexemes) :
    (∀ l ∈ lexemes,
      tokenize l.token.text =
        .ok [⟨l.token.reread, ⟨0, byteLength l.token.text.toList⟩, 1⟩] ∧
      (l.token.reread = l.token ↔ l.token.isWrittenBack = true)) ∧
    ∀ path file, parseSchema path source = .ok file → ∀ text ∈ file.optionTexts,
      ∃ run, RecordedFrom lexemes text run ∧
        ∃ lexemes', tokenize text = .ok lexemes' ∧
          lexemes'.map (·.token) = run.map Token.reread ∧
          (lexemes'.map (·.token) = run ↔ ∀ t ∈ run, t.isWrittenBack = true) := by
  refine ⟨fun l hl => ⟨(isRead_of_mem h hl).tokenize_text, Token.reread_eq_self_iff⟩,
    fun path file hfile text htext => ?_⟩
  obtain ⟨lexemes', statements, rest, htokenize, hread, rfl⟩ :=
    exists_statements_of_parseSchema hfile
  obtain rfl : lexemes' = lexemes := Except.ok.inj (htokenize.symm.trans h)
  obtain ⟨e, he, htext⟩ := List.mem_flatMap.1 htext
  have hstatements := Reader.Gives.OptionTexts.fileLaws.statements lexemes' statements rest
    (List.suffix_refl lexemes') hread
  obtain ⟨run, hrun⟩ :=
    hstatements _ (SchemaFile.mem_elements_ofStatements.1 he) e rfl text htext
  obtain ⟨others, hothers, htokens⟩ := tokenize_joined (hrun.recorded.isRead htokenize)
  refine ⟨run, hrun, others, hrun.text_eq ▸ hothers, htokens, ?_⟩
  rw [htokens, map_reread_eq_self_iff]

/-- A field whose options in brackets have a literal in single quotes. -/
def bracketedText : String :=
  "message M \x7b int32 x = 1 [(a) = 'it']; \x7d"

/-- The literal is recorded in double quotes, and read again as itself. -/
theorem tokenize_recorded_bracketedText : ∃ lexemes, tokenize bracketedText = .ok lexemes ∧
    (∀ l ∈ lexemes, tokenize l.token.text =
      .ok [⟨l.token.reread, ⟨0, byteLength l.token.text.toList⟩, 1⟩]) ∧
    ∃ run, RecordedFrom lexemes "( a ) = \"it\"" run ∧
      ∃ lexemes', tokenize "( a ) = \"it\"" = .ok lexemes' ∧
        lexemes'.map (·.token) = run.map Token.reread := by
  have hread : (parseSchema "a" bracketedText).map SchemaFile.optionTexts =
      .ok ["( a ) = \"it\""] := by decide +kernel
  cases hfile : parseSchema "a" bracketedText with
  | error complaint =>
    rw [hfile] at hread
    cases hread
  | ok file =>
    obtain ⟨lexemes, _, _, htokenize, -⟩ := exists_statements_of_parseSchema hfile
    rw [hfile] at hread
    have htext : "( a ) = \"it\"" ∈ file.optionTexts := by
      have htexts : file.optionTexts = _ := Except.ok.inj hread
      rw [htexts]
      exact .head _
    obtain ⟨htokens, hrecorded⟩ := tokenize_recorded htokenize
    obtain ⟨run, hrun, lexemes', hagain, hmap, -⟩ := hrecorded "a" file hfile _ htext
    exact ⟨lexemes, htokenize, fun l hl => (htokens l hl).1, run, hrun, lexemes', hagain, hmap⟩

/-- A literal of one character that does not print on its own. -/
def controlText : String :=
  "\"\x01\""

/-- Its text is the literal of the characters that write the code point. -/
theorem tokenize_text_controlText :
    (tokenize controlText).map (·.map (·.token)) = .ok [.str "\x01"] ∧
      (tokenize (Token.str "\x01").text).map (·.map (·.token)) = .ok [.str "u\x7b1\x7d"] :=
  ⟨by decide +kernel, by decide +kernel⟩

end SchemaGraph
