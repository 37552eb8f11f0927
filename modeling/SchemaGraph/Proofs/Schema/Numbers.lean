import SchemaGraph.Proofs.Schema.Blind
import SchemaGraph.Proofs.Schema.Names
import SchemaGraph.Proofs.Schema.Numerals
/-!
# The numbers in a schema text

Where an integer literal comes next, with a minus before it or without, `Reader.integer` answers the
number that it denotes if that fits in 63 bits, and `Reader.fieldNumber` answers it if it fits in 32
bits without sign; otherwise both refuse. So no number of a file is another one than its literal
denotes (`parseSchema_numbers`).
-/

namespace SchemaGraph

/-! ## Literals with a sign -/

/-- The number, or its negative. -/
def signed (negative : Bool) (v : Nat) : Int :=
  if negative then -v else v

/-- An integer literal with the text `digits` comes next, behind a minus if `negative`, and `rest`
follows it. Comments may stand before each of the two. -/
inductive NextInteger : (negative : Bool) → (digits : String) →
    (ts rest : List Lexeme) → Prop where
  | plain {digits : String} {ts rest : List Lexeme} {t : Lexeme}
      (h : skipComments ts = t :: rest) (ht : t.token = .int digits) :
      NextInteger false digits ts rest
  | minus {digits : String} {ts between rest : List Lexeme} {m t : Lexeme}
      (hm : skipComments ts = m :: between) (hminus : m.token = .mark .minus)
      (h : skipComments between = t :: rest) (ht : t.token = .int digits) :
      NextInteger true digits ts rest

/-- The number is read somewhere in the lexemes: an integer literal there denotes it, or it stands
for `max`. -/
inductive StandsIn (whole : List Lexeme) : Int → Prop where
  | literal {negative : Bool} {digits : String} {v : Nat} {ts rest : List Lexeme}
      (hts : ts <:+ whole) (next : NextInteger negative digits ts rest)
      (denotes : Denotes digits.toList v) (fits : v < 2 ^ 63) : StandsIn whole (signed negative v)
  | max {t : Lexeme} (ht : t ∈ whole) (hmax : t.token = .ident "max") :
      StandsIn whole Reader.maxRangeEnd

/-! ## The numbers in declaration trees -/

/-- The ends of a range. -/
def ReservedItem.numbers : ReservedItem → List Int
  | range start stop => start :: stop.toList
  | name _ => []

/-- The numbers in an element of an enum body. -/
def EnumElement.numbers : EnumElement → List Int
  | value v => [v.number]
  | reserved items => items.flatMap ReservedItem.numbers
  | option _ | comment _ => []

/-- The numbers in an enum. -/
def EnumDecl.numbers (decl : EnumDecl) : List Int :=
  decl.elements.flatMap EnumElement.numbers

mutual

/-- The numbers in an element of a message body: those of fields, of enum values, and the ends of
ranges. -/
def MessageElement.numbers : MessageElement → List Int
  | .field field => [(field.number.toNat : Int)]
  | .map field => [(field.number.toNat : Int)]
  | .oneof _ members => memberNumbers members
  | .enum decl => decl.numbers
  | .message _ elements _ => elementNumbers elements
  | .reserved items => items.flatMap ReservedItem.numbers
  | .extensions items => items.flatMap ReservedItem.numbers
  | .option _ => []
  | .comment _ => []
  | .group _ _ number elements _ => (number.toNat : Int) :: elementNumbers elements
  | .extend _ elements _ => elementNumbers elements

/-- The numbers in a message body. -/
def elementNumbers : List MessageElement → List Int
  | [] => []
  | e :: es => e.numbers ++ elementNumbers es

/-- The numbers in a member of a oneof. -/
def OneofElement.numbers : OneofElement → List Int
  | .field field => [(field.number.toNat : Int)]
  | .option _ => []
  | .comment _ => []
  | .group _ _ number elements _ => (number.toNat : Int) :: elementNumbers elements

/-- The numbers in the body of a oneof. -/
def memberNumbers : List OneofElement → List Int
  | [] => []
  | member :: members => member.numbers ++ memberNumbers members

end

theorem elementNumbers_eq_flatMap (es : List MessageElement) :
    elementNumbers es = es.flatMap MessageElement.numbers := by
  induction es with
  | nil => rfl
  | cons e es ih => rw [elementNumbers, ih, List.flatMap_cons]

theorem memberNumbers_eq_flatMap (members : List OneofElement) :
    memberNumbers members = members.flatMap OneofElement.numbers := by
  induction members with
  | nil => rfl
  | cons member members ih => rw [memberNumbers, ih, List.flatMap_cons]

/-- The numbers in a declaration. -/
def FileElement.numbers : FileElement → List Int
  | message decl => elementNumbers decl.elements
  | enum decl => decl.numbers
  | extend decl => elementNumbers decl.elements
  | service _ | option _ | comment _ => []

/-- The numbers in a file. -/
def SchemaFile.numbers (file : SchemaFile) : List Int :=
  file.elements.flatMap FileElement.numbers

/-- All numbers of a list are read somewhere in the lexemes. -/
def AllStandIn (whole : List Lexeme) (ns : List Int) : Prop :=
  ∀ n ∈ ns, StandsIn whole n

namespace AllStandIn

variable {α : Type} {whole : List Lexeme} {n : Int} {ns : List Int}

theorem nil : AllStandIn whole [] :=
  nofun

theorem cons (hn : StandsIn whole n) (hns : AllStandIn whole ns) : AllStandIn whole (n :: ns) :=
  List.forall_mem_cons.2 ⟨hn, hns⟩

theorem singleton (hn : StandsIn whole n) : AllStandIn whole [n] :=
  cons hn nil

theorem flatMap {f : α → List Int} {as : List α} (h : ∀ a ∈ as, AllStandIn whole (f a)) :
    AllStandIn whole (as.flatMap f) := by
  intro n hn
  obtain ⟨a, ha, hn⟩ := List.mem_flatMap.1 hn
  exact h a ha n hn

theorem elements {es : List MessageElement} (h : ∀ e ∈ es, AllStandIn whole e.numbers) :
    AllStandIn whole (elementNumbers es) :=
  elementNumbers_eq_flatMap es ▸ flatMap h

theorem members {es : List OneofElement} (h : ∀ e ∈ es, AllStandIn whole e.numbers) :
    AllStandIn whole (memberNumbers es) :=
  memberNumbers_eq_flatMap es ▸ flatMap h

end AllStandIn

/-- What is left of the lexemes `whole`. -/
def IsRest (whole ts : List Lexeme) : Prop :=
  ts <:+ whole

instance (whole : List Lexeme) : Inherited (IsRest whole) where
  of_suffix hts hsuffix := hsuffix.trans hts

namespace Reader

variable {α : Type} {negative : Bool} {digits : String} {ts rest whole : List Lexeme}

/-- What is answered to a literal, after its sign. -/
def literal (negative : Bool) : Reader Int := do
  match ← next with
  | some (.int digits) => do
    advance
    match integerValue? digits with
    | some value => return if negative then -(value : Int) else value
    | none => refuse (.invalidInteger digits)
  | _ => refuseNext .expectedInteger

theorem integer_eq_bind : integer = eat .minus >>= literal :=
  rfl

/-- What is answered where an integer literal comes next. -/
theorem integer_of_next (h : NextInteger negative digits ts rest) : integer ts =
      match integerValue? digits with
      | some v => .ok (signed negative v, rest)
      | none => .error ⟨.invalidInteger digits, rest⟩ := by
  have hliteral {t : Lexeme} {between : List Lexeme} (hskip : skipComments between = t :: rest)
      (ht : t.token = .int digits) : literal negative between =
        match integerValue? digits with
        | some v => .ok (signed negative v, rest)
        | none => .error ⟨.invalidInteger digits, rest⟩ := by
    have hpeek : peek between = some (.int digits) := by simp [peek, hskip, ht]
    have hadvance : advance between = .ok ((), rest) := by rw [advance, hskip, List.tail_cons]
    rw [literal, bind_eq (x := next) rfl, hpeek]
    dsimp only
    rw [bind_eq hadvance]
    cases integerValue? digits <;> rfl
  rw [integer_eq_bind]
  cases h with
  | plain h ht =>
    have hpeek : peek ts ≠ some (.mark .minus) := by simp [peek, h, ht]
    rw [bind_eq (eat_of_peek_ne hpeek)]
    exact hliteral h ht
  | minus hm hminus h ht =>
    have hpeek : peek ts = some (.mark .minus) := by simp [peek, hm, hminus]
    have heat : eat .minus ts = .ok (true, _) := Blind.eat_of_peek hpeek
    rw [hm, List.tail_cons] at heat
    rw [bind_eq heat]
    exact hliteral h ht

/-- Only the next integer literal is answered with. -/
theorem exists_next_of_integer {value : Int} (h : integer ts = .ok (value, rest)) :
    ∃ negative digits v, NextInteger negative digits ts rest ∧ integerValue? digits = some v ∧
      value = signed negative v := by
  have hliteral {negative : Bool} {between : List Lexeme}
      (h : literal negative between = .ok (value, rest)) :
      ∃ t digits v, skipComments between = t :: rest ∧ t.token = .int digits ∧
        integerValue? digits = some v ∧ value = signed negative v := by
    rw [literal, bind_eq (x := next) rfl] at h
    cases hpeek : peek between with
    | none =>
      rw [hpeek] at h
      cases h
    | some token =>
      rw [hpeek] at h
      obtain ⟨t, left, hskip, ht, hadvance⟩ := exists_of_peek_eq hpeek
      cases token with
      | int digits =>
        dsimp only at h
        rw [bind_eq hadvance] at h
        cases hvalue : integerValue? digits with
        | none =>
          rw [hvalue] at h
          cases h
        | some v =>
          rw [hvalue] at h
          cases h
          exact ⟨t, digits, v, hskip, ht, hvalue, rfl⟩
      | _ => cases h
  rw [integer_eq_bind] at h
  by_cases hminus : peek ts = some (.mark .minus)
  · obtain ⟨m, between, hm, hmark, -⟩ := exists_of_peek_eq hminus
    rw [bind_eq (Blind.eat_of_peek hminus), hm, List.tail_cons] at h
    obtain ⟨t, digits, v, hskip, ht, hvalue, rfl⟩ := hliteral h
    exact ⟨true, digits, v, .minus hm hmark hskip ht, hvalue, rfl⟩
  · rw [bind_eq (eat_of_peek_ne hminus)] at h
    obtain ⟨t, digits, v, hskip, ht, hvalue, rfl⟩ := hliteral h
    exact ⟨false, digits, v, .plain hskip ht, hvalue, rfl⟩

theorem fieldNumber_of_integer {value : Int} (h : integer ts = .ok (value, rest)) :
    fieldNumber ts =
      if 0 ≤ value ∧ value < UInt32.size then .ok (UInt32.ofNat value.toNat, rest)
      else .error ⟨.fieldNumberOutOfRange value, rest⟩ := by
  rw [fieldNumber, bind_eq h]
  split <;> rfl

/-- The number of a field is the integer that is read. -/
theorem integer_of_fieldNumber {number : UInt32} (h : fieldNumber ts = .ok (number, rest)) :
    integer ts = .ok ((number.toNat : Int), rest) := by
  obtain ⟨value, between, hinteger, hnumber⟩ := bind_eq_ok h
  rw [hinteger]
  split at hnumber
  · rename_i hrange
    cases hnumber
    have hvalue : ((UInt32.ofNat value.toNat).toNat : Int) = value := by
      rw [UInt32.toNat_ofNat_of_lt' (by omega)]
      omega
    rw [hvalue]
  · cases hnumber

namespace Gives.Numbers

/-! ## What is read where -/

theorem integer : Gives (IsRest whole) (StandsIn whole) Reader.integer := by
  intro ts value rest hts h
  obtain ⟨negative, digits, v, hnext, hvalue, rfl⟩ := exists_next_of_integer h
  obtain ⟨hdenotes, hle⟩ := integerValue?_eq_some_iff.1 hvalue
  exact .literal hts hnext hdenotes (Nat.lt_succ_of_le hle)

theorem fieldNumber :
    Gives (IsRest whole) (fun number => StandsIn whole number.toNat) Reader.fieldNumber :=
  fun ts _ rest hts h => integer ts _ rest hts (integer_of_fieldNumber h)

/-- A keyword that is found is among the lexemes. -/
theorem atKeyword (keyword : String) : Gives (IsRest whole)
    (fun found => found = true → ∃ t ∈ whole, t.token = .ident keyword)
    (Reader.atKeyword keyword) := by
  intro ts found rest hts h hfound
  cases h
  obtain ⟨t, ht, htoken⟩ := mem_of_peek_eq (of_decide_eq_true hfound)
  exact ⟨t, hts.mem ht, htoken⟩

theorem reservedItem :
    Gives (IsRest whole) (fun item => AllStandIn whole item.numbers) Reader.reservedItem := by
  refine after .next fun token => ?_
  split
  · exact after .advance fun _ => .pure .nil
  · split
    · exact .refuseNext _
    · exact after .advance fun _ => .pure .nil
  · refine bind integer .integer fun start hstart => after (.atKeyword _) fun isRange => ?_
    split
    · refine after .advance fun _ => bind (atKeyword "max") (.atKeyword _) fun isMax hmax => ?_
      split
      · rename_i hfound
        obtain ⟨t, ht, htoken⟩ := hmax hfound
        exact after .advance fun _ => .pure (.cons hstart (.singleton (.max ht htoken)))
      · exact map integer .integer fun stop hstop => .cons hstart (.singleton hstop)
    · exact .pure (.singleton hstart)

theorem reservedItems : Gives (IsRest whole)
    (fun items => AllStandIn whole (items.flatMap ReservedItem.numbers)) Reader.reservedItems := by
  refine bind reservedItem .reservedItem fun first hfirst => ?_
  have hstep : Gives (IsRest whole)
      (fun answer => ∀ item, answer = some item → AllStandIn whole item.numbers)
      (do if ← Reader.eat .comma then some <$> Reader.reservedItem else return none) := by
    refine after (.eat _) fun comma => ?_
    split
    · refine map reservedItem .reservedItem fun item hitem _ heq => ?_
      exact Option.some.inj heq ▸ hitem
    · exact .pure fun _ => nofun
  have hfront : TakesFront
      (do if ← Reader.eat .comma then some <$> Reader.reservedItem else return none) := by
    refine TakesFront.bind (.eat _) fun comma => ?_
    split
    · exact .map .reservedItem some
    · exact .pure none
  refine map (p := fun others => ∀ item ∈ others, AllStandIn whole item.numbers) ?_
    (.repeated hfront) fun others hothers => .flatMap (List.forall_mem_cons.2 ⟨hfirst, hothers⟩)
  exact fun ts items rest hts h => repeatWithin hstep hfront ts ts items rest hts h

/-! ## Declarations -/

theorem fieldAfterLabel (label : FieldLabel) (line : Nat) :
    Gives (IsRest whole) (fun field => StandsIn whole field.number.toNat)
      (Reader.fieldAfterLabel label line) :=
  after .dottedName fun _ => after .ident fun _ => after (.expect _) fun _ =>
    bind fieldNumber .fieldNumber fun _ hnumber => after .bracketedOptions fun _ =>
    after (.expect _) fun _ => .pure hnumber

theorem mapField :
    Gives (IsRest whole) (fun field => StandsIn whole field.number.toNat) Reader.mapField :=
  after .line fun _ => after (.expectKeyword _) fun _ => after (.expect _) fun _ =>
    after .dottedName fun _ => after (.expect _) fun _ => after .dottedName fun _ =>
    after (.expect _) fun _ => after .ident fun _ => after (.expect _) fun _ =>
    bind fieldNumber .fieldNumber fun _ hnumber => after .bracketedOptions fun _ =>
    after (.expect _) fun _ => .pure hnumber

theorem enumElement :
    Gives (IsRest whole) (fun e => AllStandIn whole e.numbers) Reader.enumElement := by
  refine after (.look (ahead 2)) fun start => ?_
  split
  · exact after .optionDecl fun _ => .pure .nil
  · split
    · exact after .advance fun _ => bind reservedItems .reservedItems fun _ hitems =>
        after (.expect _) fun _ => .pure hitems
    · exact after .ident fun _ => after (.expect _) fun _ => bind integer .integer fun _ hnumber =>
        after .bracketedOptions fun _ => after (.expect _) fun _ => .pure (.singleton hnumber)

theorem enumDecl :
    Gives (IsRest whole) (fun decl => AllStandIn whole decl.numbers) Reader.enumDecl :=
  after .line fun _ => after (.expectKeyword _) fun _ => after .ident fun _ =>
    map (body _ (fun _ => .nil) enumElement .enumElement) (.body _ _ .enumElement)
      fun _ helements => .flatMap helements

/-- Fields, groups, enum values and ranges have numbers. -/
theorem elementLaws : ElementLaws (IsRest whole) (fun e => AllStandIn whole e.numbers)
    (fun member => AllStandIn whole member.numbers) where
  comment _ := ⟨.nil, .nil⟩
  optionDecl := of_forall fun _ => ⟨.nil, .nil⟩
  field label line := mono (fieldAfterLabel label line) fun _ h => ⟨.singleton h, .singleton h⟩
  mapField := mono mapField fun _ => .singleton
  items := mono reservedItems fun _ h => ⟨h, h⟩
  enumDecl := enumDecl
  message := of_forall fun _ _ _ => .elements
  group := mono fieldNumber fun _ hnumber _ _ _ _ helements =>
    ⟨.cons hnumber (.elements helements), .cons hnumber (.elements helements)⟩
  oneof _ _ := .members
  extend _ _ _ := .elements

theorem fileLaws : FileLaws (IsRest whole) (fun e => AllStandIn whole e.numbers)
    (fun member => AllStandIn whole member.numbers) (fun e => AllStandIn whole e.numbers) where
  toElementLaws := elementLaws
  fileComment _ := .nil
  fileOption _ h := h
  fileMessage _ h := h
  fileEnum _ h := h
  fileExtend _ h := h
  service := of_forall fun _ => .nil

end Gives.Numbers

/-- The number is read from the lexemes, exactly, and it is the number of a field if it fits. -/
structure ReadsExactly (ts rest : List Lexeme) (value : Int) : Prop where
  integer : Reader.integer ts = .ok (value, rest)
  fits : -2 ^ 63 ≤ value ∧ value < 2 ^ 63
  inRange : 0 ≤ value → value < 2 ^ 32 →
    ∃ number, fieldNumber ts = .ok (number, rest) ∧ (number.toNat : Int) = value
  outOfRange : ¬ (0 ≤ value ∧ value < 2 ^ 32) →
    fieldNumber ts = .error ⟨.fieldNumberOutOfRange value, rest⟩

theorem readsExactly {v : Nat} (h : NextInteger negative digits ts rest)
    (hdenotes : Denotes digits.toList v) (hv : v < 2 ^ 63) :
    ReadsExactly ts rest (signed negative v) := by
  have hvalue := integerValue?_eq_some_iff.2 ⟨hdenotes, Nat.le_of_lt_succ hv⟩
  have hinteger : Reader.integer ts = .ok (signed negative v, rest) := by
    rw [integer_of_next h, hvalue]
  have hnumber := fieldNumber_of_integer hinteger
  have hsize : (UInt32.size : Int) = 2 ^ 32 := rfl
  rw [hsize] at hnumber
  refine ⟨hinteger, ?_, fun hpos hlt => ?_, fun hout => ?_⟩
  · unfold signed
    split <;> omega
  · rw [if_pos ⟨hpos, hlt⟩] at hnumber
    refine ⟨_, hnumber, ?_⟩
    rw [UInt32.toNat_ofNat_of_lt' (by omega)]
    omega
  · rw [hnumber, if_neg hout]

end Reader

/--
**Numbers are exact.** Where an integer literal comes next, with a minus before it or without, the
number that it denotes is answered if the literal is below `2 ^ 63`, and as the number of a field if
it is not negative and below `2 ^ 32`; every other literal is refused by its text. So each number in
a file that is read is what a literal of its text denotes, or the end of a range up to `max`.
-/
theorem parseSchema_numbers :
    (∀ negative digits ts rest, NextInteger negative digits ts rest →
      (∀ v, Denotes digits.toList v → v < 2 ^ 63 →
        Reader.ReadsExactly ts rest (signed negative v)) ∧
      ((∀ v, Denotes digits.toList v → 2 ^ 63 ≤ v) → ∃ refusal : Refusal,
        refusal.complaint.message = "invalid integer literal '" ++ digits ++ "'" ∧
        Reader.integer ts = .error refusal ∧ Reader.fieldNumber ts = .error refusal)) ∧
    ∀ path source file, parseSchema path source = .ok file →
      ∃ lexemes, tokenize source = .ok lexemes ∧ AllStandIn lexemes file.numbers := by
  refine ⟨fun negative digits ts rest hnext => ⟨fun v => Reader.readsExactly hnext,
    fun hlarge => ?_⟩, fun path source file h => ?_⟩
  · have hnone : Reader.integerValue? digits = none := by
      refine Option.eq_none_iff_forall_ne_some.2 fun v hv => ?_
      obtain ⟨hdenotes, hle⟩ := Reader.integerValue?_eq_some_iff.1 hv
      exact absurd (hlarge v hdenotes) (Nat.not_le_of_lt (Nat.lt_succ_of_le hle))
    have hinteger := Reader.integer_of_next hnext
    rw [hnone] at hinteger
    refine ⟨⟨.invalidInteger digits, rest⟩, rfl, hinteger, ?_⟩
    simp only [Reader.fieldNumber, Bind.bind, hinteger]
  · obtain ⟨lexemes, statements, rest, htokenize, hread, rfl⟩ := exists_statements_of_parseSchema h
    refine ⟨lexemes, htokenize, .flatMap fun e he => ?_⟩
    have hstatements := Reader.Gives.Numbers.fileLaws.statements lexemes statements rest
      (List.suffix_refl lexemes) hread
    exact hstatements _ (SchemaFile.mem_elements_ofStatements.1 he) e rfl

/-- An octal value behind a minus, and a hexadecimal one. -/
def numberedText : String :=
  "enum E \x7b A = - 017; B = 0x7F; \x7d"

/-- The digits of `2 ^ 63`. -/
def tooManyDigits : String :=
  "9223372036854775808"

theorem parseSchema_numbers_numberedText :
    Reader.ReadsExactly [⟨.mark .minus, ⟨0, 1⟩, 1⟩, ⟨.int "017", ⟨1, 4⟩, 1⟩] [] (-15) ∧
    (∃ refusal : Refusal,
      refusal.complaint.message = "invalid integer literal '" ++ tooManyDigits ++ "'" ∧
      Reader.integer [⟨.int tooManyDigits, ⟨0, 19⟩, 1⟩] = .error refusal ∧
      Reader.fieldNumber [⟨.int tooManyDigits, ⟨0, 19⟩, 1⟩] = .error refusal) ∧
    ∃ lexemes, tokenize numberedText = .ok lexemes ∧ AllStandIn lexemes [-15, 127] := by
  refine ⟨?_, ?_, ?_⟩
  · have hoctal : Denotes "017".toList 15 :=
      .octal (by decide) ⟨[0, 1, 7], by decide, by repeat constructor, by decide⟩
    exact (parseSchema_numbers.1 true "017" _ _ (.minus rfl rfl rfl rfl)).1 15 hoctal (by decide)
  · have hnone : Reader.integerValue? tooManyDigits = none := by decide +kernel
    refine (parseSchema_numbers.1 false tooManyDigits _ _ (.plain rfl rfl)).2 fun v hv => ?_
    refine Nat.le_of_not_lt fun hlt => ?_
    have hvalue := Reader.integerValue?_eq_some_iff.2 ⟨hv, Nat.le_of_lt_succ hlt⟩
    rw [hnone] at hvalue
    cases hvalue
  · have hread : (parseSchema "e.proto" numberedText).map SchemaFile.numbers = .ok [-15, 127] := by
      decide +kernel
    cases hfile : parseSchema "e.proto" numberedText with
    | error complaint =>
      rw [hfile] at hread
      cases hread
    | ok file =>
      rw [hfile] at hread
      obtain ⟨lexemes, htokenize, hnumbers⟩ := parseSchema_numbers.2 _ _ file hfile
      exact ⟨lexemes, htokenize, Except.ok.inj hread ▸ hnumbers⟩

end SchemaGraph
