import SchemaGraph.Proofs.Name.Scopes
import SchemaGraph.Proofs.Token.Munch
/-!
# Texts of words with one space between them

A `Word` is what stands between two spaces of such a text: one token, or a dotted name, which is
several tokens without a space between them. `lay` lists the lexemes of words that stand so from a
byte on, and `tokenize_spaced` says that they are the lexemes of the text.
-/

namespace SchemaGraph

/-- What stands between two spaces. -/
inductive Word where
  | ident (name : String)
  /-- A dotted name, with an optional dot before it. -/
  | dotted (name : String)
  | number (n : Nat)
  /-- A text between double quotes, as it is. -/
  | quoted (text : String)
  | mark (mark : Mark)
  deriving DecidableEq, Repr

/-- The characters of a word. -/
def Word.text : Word → String
  | ident name | dotted name => name
  | number n => toString n
  | quoted text => "\"" ++ text ++ "\""
  | mark m => String.singleton m.char

/-- The text of words with one space between them. -/
def spaced (ws : List Word) : String :=
  String.intercalate " " (ws.map Word.text)

/-- Whether a text can be read as a name. -/
def isIdentifier (name : String) : Bool :=
  match name.toList with
  | [] => false
  | c :: cs => TokenClass.isWordStart c && cs.all TokenClass.isWordChar

/-- The components of a name after its optional dot. -/
def componentsOf (name : String) : List String :=
  let pieces := Text.split (· == '.') name
  if pieces.head? = some "" then pieces.tail else pieces

/-- Whether a text is made of identifiers with dots between them, with an optional dot before
them. -/
def isTypeName (name : String) : Bool :=
  !(componentsOf name).isEmpty && (componentsOf name).all isIdentifier

/-- Whether a text can stand between double quotes as it is. -/
def isPlain (text : String) : Bool :=
  text.toList.all fun c => c != '"' && c != '\\' && c != '\n'

/-- Whether a word is read as what it is. A slash may start a comment. -/
def Word.isReadable : Word → Bool
  | ident name => isIdentifier name
  | dotted name => isTypeName name
  | number _ => true
  | quoted text => isPlain text
  | mark m => m != .slash

theorem isIdentifier_iff {name : String} : isIdentifier name = true ↔ IsName name.toList := by
  unfold isIdentifier IsName
  cases name.toList with
  | nil => simp
  | cons c cs => simp

theorem isPlain_iff {text : String} : isPlain text = true ↔ IsPlain text.toList := by
  simp [isPlain, IsPlain, and_assoc]

/-! ## Tokens and their sources -/

namespace Token

/-- What a token is read from when nothing in it is escaped. -/
def source : Token → List Char
  | str s => '"' :: s.toList ++ ['"']
  | t => t.text.toList

/-- The token is read from its source when `rest` follows, and the source stays on its line. -/
structure ReadBefore (t : Token) (rest : List Char) : Prop where
  ne_nil : t.source ≠ []
  line : ∀ c ∈ t.source, c ≠ '\n'
  start : ∀ c ∈ t.source.head?, isSeparator c = false
  first : firstToken (t.source ++ rest) = .ok (t, t.source.length)

namespace ReadBefore

variable {rest : List Char} {c : Char}

theorem isSeparator_of_isWordChar (h : TokenClass.isWordChar c = true) : isSeparator c = false := by
  cases hsep : isSeparator c with
  | false => rfl
  | true =>
    simp only [isSeparator, Bool.or_eq_true, beq_iff_eq] at hsep
    rcases hsep with (((rfl | rfl) | rfl) | rfl) | rfl <;> exact absurd h (by decide)

theorem of_isWordChar {t : Token} (hne : t.source ≠ [])
    (hs : ∀ c ∈ t.source, TokenClass.isWordChar c = true)
    (hfirst : firstToken (t.source ++ rest) = .ok (t, t.source.length)) : t.ReadBefore rest where
  ne_nil := hne
  line := by
    rintro c hc rfl
    exact absurd (hs _ hc) (by decide)
  start c hc := isSeparator_of_isWordChar (hs c (List.mem_of_head? hc))
  first := hfirst

theorem ident {name : String} (h : IsName name.toList)
    (hrest : ∀ c ∈ rest.head?, TokenClass.isWordChar c = false) :
    (Token.ident name).ReadBefore rest := by
  have hfirst := firstToken_name h hrest
  rw [String.ofList_toList] at hfirst
  have hne : name.toList ≠ [] := by
    obtain ⟨c, t, heq, -⟩ := h
    rw [heq]
    exact List.cons_ne_nil c t
  exact of_isWordChar hne h.isWordChar hfirst

theorem int (n : Nat) (hrest : ∀ c ∈ rest.head?, isSeparator c = true) :
    (Token.int (toString n)).ReadBefore rest := by
  have heq : (toString n).toList = Nat.toDigits 10 n := by
    rw [Nat.toString_eq_ofList_toDigits, String.toList_ofList]
  have hdigits : ∀ c ∈ (toString n).toList, TokenClass.isDigit c = true := by
    intro c hc
    rw [heq] at hc
    exact Nat.isDigit_of_mem_toDigits (by decide) (by decide) hc
  have hne : (toString n).toList ≠ [] := by
    rw [heq]
    exact Nat.toDigits_ne_nil
  have hfirst := firstToken_number hne hdigits hrest
  rw [String.ofList_toList] at hfirst
  exact of_isWordChar hne (fun c hc => TokenClass.isWordChar_of_isDigit (hdigits c hc)) hfirst

theorem str {value : String} (h : IsPlain value.toList) : (Token.str value).ReadBefore rest where
  ne_nil := by simp [source]
  line := by
    intro c hc
    simp only [source, List.cons_append, List.mem_cons, List.mem_append, List.not_mem_nil,
      or_false] at hc
    rcases hc with rfl | hc | rfl
    · decide
    · exact (h c hc).2.2
    · decide
  start c hc := by
    cases hc
    rfl
  first := by
    have hfirst : firstToken ('"' :: value.toList ++ '"' :: rest) = _ := firstToken_literal h
    rw [String.ofList_toList] at hfirst
    simpa [source] using hfirst

theorem mark {m : Mark} (hslash : m ≠ .slash)
    (hdot : m = .dot → ∀ c ∈ rest.head?, TokenClass.isDigit c = false) :
    (Token.mark m).ReadBefore rest where
  ne_nil := by simp [source, text]
  line c hc := by
    obtain rfl : c = m.char := by simpa [source, text] using hc
    cases m <;> decide
  start c hc := by
    obtain rfl : m.char = c := by simpa [source, text] using hc
    cases m <;> decide
  first := by
    have hfirst := firstToken_mark hslash hdot
    simpa [source, text] using hfirst

/-- No number starts at a dot before a name. -/
theorem dot {name : String} (h : IsName name.toList) {ts : List Token} :
    (Token.mark .dot).ReadBefore ((Token.ident name :: ts).flatMap source ++ rest) := by
  refine mark (by decide) fun _ c hc => ?_
  obtain ⟨d, t, heq, hd, -⟩ := h
  simp only [List.flatMap_cons, source, text, heq, List.cons_append, List.head?_cons,
    Option.mem_some_iff] at hc
  exact hc ▸ TokenClass.isDigit_of_isWordStart hd

end ReadBefore

/-- Tokens of line 1 that stand from a byte on, one right behind the other. -/
def lay (offset : Nat) : List Token → List Lexeme
  | [] => []
  | t :: ts =>
    let stop := offset + byteLength t.source
    ⟨t, ⟨offset, stop⟩, 1⟩ :: lay stop ts

/-- Each of the tokens is read from its source when the others follow it and then `rest`. -/
def AllReadBefore (rest : List Char) : List Token → Prop
  | [] => True
  | t :: ts => t.ReadBefore (ts.flatMap source ++ rest) ∧ AllReadBefore rest ts

end Token

theorem byteLength_append (cs cs' : List Char) :
    byteLength (cs ++ cs') = byteLength cs + byteLength cs' := by
  induction cs with
  | nil => exact (Nat.zero_add _).symm
  | cons c cs ih =>
    have hcons (cs : List Char) : byteLength (c :: cs) = c.utf8Size + byteLength cs := rfl
    rw [List.cons_append, hcons, hcons, ih, Nat.add_assoc]

theorem lexemesFrom_tokens {rest : List Char} {ts : List Token} (h : Token.AllReadBefore rest ts)
    (offset : Nat) :
    lexemesFrom offset 1 0 (ts.flatMap Token.source ++ rest) =
      (lexemesFrom (offset + byteLength (ts.flatMap Token.source)) 1 0 rest).map
        (Token.lay offset ts ++ ·) := by
  induction ts generalizing offset with
  | nil =>
    rw [List.flatMap_nil, List.nil_append]
    change _ = (lexemesFrom offset 1 0 rest).map id
    rw [Except.map_id]
    rfl
  | cons t ts ih =>
    obtain ⟨ht, hts⟩ := h
    rw [List.flatMap_cons, List.append_assoc, lexemesFrom_token ht.ne_nil ht.line ht.start ht.first,
      ih hts, byteLength_append, ← Nat.add_assoc]
    cases lexemesFrom (offset + byteLength t.source + byteLength (ts.flatMap Token.source)) 1 0
      rest <;> rfl

/-! ## Tokens of words -/

/-- The token of a component, which may be empty. -/
def componentTokens (component : String) : List Token :=
  if component = "" then [] else [.ident component]

/-- The tokens of the components after the first one, each with the dot before it. -/
def furtherTokens (others : List String) : List Token :=
  others.flatMap fun c => [.mark .dot, .ident c]

/-- The tokens of a dotted name. -/
def dottedTokens (name : String) : List Token :=
  match Text.split (· == '.') name with
  | [] => []
  | first :: others =>
    componentTokens first ++ others.flatMap fun c => .mark .dot :: componentTokens c

/-- The tokens of a word. -/
def Word.tokens : Word → List Token
  | ident name => [.ident name]
  | dotted name => dottedTokens name
  | number n => [.int (toString n)]
  | quoted text => [.str text]
  | mark m => [.mark m]

/-- The pieces between the dots of a name make it up again. -/
theorem join_split (name : String) : Name.join (Text.split (· == '.') name) = name := by
  rw [← String.toList_inj, Name.join, String.toList_intercalate, Text.split, List.map_map]
  simp [Function.comp_def, Name.intercalate_splitAt]

theorem intercalate_eq_append_flatMap {α : Type} {sep first : List α} {others : List (List α)} :
    List.intercalate sep (first :: others) = first ++ others.flatMap (sep ++ ·) := by
  induction others generalizing first with
  | nil => simp
  | cons second others ih => simp [List.intercalate_cons_cons, ih]

theorem toList_join (first : String) (others : List String) :
    (Name.join (first :: others)).toList =
      first.toList ++ others.flatMap fun c => '.' :: c.toList := by
  rw [Name.join, String.toList_intercalate, List.map_cons, intercalate_eq_append_flatMap,
    List.flatMap_map]
  rfl

/-- A type name, its components told apart, with its tokens. -/
theorem exists_components {name : String} (h : isTypeName name = true) :
    ∃ (absolute : Bool) (first : String) (others : List String),
      (∀ c ∈ first :: others, IsName c.toList) ∧
      name = (if absolute then "." else "") ++ Name.join (first :: others) ∧
      dottedTokens name = (if absolute then [.mark .dot] else []) ++
        .ident first :: furtherTokens others := by
  obtain ⟨hne, hall⟩ := Bool.and_eq_true_iff.1 h
  rw [List.all_eq_true] at hall
  have hnames : ∀ c ∈ componentsOf name, IsName c.toList :=
    fun c hc => isIdentifier_iff.1 (hall c hc)
  obtain ⟨first, others, heq⟩ : ∃ first others, componentsOf name = first :: others :=
    List.exists_cons_of_ne_nil (by simpa using hne)
  rw [heq] at hnames
  have htoken : ∀ c ∈ first :: others, componentTokens c = [.ident c] := by
    intro c hc
    have hempty : c ≠ "" := by
      rintro rfl
      obtain ⟨_, _, heq, -⟩ := hnames "" hc
      cases heq
    exact if_neg hempty
  have hothers : (others.flatMap fun c => .mark .dot :: componentTokens c) =
      furtherTokens others := by
    refine List.flatMap_congr fun c hc => ?_
    rw [htoken c (List.mem_cons_of_mem _ hc)]
  have hjoin := join_split name
  unfold componentsOf at heq
  unfold dottedTokens
  dsimp only at heq
  -- An empty first piece is what stands before a leading dot.
  split at heq
  · rename_i hdot
    obtain ⟨tail, htail⟩ := List.head?_eq_some_iff.1 hdot
    rw [htail, List.tail_cons] at heq
    rw [htail, heq] at hjoin ⊢
    refine ⟨true, first, others, hnames, ?_, ?_⟩
    · rw [← hjoin, Name.join, String.intercalate_cons_cons]
      rfl
    · simp only [List.flatMap_cons, htoken first List.mem_cons_self, hothers]
      rfl
  · rw [heq] at hjoin ⊢
    refine ⟨false, first, others, hnames, ?_, ?_⟩
    · rw [← hjoin]
      simp
    · simp only [htoken first List.mem_cons_self, hothers]
      rfl

/-- The components of a type name are read one by one: a dot or the end stops each of them, and
none of them starts with a digit. -/
theorem allReadBefore_components {rest : List Char}
    (hrest : ∀ c ∈ rest.head?, TokenClass.isWordChar c = false) {first : String}
    {others : List String} (h : ∀ c ∈ first :: others, IsName c.toList) :
    Token.AllReadBefore rest (.ident first :: furtherTokens others) := by
  induction others generalizing first with
  | nil => exact ⟨.ident (h first List.mem_cons_self) hrest, trivial⟩
  | cons second others ih =>
    obtain ⟨hfirst, hothers⟩ := List.forall_mem_cons.1 h
    change Token.AllReadBefore rest (.ident first :: .mark .dot :: .ident second :: _)
    refine ⟨.ident hfirst ?_, .dot (hothers second List.mem_cons_self), ih hothers⟩
    intro c hc
    cases hc
    decide

namespace Word

variable {w : Word}

/-- The sources of the tokens of a word make up its text. -/
theorem flatMap_source (h : w.isReadable = true) :
    w.tokens.flatMap Token.source = w.text.toList := by
  cases w with
  | dotted name =>
    obtain ⟨absolute, first, others, -, hname, htokens⟩ := exists_components h
    have hsource : (furtherTokens others).flatMap Token.source =
        others.flatMap fun c => '.' :: c.toList := by
      simp [furtherTokens, List.flatMap_assoc, Token.source, Token.text, Mark.char]
    rw [tokens, htokens, text, hname, String.toList_append, toList_join, List.flatMap_append,
      List.flatMap_cons, hsource]
    cases absolute <;> rfl
  | ident name => simp [tokens, text, Token.source, Token.text]
  | number n => simp [tokens, text, Token.source, Token.text]
  | quoted value => simp [tokens, text, Token.source]
  | mark m => simp [tokens, text, Token.source, Token.text]

/-- A word is read as its tokens when a blank or nothing follows. -/
theorem allReadBefore (h : w.isReadable = true) (rest : List Char)
    (hrest : ∀ c ∈ rest.head?, isSeparator c = true) :
    Token.AllReadBefore rest w.tokens := by
  have hstop : ∀ c ∈ rest.head?, TokenClass.isWordChar c = false := by
    intro c hc
    refine Bool.eq_false_iff.2 fun hword => ?_
    have hsep := hrest c hc
    rw [Token.ReadBefore.isSeparator_of_isWordChar hword] at hsep
    cases hsep
  cases w with
  | ident name => exact ⟨.ident (isIdentifier_iff.1 h) hstop, trivial⟩
  | dotted name =>
    obtain ⟨absolute, first, others, hnames, -, htokens⟩ := exists_components h
    have hcomponents := allReadBefore_components hstop hnames
    rw [tokens, htokens]
    cases absolute with
    | false => exact hcomponents
    | true =>
      change Token.AllReadBefore rest (.mark .dot :: .ident first :: _)
      exact ⟨.dot (hnames first List.mem_cons_self), hcomponents⟩
  | number n => exact ⟨.int n hrest, trivial⟩
  | quoted value => exact ⟨.str (isPlain_iff.1 h), trivial⟩
  | mark m =>
    refine ⟨.mark (by simpa [isReadable] using h) fun _ c hc => ?_, trivial⟩
    refine Bool.eq_false_iff.2 fun hdigit => ?_
    have hword := hstop c hc
    rw [TokenClass.isWordChar_of_isDigit hdigit] at hword
    cases hword

end Word

/-! ## Lexemes of words -/

/-- The lexemes of words that stand on line 1 from a byte on, with one space between two words. -/
def lay (offset : Nat) : List Word → List Lexeme
  | [] => []
  | w :: ws => Token.lay offset w.tokens ++ lay (offset + byteLength w.text.toList + 1) ws

theorem lexemesFrom_spaced {ws : List Word} (h : ∀ w ∈ ws, w.isReadable = true) (offset : Nat) :
    lexemesFrom offset 1 0 (spaced ws).toList = .ok (lay offset ws) := by
  induction ws generalizing offset with
  | nil => rfl
  | cons w ws ih =>
    obtain ⟨hw, hws⟩ := List.forall_mem_cons.1 h
    cases ws with
    | nil =>
      have hread := lexemesFrom_tokens (Word.allReadBefore hw [] (by simp)) offset
      rw [Word.flatMap_source hw, List.append_nil] at hread
      simpa [spaced, lay, lexemesFrom, Except.map] using hread
    | cons w' ws =>
      have htext : (spaced (w :: w' :: ws)).toList =
          w.text.toList ++ ' ' :: (spaced (w' :: ws)).toList := by
        rw [spaced, List.map_cons, List.map_cons, String.intercalate_cons_cons, ← List.map_cons]
        simp [spaced]
      -- The space ends the last token of the word, and the lexemes after it are those of the rest.
      have hread := lexemesFrom_tokens
        (Word.allReadBefore hw (' ' :: (spaced (w' :: ws)).toList) (by simp [isSeparator])) offset
      rw [htext, ← Word.flatMap_source hw, hread, lexemesFrom_space, ih hws,
        Word.flatMap_source hw]
      rfl

/-- The lexemes of words with one space between them are those of the words. -/
theorem tokenize_spaced {ws : List Word} (h : ∀ w ∈ ws, w.isReadable = true) :
    tokenize (spaced ws) = .ok (lay 0 ws) :=
  lexemesFrom_spaced h 0

end SchemaGraph
