/-!
# Brackets in patterns

A bracket in a pattern stands for one of some characters: single ones, ranges, and classes that have
a name. A character of a pattern comes with a mark that says whether it only stands for itself.
-/

namespace SchemaGraph.Shell

/-- A member of a bracket. -/
inductive BracketMember where
  | range (low high : Char)
  | named (name : String)
  deriving DecidableEq, Repr

/-- The characters between two brackets, or all others. -/
structure Bracket where
  isNegated : Bool
  members : List BracketMember
  deriving DecidableEq, Repr

/-- A character of a pattern, and whether it only stands for itself. -/
abbrev PatternChar : Type :=
  Char × Bool

namespace Bracket

/-- The classes that have a name. -/
def classes : List (String × (Char → Bool)) :=
  let isGraph (c : Char) : Bool := 33 ≤ c.toNat && c.toNat ≤ 126
  [("alpha", Char.isAlpha), ("digit", Char.isDigit), ("alnum", Char.isAlphanum),
    ("upper", Char.isUpper), ("lower", Char.isLower),
    ("space", fun c => c == ' ' || (9 ≤ c.toNat && c.toNat ≤ 13)),
    ("blank", fun c => c == ' ' || c == '\t'),
    ("punct", fun c => isGraph c && !c.isAlphanum), ("graph", isGraph),
    ("print", fun c => c == ' ' || isGraph c),
    ("cntrl", fun c => c.toNat < 32 || c.toNat == 127),
    ("xdigit", fun c => c.isDigit || ('a' ≤ c.toLower && c.toLower ≤ 'f'))]

/-- Whether a member stands for a character. -/
def memberAdmits (c : Char) : BracketMember → Bool
  | .range low high => low ≤ c && c ≤ high
  | .named name => ((classes.lookup name).map fun test => test c).getD false

/-- Whether a bracket stands for a character. -/
def admits (b : Bracket) (c : Char) : Bool :=
  b.members.any (memberAdmits c) != b.isNegated

/-- The name of a class whose opening bracket and colon have been taken, and what follows it. -/
def className? (cs : List PatternChar) : Option (String × List PatternChar) :=
  let name := String.ofList ((cs.map (·.1)).takeWhile Char.isAlpha)
  match cs.drop name.length with
  | (':', false) :: (']', false) :: rest =>
    if (classes.lookup name).isSome then some (name, rest) else none
  | _ => none

/-- The members up to the closing bracket, and what follows it; none if there is no such bracket.
A closing bracket in front is a member. The list gets shorter with every step, so `fuel` is its
length. -/
def readMembers : (fuel : Nat) → (isFirst : Bool) → List PatternChar →
    Option (List BracketMember × List PatternChar)
  | 0, _, _ => none
  | _, _, [] => none
  | fuel + 1, isFirst, (c, q) :: cs =>
    let add (member : BracketMember) (rest : List PatternChar) :
        Option (List BracketMember × List PatternChar) :=
      (readMembers fuel false rest).map fun found => (member :: found.1, found.2)
    let single : Option (List BracketMember × List PatternChar) :=
      match cs with
      | ('-', false) :: (']', false) :: _ => add (.range c c) cs
      | ('-', false) :: (high, _) :: rest => add (.range c high) rest
      | _ => add (.range c c) cs
    if c = ']' && !q && !isFirst then some ([], cs)
    else
      match cs with
      | (':', false) :: rest =>
        match (if c = '[' && !q then className? rest else none) with
        | some (name, rest) => add (.named name) rest
        | none => single
      | _ => single

/-- The bracket whose opening has been taken, and what follows it. One of the given signs in front
stands for the characters that are no members. -/
def read (negations : List Char) (cs : List PatternChar) :
    Option (Bracket × List PatternChar) :=
  let isNegated : Bool :=
    match cs.head? with
    | some (c, q) => !q && negations.contains c
    | none => false
  let cs := if isNegated then cs.tail else cs
  (readMembers cs.length true cs).map fun found => (⟨isNegated, found.1⟩, found.2)

end Bracket

/-! ## Patterns of names -/

/-- A sign of a pattern of names. -/
inductive NameSign where
  | char (c : Char)
  | anyChar
  | oneOf (bracket : Bracket)
  | anyText
  deriving DecidableEq, Repr

/-- A pattern of names, or of parts of values. -/
abbrev NamePattern : Type :=
  List NameSign

namespace NamePattern

/-- The pattern of some characters. The list gets shorter with every step, so `fuel` is its
length. -/
def readFrom : (fuel : Nat) → List PatternChar → NamePattern
  | 0, _ => []
  | _, [] => []
  | fuel + 1, (c, q) :: rest =>
    if q then .char c :: readFrom fuel rest
    else if c = '*' then .anyText :: readFrom fuel rest
    else if c = '?' then .anyChar :: readFrom fuel rest
    else if c = '[' then
      match Bracket.read ['!', '^'] rest with
      | some (bracket, after) => .oneOf bracket :: readFrom fuel after
      | none => .char c :: readFrom fuel rest
    else if c = '\\' then
      match rest with
      | (d, _) :: rest => .char d :: readFrom fuel rest
      | [] => [.char c]
    else .char c :: readFrom fuel rest

/-- The pattern of some characters. -/
def read (cs : List PatternChar) : NamePattern :=
  readFrom cs.length cs

/-- Whether a sign that stands for one character stands for this one. -/
def signAdmits (c : Char) : NameSign → Bool
  | .char d => c = d
  | .anyChar => true
  | .oneOf bracket => bracket.admits c
  | .anyText => false

/-- Whether a test holds of a list or of what remains of it after some of its elements. -/
def holdsLater (test : List Char → Bool) : List Char → Bool
  | [] => test []
  | c :: cs => test (c :: cs) || holdsLater test cs

/-- Whether a pattern matches a whole text. -/
def accepts : NamePattern → List Char → Bool
  | [], cs => cs.isEmpty
  | .anyText :: pattern, cs => holdsLater (accepts pattern) cs
  | _ :: _, [] => false
  | sign :: pattern, c :: cs => signAdmits c sign && accepts pattern cs

/-- Whether a pattern has a sign that stands for more than one text. -/
def hasWildcard (pattern : NamePattern) : Bool :=
  pattern.any fun
    | .char _ => false
    | _ => true

end NamePattern
end SchemaGraph.Shell
