/-!
# Text patterns

A `Pattern` is a regular expression over characters. `Pattern.Matches` is the set of texts it
describes; `Pattern.longest` finds the length of its longest match at the start of a text, one
character at a time, by replacing the pattern with what may follow that character.
-/

namespace SchemaGraph.Lexical

/-- A set of texts, described by a regular expression. -/
inductive Pattern where
  /-- No text. -/
  | never
  /-- The empty text. -/
  | empty
  /-- One character that satisfies a test. -/
  | one (test : Char → Bool)
  /-- A text of the first pattern followed by one of the second. -/
  | seq (first second : Pattern)
  /-- A text of either pattern. -/
  | either (left right : Pattern)
  /-- Any number of texts of a pattern, one after the other. -/
  | many (body : Pattern)

namespace Pattern

/-- `r.Matches s`: the text `s` belongs to the set that `r` describes. -/
inductive Matches : Pattern → List Char → Prop where
  | empty : Matches .empty []
  | one {test : Char → Bool} {c : Char} (h : test c = true) : Matches (.one test) [c]
  | seq {a b : Pattern} {s t : List Char} (ha : Matches a s) (hb : Matches b t) :
      Matches (.seq a b) (s ++ t)
  | left {a b : Pattern} {s : List Char} (h : Matches a s) : Matches (.either a b) s
  | right {a b : Pattern} {s : List Char} (h : Matches b s) : Matches (.either a b) s
  | manyNil {a : Pattern} : Matches (.many a) []
  | manyCons {a : Pattern} {s t : List Char} (ha : Matches a s) (ht : Matches (.many a) t) :
      Matches (.many a) (s ++ t)

/-- Whether the empty text belongs to the pattern. -/
def nullable : Pattern → Bool
  | never => false
  | empty => true
  | one _ => false
  | seq a b => a.nullable && b.nullable
  | either a b => a.nullable || b.nullable
  | many _ => true

/-- Concatenation that drops an impossible or empty part at once. -/
def andThen : Pattern → Pattern → Pattern
  | never, _ => never
  | _, never => never
  | empty, b => b
  | a, b => seq a b

/-- Choice that drops an impossible side at once. -/
def orElse : Pattern → Pattern → Pattern
  | never, b => b
  | a, never => a
  | a, b => either a b

/-- What may follow the character `c` in a text of the pattern. -/
def after (c : Char) : Pattern → Pattern
  | never => never
  | empty => never
  | one test => if test c then empty else never
  | seq a b =>
    if a.nullable then ((a.after c).andThen b).orElse (b.after c)
    else (a.after c).andThen b
  | either a b => (a.after c).orElse (b.after c)
  | many a => (a.after c).andThen (many a)

/-- The length of the longest text of the pattern at the start of `s`, if there is one. -/
def longest : Pattern → List Char → Option Nat
  | never, _ => none
  | r, [] => if r.nullable then some 0 else none
  | r, c :: cs =>
    match (r.after c).longest cs with
    | some n => some (n + 1)
    | none => if r.nullable then some 0 else none

/-! ## Common patterns -/

/-- Exactly the character `c`. -/
def exactly (c : Char) : Pattern :=
  one (· == c)

/-- Exactly the given text. -/
def word (s : String) : Pattern :=
  s.toList.foldr (fun c rest => seq (exactly c) rest) empty

/-- One text of the pattern or none. -/
def opt (r : Pattern) : Pattern :=
  either empty r

/-- At least one text of the pattern. -/
def some1 (r : Pattern) : Pattern :=
  seq r (many r)

end Pattern
end SchemaGraph.Lexical
