import SchemaGraph.Shell.Builtin.Variables
/-!
# Reading lines and options

The command that reads a line into variables, and the one that takes options from arguments.
-/

namespace SchemaGraph.Shell.Call

/-- A character that has been read, and whether it can separate fields. -/
abbrev ReadChar : Type :=
  Char × Bool

/-- A line with its end: what it says, how many characters it takes, and whether it has an end. With
`escapes` a backslash protects the next character, and with a line end it vanishes. -/
def lineAt (escapes : Bool) : List Char → List ReadChar × Nat × Bool
  | [] => ([], 0, false)
  | '\\' :: c :: cs =>
    if escapes then
      let (text, size, ends) := lineAt escapes cs
      (if c = '\n' then text else (c, false) :: text, size + 2, ends)
    else if c = '\n' then ([('\\', true)], 2, true)
    else
      let (text, size, ends) := lineAt escapes (c :: cs)
      (('\\', true) :: text, size + 1, ends)
  | c :: cs =>
    if c = '\n' then ([], 1, true)
    else if c = '\\' && escapes then ([], 1, false)
    else
      let (text, size, ends) := lineAt escapes cs
      (if c = '\x00' then text else (c, true) :: text, size + 1, ends)

/-- The separators of fields, and which of them are blanks. -/
structure FieldEnds where
  separators : List Char

namespace FieldEnds

/-- Whether a character separates fields. -/
def separates (e : FieldEnds) (c : ReadChar) : Bool :=
  c.2 && e.separators.contains c.1

/-- Whether a character is a separator that counts only once where several of them stand. -/
def isBlank (e : FieldEnds) (c : ReadChar) : Bool :=
  e.separates c && (isSpace c.1 || c.1 == '\n')

/-- The text after a separator, with the blanks around it. -/
def afterSeparator (e : FieldEnds) (cs : List ReadChar) : List ReadChar :=
  match cs.dropWhile e.isBlank with
  | c :: rest => if e.separates c then rest.dropWhile e.isBlank else c :: rest
  | [] => []

/-- What is left of a line as the last field: without the blanks at its end, and without its only
separator when that is its end. -/
def lastField (e : FieldEnds) (cs : List ReadChar) : List ReadChar :=
  let cs := (cs.reverse.dropWhile e.isBlank).reverse
  match cs.dropWhile fun c => !e.separates c with
  | [] => cs
  | rest =>
    if e.afterSeparator rest = [] then cs.takeWhile fun c => !e.separates c else cs

/-- The values of several variables; the last one gets what is left. -/
def fields (e : FieldEnds) : (count : Nat) → List ReadChar → List (List ReadChar)
  | 0, _ => []
  | 1, cs => [e.lastField cs]
  | count + 1, cs =>
    (cs.takeWhile fun c => !e.separates c) ::
      fields e count (e.afterSeparator (cs.dropWhile fun c => !e.separates c))

end FieldEnds

/-- Reads a line into variables. -/
def read (call : Call) (s : State) : State :=
  call.withLetters ['r', 'p'] s fun found words =>
    let names := if found.contains 'p' then words.tail else words
    let names := if names = [] && call.frame.variety = .extended then ["REPLY"] else names
    match names, names.find? fun name => !isName name with
    | [], _ => call.fail s 2 "arg count"
    | _, some name => call.fail s 2 (name ++ ": bad variable name")
    | names, none =>
      let cs := (s.readable 0).map fun byte => Char.ofNat byte.toNat
      let (line, size, ends) := lineAt (!found.contains 'r') cs
      let e : FieldEnds := ⟨s.separators⟩
      let values := e.fields names.length (line.dropWhile e.isBlank)
      let s := (names.zip values).foldl (fun s entry =>
        s.assign { call.frame with reader := call.name } entry.1
          (String.ofList (entry.2.map (·.1)))) (s.skip 0 size)
      if s.isRunning then { s with status := if ends then 0 else 1 } else s

/-! ## Options of a script -/

/-- What a step through options has found. -/
structure OptionStep where
  /-- The letter of the option, or a sign that says what is wrong. -/
  name : String
  /-- The value of the option; none if there is nothing to say of one. -/
  value : Option String
  complaint : Option String
  place : Nat
  lettersTaken : Nat

namespace OptionStep

/-- The letters that follow, and the place of the word after them: those of the word before the
place as far as they have not been taken, or those of the word there. None at the end of the
options. -/
def letters? (words : List String) (place taken : Nat) : List Char × Nat × Bool :=
  let inside := if taken = 0 then [] else (words[place - 2]?.getD "").toList.drop taken
  if inside ≠ [] then (inside, place, false)
  else
    match (words[place - 1]?.getD "").toList with
    | ['-', '-'] => ([], place + 1, true)
    | '-' :: letter :: letters => (letter :: letters, place + 1, false)
    | _ => ([], place, true)

/-- The next option of `words`; none at their end, where `place` is that of the word after it. -/
def next (known : List Char) (words : List String) (place taken : Nat) :
    Except Nat OptionStep :=
  let isSilent := known.head? = some ':'
  match letters? words place taken with
  | ([], place, _) | (_, place, true) => .error place
  | (letter :: letters, place, false) =>
    let name := String.singleton letter
    let size := (words[place - 2]?.getD "").length
    let taken := if letters = [] then 0 else size - letters.length
    let wrong (sign complaint : String) : OptionStep :=
      if isSilent then ⟨sign, some name, none, place, taken⟩
      else ⟨"?", none, some complaint, place, taken⟩
    match (if isSilent then known.tail else known).dropWhile fun c => c != letter || c == ':' with
    | [] => .ok (wrong "?" ("Illegal option -" ++ name))
    | _ :: ':' :: _ =>
      if letters ≠ [] then .ok ⟨name, some (String.ofList letters), none, place, 0⟩
      else
        match words[place - 1]? with
        | some value => .ok ⟨name, some value, none, place + 1, 0⟩
        | none => .ok (wrong ":" ("No arg for -" ++ name ++ " option"))
    | _ => .ok ⟨name, some "", none, place, taken⟩

end OptionStep

/-- Takes the next option from the arguments, or from the words that are given. -/
def getopts (call : Call) (s : State) : State :=
  match call.arguments with
  | known :: name :: rest =>
    let words := if rest = [] then s.arguments else rest
    let isPast := words.length + 1 < s.optionPlace
    let place := if isPast then 1 else s.optionPlace
    let taken := if isPast then 0 else s.lettersTaken
    let set (s : State) (name value : String) : State :=
      s.assign { call.frame with reader := call.name } name value
    let naming (s : State) (value : String) (place taken status : Nat) : State :=
      let s := set s "OPTIND" (toString place)
      if isName name then
        { set s name value with optionPlace := place, lettersTaken := taken, status }
      else
        call.fail { s with optionPlace := place, lettersTaken := taken } 2
          (name ++ ": bad variable name")
    match OptionStep.next known.toList words place taken with
    | .ok step =>
      let s := match step.complaint with
        | some complaint => s.put 2 (complaint ++ "\n")
        | none => s
      let s := match step.value with
        | some value => set s "OPTARG" value
        | none => { s with values := s.values.filterKeys (· != "OPTARG") }
      naming s step.name step.place step.lettersTaken 0
    | .error place => naming s "?" place 0 1
  | _ => call.fail s 2 "Usage: getopts optstring var [arg...]"

end SchemaGraph.Shell.Call
