/-!
# Options of programs

A program takes letters after a hyphen as options, wherever they stand before `--`. A letter may
take a value: the rest of its word, or the next one. A long option is a word after two hyphens,
which can be cut short as long as it means one option only; its value follows an equals sign, or is
the next word.
-/

namespace SchemaGraph.Shell

/-- The options of a program. -/
structure OptionTable where
  /-- The letters that stand alone. -/
  letters : List Char
  /-- The letters that take a value. -/
  valued : List Char
  /-- The letters that may have a value in their own word. -/
  optional : List Char
  /-- The names of long options, each with the letter that it means. -/
  long : List (String × Char)
  /-- Whether the first word that is no option ends the options. -/
  stopsEarly : Bool

/-- Options with their values, and the other words. -/
structure Selected where
  options : List (Char × String)
  operands : List String

/-- Why words are no options. -/
inductive OptionError where
  | invalid (letter : Char)
  | unrecognized (word : String)
  | ambiguous (word : String) (names : List String)
  | noValue (letter : Char)
  | noLongValue (name : String)
  | unwantedValue (name : String)
  deriving DecidableEq, Repr

/-- What a program says of a problem with its options. -/
def OptionError.message : OptionError → String
  | invalid letter => "invalid option -- '" ++ String.singleton letter ++ "'"
  | unrecognized word => "unrecognized option '" ++ word ++ "'"
  | ambiguous word names =>
    "option '" ++ word ++ "' is ambiguous; possibilities:" ++
      String.join (names.map fun name => " '--" ++ name ++ "'")
  | noValue letter => "option requires an argument -- '" ++ String.singleton letter ++ "'"
  | noLongValue name => "option '--" ++ name ++ "' requires an argument"
  | unwantedValue name => "option '--" ++ name ++ "' doesn't allow an argument"

namespace Selected

/-- Whether an option was given. -/
def has (s : Selected) (letter : Char) : Bool :=
  s.options.any (·.1 == letter)

/-- The value of an option; the last one counts. -/
def value? (s : Selected) (letter : Char) : Option String :=
  (s.options.reverse.find? (·.1 == letter)).map (·.2)

/-- The values of an option. -/
def allValues (s : Selected) (letter : Char) : List String :=
  (s.options.filter (·.1 == letter)).map (·.2)

/-- The last one of some letters that was given. -/
def last? (s : Selected) (letters : List Char) : Option Char :=
  (s.options.reverse.find? fun option => letters.contains option.1).map (·.1)

/-- More options in front. -/
def withOptions (options : List (Char × String)) (s : Selected) : Selected :=
  { s with options := options ++ s.options }

/-- One more operand in front. -/
def withOperand (word : String) (s : Selected) : Selected :=
  { s with operands := word :: s.operands }

end Selected

namespace OptionTable

/-- A table of letters, where options may stand everywhere. -/
def ofLetters (letters valued : String) (long : List (String × Char)) : OptionTable :=
  ⟨letters.toList, valued.toList, [], long, false⟩

/-- Reads the letters after a hyphen: the options, and the letter whose value is the next word. -/
def readLetters (table : OptionTable) :
    List Char → Except OptionError (List (Char × String) × Option Char)
  | [] => .ok ([], none)
  | letter :: letters =>
    if table.letters.contains letter then do
      let (options, isOpen) ← readLetters table letters
      return ((letter, "") :: options, isOpen)
    else if table.optional.contains letter then .ok ([(letter, String.ofList letters)], none)
    else if table.valued.contains letter then
      if letters = [] then .ok ([], some letter)
      else .ok ([(letter, String.ofList letters)], none)
    else .error (.invalid letter)

/-- The long option of which a name is a beginning. -/
def longOption (table : OptionTable) (name : String) : Except OptionError (String × Char) :=
  match table.long.find? (·.1 == name) with
  | some option => .ok option
  | none =>
    match table.long.filter fun option => name.toList.isPrefixOf option.1.toList with
    | [option] => .ok option
    | [] => .error (.unrecognized ("--" ++ name))
    | options =>
      if (options.map (·.2)).eraseDups.length = 1 then .ok (options.headD ("", ' '))
      else .error (.ambiguous ("--" ++ name) (options.map (·.1)))

/-- Reads the words of a program. -/
def read (table : OptionTable) : List String → Except OptionError Selected
  | [] => .ok ⟨[], []⟩
  | word :: words =>
    let operand : Except OptionError Selected :=
      if table.stopsEarly then .ok ⟨[], word :: words⟩
      else (read table words).map (·.withOperand word)
    match word.toList with
    | ['-'] => operand
    | ['-', '-'] => .ok ⟨[], words⟩
    | '-' :: '-' :: text => do
      let (name, letter) ← table.longOption (String.ofList (text.takeWhile (· != '=')))
      let takesValue := table.valued.contains letter
      match text.dropWhile (· != '=') with
      | _ :: value =>
        if takesValue || table.optional.contains letter then
          return (← read table words).withOptions [(letter, String.ofList value)]
        else throw (.unwantedValue name)
      | [] =>
        if !takesValue then return (← read table words).withOptions [(letter, "")]
        else
          match words with
          | [] => throw (.noLongValue name)
          | value :: words => return (← read table words).withOptions [(letter, value)]
    | '-' :: letters => do
      match ← table.readLetters letters with
      | (options, none) => return (← read table words).withOptions options
      | (options, some letter) =>
        match words with
        | [] => throw (.noValue letter)
        | value :: words =>
          return (← read table words).withOptions (options ++ [(letter, value)])
    | _ => operand

end OptionTable
end SchemaGraph.Shell
