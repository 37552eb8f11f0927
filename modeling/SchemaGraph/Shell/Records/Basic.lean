import SchemaGraph.Shell.Records.Number
import SchemaGraph.Shell.Regex.Basic
/-!
# Programs for records

A program for records is a list of rules. The text that is read is divided into records, and these
into fields; every rule whose condition a record meets does something with it. Values are numbers
and texts, which become each other as they are needed.
-/

namespace SchemaGraph.Shell.Records

/-- What is done with two values. -/
inductive Operation where
  | add | subtract | multiply | divide | remainder | power
  /-- The second text is put behind the first one. -/
  | join
  | less | atMost | equal | different | atLeast | greater
  deriving DecidableEq, Repr

/-- The functions that every program has. -/
inductive Routine where
  | length | index | substring | split | substitute | substituteAll | find | format
  | lower | upper
  | sine | cosine | angle | exponential | logarithm | root | whole
  | random | seed
  /-- Runs a command. -/
  | run
  | close | flush
  deriving DecidableEq, Repr

mutual

/-- An expression. -/
inductive Expression where
  | number (value : RealNumber)
  | text (text : String)
  /-- Whether the record has a text that a pattern matches. -/
  | pattern (pattern : Regex)
  | value (target : Target)
  | assign (target : Target) (operation : Option Operation) (value : Expression)
  /-- One is added or taken away; the value is the one before or after that. -/
  | step (target : Target) (isUp isAfter : Bool)
  | negation (body : Expression)
  | minus (body : Expression)
  | plus (body : Expression)
  | binary (operation : Operation) (first second : Expression)
  | both (first second : Expression)
  | either (first second : Expression)
  | choose (condition first second : Expression)
  /-- Whether a text has a part that a pattern matches, or has none. -/
  | search (isNegated : Bool) (text pattern : Expression)
  /-- Whether an array has an element of some keys. -/
  | contains (keys : List Expression) (array : String)
  | routine (routine : Routine) (arguments : List Expression)
  | call (name : String) (arguments : List Expression)
  /-- Reads a record, which becomes the present one or goes to a place of its own. -/
  | readRecord (source : RecordSource) (target : Option Target)

/-- What can hold a value. -/
inductive Target where
  | named (name : String)
  | element (array : String) (keys : List Expression)
  | field (place : Expression)

/-- Where a record is read from. -/
inductive RecordSource where
  | input
  | file (name : Expression)
  | command (text : Expression)

end

/-- Where something is printed. -/
inductive Printout where
  | output
  | file (appends : Bool) (name : Expression)
  | command (text : Expression)

/-- A statement. -/
inductive Statement where
  | evaluate (body : Expression)
  | print (values : List Expression) (printout : Printout)
  /-- Prints values in the places of a format, which is the first one. -/
  | printFormat (values : List Expression) (printout : Printout)
  | block (body : List Statement)
  | choose (condition : Expression) (body otherwise : Statement)
  /-- The step is done after the body. With `runsFirst` the body comes before the condition. -/
  | loop (runsFirst : Bool) (condition : Expression) (step body : Statement)
  /-- The body is done for every key of an array. -/
  | each (name array : String) (body : Statement)
  | leave
  | resume
  | next
  | nextFile
  | exit (status : Option Expression)
  | return (value : Option Expression)
  /-- Takes an element or all elements of an array away. -/
  | delete (array : String) (keys : Option (List Expression))

/-- When a rule applies. -/
inductive Condition where
  /-- Before the first record. -/
  | first
  /-- After the last record. -/
  | last
  | always
  | when (condition : Expression)
  /-- From a record that meets the first condition up to one that meets the second one. -/
  | range (first last : Expression)

/-- A rule. -/
structure Rule where
  condition : Condition
  action : Statement

/-- A function that a program has of its own. -/
structure Definition where
  parameters : List String
  body : Statement

/-- A program. -/
structure Program where
  rules : List Rule
  functions : List (String × Definition)

/-- The functions that every program has, with their names and the least and the greatest number of
their arguments. -/
def routines : List (String × Routine × Nat × Nat) :=
  [("length", .length, 0, 1), ("index", .index, 2, 2), ("substr", .substring, 2, 3),
    ("split", .split, 2, 3), ("sub", .substitute, 2, 3), ("gsub", .substituteAll, 2, 3),
    ("match", .find, 2, 2), ("sprintf", .format, 1, 255), ("tolower", .lower, 1, 1),
    ("toupper", .upper, 1, 1), ("sin", .sine, 1, 1), ("cos", .cosine, 1, 1),
    ("atan2", .angle, 2, 2), ("exp", .exponential, 1, 1), ("log", .logarithm, 1, 1),
    ("sqrt", .root, 1, 1), ("int", .whole, 1, 1), ("rand", .random, 0, 0),
    ("srand", .seed, 0, 1), ("system", .run, 1, 1), ("close", .close, 1, 1),
    ("fflush", .flush, 0, 1)]

end SchemaGraph.Shell.Records
