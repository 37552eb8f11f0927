import SchemaGraph.Shell.Records.Session
/-!
# Running programs for records

Expressions give values and may change the session, statements change it, and rules are applied to
one record after the other. Every nested step of a run takes one of `fuel` steps.
-/

namespace SchemaGraph.Shell.Records

/-- A target whose keys or number are known. -/
inductive Spot where
  | named (name : String)
  | element (array : Nat) (key : String) (isNumber : Bool)
  | field (number : Nat)

namespace Runner

/-- Ends the program with a complaint that says which record is the present one. -/
def failHere (complaint : String) : Runner α := do
  let file ← textOf "FILENAME"
  let own ← textOf "FNR"
  let all ← textOf "NR"
  fail ("run time error: " ++ complaint ++ "\n\tFILENAME=\"" ++ file ++ "\" FNR=" ++ own ++
    " NR=" ++ all)

/-! ## Places of values -/

/-- The value at a spot. -/
def valueAt (spot : Spot) : Runner Value := do
  match spot with
  | .named name => valueOf name
  | .field number => field number
  | .element array key isNumber =>
    let (v, changed) := (← elements array).lookUp isNumber key
    setElements array changed
    return v

/-- Puts a value at a spot. -/
def setValueAt (spot : Spot) (v : Value) : Runner Unit := do
  match spot with
  | .named name => setValue name v
  | .field number => setField number v
  | .element array key isNumber =>
    setElements array ((← elements array).put isNumber key v)

/-- The number of a field that a value is. -/
def fieldSpot (v : Value) : Runner Spot := do
  let n := v.toNumber.clamped
  if n < 0 then failHere ("negative field index $" ++ toString n) else return .field n.toNat

/-- The key that values are, and whether it is found as a number. -/
def keyOf (values : List Value) : Runner (String × Bool) := do
  match values with
  | [.number r] =>
    match r.integerText? with
    | some digits => return (digits, true)
    | none => return (← toText (.number r), false)
  | values => return (String.intercalate (← textOf "SUBSEP") (← values.mapM toText), false)

/-! ## Operations -/

/-- How two values are ordered: as numbers if both count as such, else as texts. -/
def order (a b : Value) : Runner Ordering := do
  if a.isNumber && b.isNumber then return a.toNumber.order b.toNumber
  else return compare (← toText a) (← toText b)

/-- What an operation makes of two values. -/
def operate (operation : Operation) (a b : Value) : Runner Value := do
  let number (f : RealNumber → RealNumber → RealNumber) : Runner Value :=
    return .number (f a.toNumber b.toNumber)
  let holds (test : Ordering → Bool) : Runner Value := do
    return .ofBool (test (← order a b))
  match operation with
  | .add => number .add
  | .subtract => number .subtract
  | .multiply => number .multiply
  | .divide => number .divide
  | .remainder => number .remainder
  | .power => number .power
  | .join => return .text ((← toText a) ++ (← toText b))
  | .less => holds (· = .lt)
  | .atMost => holds (· ≠ .gt)
  | .equal => holds (· = .eq)
  | .different => holds (· ≠ .eq)
  | .atLeast => holds (· ≠ .lt)
  | .greater => holds (· = .gt)

/-- A replacement with the text that it replaces, for which an ampersand stands unless a backslash
protects it. -/
def replacement (matched : List Char) : List Char → List Char
  | '\\' :: '&' :: cs => '&' :: replacement matched cs
  | '\\' :: '\\' :: cs => '\\' :: replacement matched cs
  | '&' :: cs => matched ++ replacement matched cs
  | c :: cs => c :: replacement matched cs
  | [] => []

/-- A text in which matches of a pattern are replaced, and their number. Directly behind a match
nothing that is empty is one. Every step takes a character, so `fuel` is their number. -/
def substituted (pattern : Regex) (isGlobal : Bool) (text : List Char) :
    (fuel : Nat) → (latest : Option Nat) → Place → List Char × Nat
  | 0, _, p => (p.rest, 0)
  | fuel + 1, latest, p =>
    match pattern.find? mode p with
    | none => (p.rest, 0)
    | some found =>
      let before := p.rest.take (found.start.position - p.position)
      let matched := found.text
      let isSkipped := matched = [] && latest = some found.start.position
      let put := if isSkipped then [] else replacement matched text
      let count := if isSkipped then 0 else 1
      if !isGlobal then (before ++ put ++ found.stop.rest, count)
      else if matched ≠ [] then
        let (rest, more) :=
          substituted pattern isGlobal text fuel (some found.stop.position) found.stop
        (before ++ put ++ rest, more + count)
      else
        match found.stop.rest with
        | [] => (before ++ put, count)
        | c :: _ =>
          let (rest, more) := substituted pattern isGlobal text fuel none found.stop.advance
          (before ++ put ++ c :: rest, more + count)

/-- The place of a text in another one, counted from one; zero if it is nowhere. `passed` is the
number of characters that have been passed. -/
def indexOf (part : List Char) : (passed : Nat) → List Char → Nat
  | passed, [] => if part = [] && passed = 0 then 0 else 0
  | passed, c :: cs =>
    if part.isPrefixOf (c :: cs) then passed + 1 else indexOf part (passed + 1) cs

/-- The part of a text from a place on, with at most the given number of characters. -/
def part (text : List Char) (start : RealNumber) (count : Option RealNumber) : List Char :=
  let rest := text.drop ((max 1 start.clamped).toNat - 1)
  match count with
  | some n => rest.take n.clamped.toNat
  | none => rest

/-! ## Runs -/

section Runs

variable (l : Launch) (program : Program)

mutual

/-- The value of an expression. -/
def evaluate : (fuel : Nat) → Expression → Runner Value
  | 0, _ => failHere "function call nesting too deep"
  | fuel + 1, e => do
    match e with
    | .number r => return .number r
    | .text s => return .text s
    | .pattern pattern =>
      return .ofBool (pattern.occursIn mode (← toText (← field 0)).toList)
    | .value target => valueAt (← spotOf fuel target)
    | .assign target operation value =>
      let spot ← spotOf fuel target
      let v ← evaluate fuel value
      let v ←
        match operation with
        | some operation => operate operation (← valueAt spot) v
        | none => pure v
      setValueAt spot v
      return v
    | .step target isUp isAfter =>
      let spot ← spotOf fuel target
      let before := (← valueAt spot).toNumber
      let after := before.add (.ofInt (if isUp then 1 else -1))
      setValueAt spot (.number after)
      return .number (if isAfter then before else after)
    | .negation body => return .ofBool (!(← evaluate fuel body).holds)
    | .minus body => return .number (← evaluate fuel body).toNumber.opposite
    | .plus body => return .number (← evaluate fuel body).toNumber
    | .binary operation first second =>
      let a ← evaluate fuel first
      operate operation a (← evaluate fuel second)
    | .both first second =>
      if (← evaluate fuel first).holds then return .ofBool (← evaluate fuel second).holds
      else return .ofBool false
    | .either first second =>
      if (← evaluate fuel first).holds then return .ofBool true
      else return .ofBool (← evaluate fuel second).holds
    | .choose condition first second =>
      if (← evaluate fuel condition).holds then evaluate fuel first else evaluate fuel second
    | .search isNegated text pattern =>
      let text ← toText (← evaluate fuel text)
      let pattern ← patternIn fuel pattern
      return .ofBool (pattern.occursIn mode text.toList != isNegated)
    | .contains keys array =>
      let (key, isNumber) ← keyOf (← evaluateAll fuel keys)
      let number ← arrayOf array
      let found ← elements number
      if found.values.contains key then
        setElements number (found.touch isNumber key)
        return .ofBool true
      else return .ofBool false
    | .routine routine arguments => runRoutine fuel routine arguments
    | .call name arguments =>
      match program.functions.lookup name with
      | none => fail ("line 1: function " ++ name ++ " never defined")
      | some definition =>
        let given ← slotsOf fuel arguments
        let slots := definition.parameters.zipIdx.map fun (name, i) =>
          (name, (given[i]?).getD (.value .unset))
        let before := (← get).locals
        modify fun s => { s with locals := some (.ofList slots) }
        let result : Value ←
          try
            execute fuel definition.body
            pure .unset
          catch e =>
            match e with
            | .return v => pure v
            | e =>
              modify fun s => { s with locals := before }
              throw e
        modify fun s => { s with locals := before }
        return result
    | .readRecord source target =>
      let found : Option (Option (List Char)) ←
        match source with
        | .input => some <$> nextRecord (2 * ((← valueOf "ARGC").toNumber.clamped.toNat + 2))
        | .file name =>
          let name ← toText (← evaluate fuel name)
          if ← openReading l false name then some <$> recordFrom false name else pure none
        | .command text =>
          let text ← toText (← evaluate fuel text)
          if ← openReading l true text then some <$> recordFrom true text else pure none
      match found with
      | none => return .number (.ofInt (-1))
      | some none => return .ofNat 0
      | some (some text) =>
        if source matches .input then countRecord
        let v := Value.input (String.ofList text)
        match target with
        | some target => setValueAt (← spotOf fuel target) v
        | none => setRecord v
        return .ofNat 1

/-- The values of expressions. -/
def evaluateAll : (fuel : Nat) → List Expression → Runner (List Value)
  | 0, _ | _, [] => return []
  | fuel + 1, e :: rest => do
    let v ← evaluate fuel e
    return v :: (← evaluateAll fuel rest)

/-- The spot of a target. -/
def spotOf : (fuel : Nat) → Target → Runner Spot
  | 0, _ => failHere "function call nesting too deep"
  | fuel + 1, target => do
    match target with
    | .named name => return .named name
    | .field place => fieldSpot (← evaluate fuel place)
    | .element array keys =>
      let (key, isNumber) ← keyOf (← evaluateAll fuel keys)
      return .element (← arrayOf array) key isNumber

/-- The pattern that an expression is or gives as a text. -/
def patternIn : (fuel : Nat) → Expression → Runner Regex
  | 0, _ => failHere "function call nesting too deep"
  | fuel + 1, e => do
    match e with
    | .pattern pattern => return pattern
    | e => patternOf (← toText (← evaluate fuel e))

/-- What the parameters of a function stand for that gets some arguments. A name that stands for
nothing yet is passed as it is, since the function may make it an array. -/
def slotsOf : (fuel : Nat) → List Expression → Runner (List Slot)
  | 0, _ | _, [] => return []
  | fuel + 1, e :: rest => do
    let given : Slot ←
      match e with
      | .value (.named name) =>
        match ← slot name with
        | none | some (.value .unset) =>
          let number ← newArray
          setSlot name (.pending number)
          pure (.pending number)
        | some found => pure found
      | e => Slot.value <$> evaluate fuel e
    return given :: (← slotsOf fuel rest)

/-- The value of a function that every program has. -/
def runRoutine : (fuel : Nat) → Routine → List Expression → Runner Value
  | 0, _, _ => failHere "function call nesting too deep"
  | fuel + 1, routine, arguments => do
    let textAt (e : Expression) : Runner (List Char) := do
      return (← toText (← evaluate fuel e)).toList
    let change (f : Char → Char) (e : Expression) : Runner Value := do
      return .text (String.ofList ((← textAt e).map f))
    let machine (f : Float → Float) (e : Expression) : Runner Value := do
      return .number (.ofFloat (f (← evaluate fuel e).toNumber.toFloat))
    let substitute (isGlobal : Bool) (pattern text : Expression) (target : Option Expression) :
        Runner Value := do
      let pattern ← patternIn fuel pattern
      let text ← textAt text
      let spot ←
        match target with
        | none => pure (some (.field 0))
        | some (.value target) => some <$> spotOf fuel target
        | some _ => pure none
      match spot with
      | none => return .ofNat 0
      | some spot =>
        let old := (← toText (← valueAt spot)).toList
        let (new, count) :=
          substituted pattern isGlobal text (old.length + 2) none (.start old)
        if 0 < count then setValueAt spot (.text (String.ofList new))
        return .ofNat count
    let splitInto (text : List Char) (array : String) (parts : List (List Char)) :
        Runner Value := do
      let parts := if text = [] then [] else parts
      let values := parts.map fun part => Value.input (String.ofList part)
      setElements (← arrayOf array) (.ofParts values)
      return .ofNat parts.length
    match routine, arguments with
    | .length, [] => return .ofNat (← toText (← field 0)).length
    | .length, [.value (.named name)] =>
      match ← slot name with
      | some (.array number) => return .ofNat (← elements number).values.size
      | _ => return .ofNat (← toText (← valueOf name)).length
    | .length, [e] => return .ofNat (← textAt e).length
    | .index, [text, found] =>
      let text ← textAt text
      return .ofNat (indexOf (← textAt found) 0 text)
    | .substring, [text, start] =>
      let text ← textAt text
      return .text (String.ofList (part text (← evaluate fuel start).toNumber none))
    | .substring, [text, start, count] =>
      let text ← textAt text
      let start ← evaluate fuel start
      let count ← evaluate fuel count
      return .text (String.ofList (part text start.toNumber (some count.toNumber)))
    | .split, [text, .value (.named array)] =>
      let text ← textAt text
      splitInto text array (← partsOf (← textOf "FS") text)
    | .split, [text, .value (.named array), .pattern pattern] =>
      let text ← textAt text
      splitInto text array (partsBetween pattern text.length (.start text))
    | .split, [text, .value (.named array), separator] =>
      let text ← textAt text
      splitInto text array (← partsOf (String.ofList (← textAt separator)) text)
    | .substitute, [pattern, text] => substitute false pattern text none
    | .substitute, [pattern, text, target] => substitute false pattern text (some target)
    | .substituteAll, [pattern, text] => substitute true pattern text none
    | .substituteAll, [pattern, text, target] => substitute true pattern text (some target)
    | .find, [text, pattern] =>
      let text ← textAt text
      let (start, length) : Value × Value :=
        match (← patternIn fuel pattern).find? mode (.start text) with
        | some found => (.ofNat (found.start.position + 1), .ofNat found.text.length)
        | none => (.ofNat 0, .number (.ofInt (-1)))
      setGlobal "RSTART" start
      setGlobal "RLENGTH" length
      return start
    | .format, format :: values =>
      let format ← textAt format
      let values ← evaluateAll fuel values
      let conversion ← textOf "CONVFMT"
      match filled (·.toText conversion) format values with
      | ⟨text, none⟩ => return .text (String.ofList text)
      | ⟨_, some flaw⟩ =>
        failHere (flaw ++ "sprintf(\"" ++ String.ofList format ++ "\")")
    | .lower, [text] => change Char.toLower text
    | .upper, [text] => change Char.toUpper text
    | .sine, [e] => machine Float.sin e
    | .cosine, [e] => machine Float.cos e
    | .exponential, [e] => machine Float.exp e
    | .logarithm, [e] => machine Float.log e
    | .root, [e] => machine Float.sqrt e
    | .angle, [e, f] =>
      let a ← evaluate fuel e
      let b ← evaluate fuel f
      return .number (.ofFloat (Float.atan2 a.toNumber.toFloat b.toNumber.toFloat))
    | .whole, [e] => return .number (← evaluate fuel e).toNumber.truncated
    | .run, [e] =>
      let command ← toText (← evaluate fuel e)
      flush
      return .ofNat (← runCommand l "sh" command)
    | .close, [e] =>
      match ← close l (← toText (← evaluate fuel e)) with
      | some status => return .ofNat status
      | none => return .number (.ofInt (-1))
    | .flush, _ =>
      flush
      return .ofNat 0
    | _, _ => return .ofNat 0

/-- Prints a text where a statement says. -/
def printAt : (fuel : Nat) → Printout → List Char → Runner Unit
  | 0, _, _ => failHere "function call nesting too deep"
  | fuel + 1, printout, text => do
    match printout with
    | .output => modify fun s => { s with printed := text :: s.printed }
    | .file appends name => printTo false appends (← toText (← evaluate fuel name)) text
    | .command command => printTo true false (← toText (← evaluate fuel command)) text

/-- Does what a statement says. -/
def execute : (fuel : Nat) → Statement → Runner Unit
  | 0, _ => failHere "function call nesting too deep"
  | fuel + 1, statement => do
    match statement with
    | .evaluate body =>
      let _ ← evaluate fuel body
    | .print values printout =>
      let values ← if values.isEmpty then pure [← field 0] else evaluateAll fuel values
      let format ← textOf "OFMT"
      let text := String.intercalate (← textOf "OFS") (values.map (·.toText format))
      printAt fuel printout (text ++ (← textOf "ORS")).toList
    | .printFormat values printout =>
      match ← evaluateAll fuel values with
      | [] => return ()
      | format :: values =>
        let format := (← toText format).toList
        let conversion ← textOf "CONVFMT"
        let ⟨text, flaw⟩ := filled (·.toText conversion) format values
        printAt fuel printout text
        match flaw with
        | some flaw => failHere (flaw ++ "printf(\"" ++ String.ofList format ++ "\")")
        | none => return ()
    | .block body => executeAll fuel body
    | .choose condition body otherwise =>
      if (← evaluate fuel condition).holds then execute fuel body else execute fuel otherwise
    | .loop runsFirst condition step body => repeatedly fuel runsFirst condition step body
    | .each name array body =>
      let number ← arrayOf array
      let (keys, found) := (← elements number).keys
      setElements number found
      forKeys fuel name body keys
    | .leave => throw .leave
    | .resume => throw .resume
    | .next => throw .next
    | .nextFile => throw .nextFile
    | .exit status =>
      match status with
      | some status =>
        let code := (← evaluate fuel status).toNumber.clamped
        modify fun s => { s with status := (code.emod 256).toNat }
      | none => pure ()
      throw .exit
    | .return value =>
      match value with
      | some value => throw (.return (← evaluate fuel value))
      | none => throw (.return .unset)
    | .delete array keys =>
      let number ← arrayOf array
      match keys with
      | some keys =>
        let (key, _) ← keyOf (← evaluateAll fuel keys)
        setElements number ((← elements number).delete key)
      | none => setElements number .empty

/-- Does what statements say, one after the other. -/
def executeAll : (fuel : Nat) → List Statement → Runner Unit
  | 0, _ => failHere "function call nesting too deep"
  | _, [] => return ()
  | fuel + 1, statement :: rest => do
    execute fuel statement
    executeAll fuel rest

/-- Does the body of a loop, and answers whether the loop goes on. -/
def runBody : (fuel : Nat) → Statement → Runner Bool
  | 0, _ => return false
  | fuel + 1, body => do
    try
      execute fuel body
      pure true
    catch e =>
      match e with
      | .leave => pure false
      | .resume => pure true
      | e => throw e

/-- Does the body of a loop as long as its condition holds. -/
def repeatedly : (fuel : Nat) → (runsFirst : Bool) → Expression → Statement → Statement →
    Runner Unit
  | 0, _, _, _, _ => return ()
  | fuel + 1, runsFirst, condition, step, body => do
    let goesOn ← if runsFirst then pure true else do pure (← evaluate fuel condition).holds
    if goesOn then
      if ← runBody fuel body then
        execute fuel step
        repeatedly fuel false condition step body

/-- Does the body of a loop for keys. -/
def forKeys : (fuel : Nat) → String → Statement → List String → Runner Unit
  | 0, _, _, _ | _, _, _, [] => return ()
  | fuel + 1, name, body, key :: keys => do
    setValue name (.text key)
    if ← runBody fuel body then forKeys fuel name body keys

end

/-- Whether a rule applies to the present record. `place` is its place among the rules. -/
def applies (fuel place : Nat) (condition : Condition) : Runner Bool := do
  match condition with
  | .first | .last => return false
  | .always => return true
  | .when condition => return (← evaluate l program fuel condition).holds
  | .range first last =>
    let hasBegun := (← get).ranges.contains place
    if hasBegun || (← evaluate l program fuel first).holds then
      let ends := (← evaluate l program fuel last).holds
      modify fun s =>
        let others := s.ranges.filter (· != place)
        { s with ranges := if ends then others else place :: others }
      return true
    else return false

/-- Applies rules to the present record. -/
def applyRules (fuel : Nat) : (place : Nat) → List Rule → Runner Unit
  | _, [] => return ()
  | place, rule :: rest => do
    if ← applies l program fuel place rule.condition then execute l program fuel rule.action
    applyRules fuel (place + 1) rest

/-- Applies the rules to one record after the other. -/
def applyToAll (depth : Nat) : (fuel : Nat) → Runner Unit
  | 0 => return ()
  | fuel + 1 => do
    match ← nextRecord (2 * ((← valueOf "ARGC").toNumber.clamped.toNat + 2)) with
    | none => return ()
    | some text =>
      countRecord
      setRecord (.input (String.ofList text))
      try applyRules l program depth 0 program.rules
      catch e =>
        match e with
        | .next => pure ()
        | .nextFile => modify fun s => { s with input? := none }
        | e => throw e
      applyToAll depth fuel

/-- Does what the rules say that apply at one time. -/
def executeRules (fuel : Nat) (chosen : Condition → Bool) : Runner Unit := do
  for rule in program.rules do
    if chosen rule.condition then execute l program fuel rule.action

/-- Goes on after an interrupt by which the part of the program has ended. -/
def sparing (body : Runner Unit) : Runner Unit := do
  try body
  catch e =>
    match e with
    | .failure complaint => throw (.failure complaint)
    | _ => pure ()

/-- Runs the program. -/
def runProgram (fuel : Nat) : Runner Unit := do
  let isEnd (condition : Condition) : Bool := condition matches .last
  let isStart (condition : Condition) : Bool := condition matches .first
  let exits ←
    try
      executeRules l program fuel isStart
      pure false
    catch e =>
      match e with
      | .failure complaint => throw (.failure complaint)
      | _ => pure true
  if !exits && program.rules.any (!isStart ·.condition) then
    sparing (applyToAll l program fuel fuel)
  sparing (executeRules l program fuel isEnd)

end Runs
end Runner
end SchemaGraph.Shell.Records
