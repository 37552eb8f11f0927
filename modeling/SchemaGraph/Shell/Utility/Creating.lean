import SchemaGraph.Shell.Arithmetic
import SchemaGraph.Shell.Utility.Basic
/-!
# Programs that create and remove

These programs create and remove files and directories, and say which files can be run. Others
create links and show where links and paths lead.
-/

namespace SchemaGraph.Shell.Utility

/-! ## Removing -/

/-- The remarks about what is removed with a directory: what is in it comes first. -/
def removalRemarks (t : FileTree) (word : String) (location : Location) : List Shown :=
  (t.below location).reverse.map fun e =>
    let name := shellQuoted (word ++ "/" ++ Text.toByteText (Path.ofPieces e.1))
    line ((if e.2 = .directory then "removed directory " else "removed ") ++ name)

/-- Removes one file, or a directory with what is below it. -/
def removePath (r : Request) (selected : Selected) (t : FileTree) (word : String) : Effect :=
  let recursive := selected.has 'r' || selected.has 'R'
  let force := selected.has 'f'
  let path := Request.path word
  let refuse (reason : String) : Effect :=
    .failure t 1 r.program ("cannot remove " ++ shellQuoted word ++ ": " ++ reason)
  let last := (Path.piecesFromEnd path).head?
  match t.statEntry path with
  | .error e =>
    if force && (e = .notFound || e = .notDirectory) then .none t else refuse e.reason
  | .ok entry =>
    if entry = .directory && !recursive && !selected.has 'd' then
      refuse SystemError.isDirectory.reason
    else if last = some "." || last = some ".." then
      .failure t 1 r.program
        ("refusing to remove '.' or '..' directory: skipping " ++ shellQuoted word)
    else
      match t.locateName path with
      | .error e => refuse e.reason
      | .ok location =>
        if !recursive && !(t.below location).isEmpty then
          refuse SystemError.directoryNotEmpty.reason
        else
          let kind := if entry = .directory then "removed directory " else "removed "
          let inner := if selected.has 'v' then removalRemarks t word location else []
          let e := remark (selected.has 'v') (t.remove location) (kind ++ shellQuoted word)
          { e with shown := inner ++ e.shown }

/-- Removes files. -/
def rm : Utility :=
  withOptions "dfirvIR" "" [("force", 'f'), ("recursive", 'r'), ("verbose", 'v'), ("dir", 'd')]
    fun r selected =>
      if selected.operands = [] && !selected.has 'f' then r.misuse "missing operand"
      else forEach (removePath r selected) r.tree selected.operands

/-- Removes one empty directory, and with `depth` those around it. -/
def removeDirectory (r : Request) (selected : Selected) : (depth : Nat) → FileTree → String → Effect
  | depth, t, word =>
    let path := Request.path word
    let refuse (reason : String) : Effect :=
      if selected.has 'i' && reason = SystemError.directoryNotEmpty.reason then .none t
      else .failure t 1 r.program ("failed to remove " ++ shellQuoted word ++ ": " ++ reason)
    let start := remark (selected.has 'v') t ("rmdir: removing directory, " ++ shellQuoted word)
    start.andThen fun t =>
      if (Path.piecesFromEnd path).head? = some "." then refuse SystemError.invalidMove.reason
      else
        match t.statEntry path, t.locateName path with
        | .error e, _ | _, .error e => refuse e.reason
        | .ok .directory, .ok location =>
          if !(t.below location).isEmpty then refuse SystemError.directoryNotEmpty.reason
          else
            let t := t.remove location
            match depth, directoryName word with
            | 0, _ => .none t
            | depth + 1, around =>
              if around = "." ∨ around = "/" then .none t
              else removeDirectory r selected depth t around
        | .ok _, _ => refuse SystemError.notDirectory.reason

/-- Removes empty directories. -/
def rmdir : Utility :=
  withOptions "pvi" "" [("parents", 'p'), ("verbose", 'v'), ("ignore-fail-on-non-empty", 'i')] <|
    needing "operand" fun r selected =>
      forEach (fun t word =>
        removeDirectory r selected (if selected.has 'p' then word.length else 0) t word)
        r.tree selected.operands

/-- Removes one file. -/
def unlink : Utility :=
  withOptions "" "" [] <| needing "operand" <| limiting 1 fun r selected =>
    let word := selected.operands.headD ""
    let refuse (e : SystemError) : Effect :=
      r.fail ("cannot unlink " ++ shellQuoted word ++ ": " ++ e.reason)
    match r.tree.statEntry (Request.path word), r.tree.locateName (Request.path word) with
    | .ok .directory, _ => refuse .isDirectory
    | .ok _, .ok location => .none (r.tree.remove location)
    | .error e, _ | _, .error e => refuse e

/-! ## Creating -/

/-- Creates a directory, with those around it that are missing; `before` are the pieces of the path
that have been passed. -/
def createAlong (r : Request) (selected : Selected) :
    (before pieces : List String) → FileTree → Effect
  | _, [], t => .none t
  | before, piece :: pieces, t =>
    let word := Path.ofPieces (before ++ [piece])
    let goOn (t : FileTree) : Effect := createAlong r selected (before ++ [piece]) pieces t
    if word = "" ∨ piece = "" then goOn t
    else
      match t.createDirectory (Request.path word) with
      | .ok t =>
        (remark (selected.has 'v') t
          ("mkdir: created directory " ++ shellQuoted word)).andThen goOn
      | .error e =>
        if t.isDirectory (Request.path word) then goOn t
        else
          .failure t 1 r.program ("cannot create directory " ++ shellQuoted word ++ ": " ++
            (if e = .fileExists && pieces ≠ [] then SystemError.notDirectory else e).reason)

/-- Creates directories. -/
def mkdir : Utility :=
  withOptions "pvZ" "m" [("parents", 'p'), ("mode", 'm'), ("verbose", 'v')] <| needing "operand"
    fun r selected =>
      forEach (fun t word =>
        if selected.has 'p' && word ≠ "" then
          createAlong r selected [] (Path.pieces word) t
        else
          match t.createDirectory (Request.path word) with
          | .ok t =>
            remark (selected.has 'v') t ("mkdir: created directory " ++ shellQuoted word)
          | .error e =>
            .failure t 1 r.program
              ("cannot create directory " ++ shellQuoted word ++ ": " ++ e.reason))
        r.tree selected.operands

/-- Creates files that are not there. -/
def touch : Utility :=
  withOptions "acfhm" "drt" [("no-create", 'c'), ("date", 'd'), ("reference", 'r')] <|
    needing "file operand" fun r selected =>
      forEach (fun t word =>
        let path := Request.path word
        if t.pathExists path || selected.has 'c' || word = "-" then .none t
        else
          match t.writeText path "" with
          | .ok t => .none t
          | .error e =>
            .failure t 1 r.program ("cannot touch " ++ shellQuoted word ++ ": " ++
              (if Path.wantsDirectory path then SystemError.notFound else e).reason))
        r.tree selected.operands

/-- Writes what it reads into files, and shows it. -/
def tee : Utility :=
  withOptions "aip" "" [("append", 'a')] fun r selected =>
    let written := forEach (fun t word =>
      let before := if selected.has 'a' then ((r.read t word).toOption).getD [] else []
      if word = "/dev/stderr" then ⟨t, [.errors (String.ofList r.input)], 0, 0⟩
      else if word = "/dev/stdout" ∨ word = "-" then .output t r.input
      else
        match writeFile t word (before ++ r.input) with
        | .ok t => .none t
        | .error e => .failure t 1 r.program (complaintAbout word e)) r.tree selected.operands
    { written with shown := written.shown ++ [.output r.input], taken := r.input.length }

/-- A name in which the signs at the end of a template are replaced, so that no entry has it. -/
def freeName (t : FileTree) (front : String) (signs : Nat) (ending : String) : String :=
  let candidates := (List.range 1000).map fun n =>
    let digits := toString n
    front ++ String.ofList (List.replicate (signs - digits.length) 'a') ++ digits ++ ending
  (candidates.find? fun name => (t.statEntry (Request.path name)).toOption.isNone).getD
    (front ++ ending)

/-- Creates a file or a directory of a new name, and shows the name. -/
def mktemp : Utility :=
  withTable ⟨['d', 'u', 'q', 't'], ['p', 's'], [], [("directory", 'd'), ("dry-run", 'u'),
    ("quiet", 'q'), ("tmpdir", 'p'), ("suffix", 's')], false⟩ 1 fun r selected =>
    let template := selected.operands.headD "tmp.XXXXXXXXXX"
    let inTemporary := selected.operands = [] || selected.has 'p' || selected.has 't'
    let directory := (selected.value? 'p').getD "/tmp"
    let path := if inTemporary then inDirectory directory template else template
    let signs := (path.toList.reverse.takeWhile (· == 'X')).length
    let front := String.ofList (path.toList.take (path.length - signs))
    let name := freeName r.tree front signs ((selected.value? 's').getD "")
    if signs < 3 then r.fail ("too few X's in template " ++ shellQuoted template)
    else if selected.has 'u' then .lines r.tree [name]
    else
      let created :=
        if selected.has 'd' then r.tree.createDirectory (Request.path name)
        else r.tree.writeText (Request.path name) ""
      match created with
      | .ok t => .lines t [name]
      | .error e =>
        let kind := if selected.has 'd' then "directory" else "file"
        r.fail ("failed to create " ++ kind ++ " via template " ++ shellQuoted path ++ ": " ++
          e.reason)

/-- The number of bytes that a text with a unit means. -/
def sizeOf? (text : List Char) : Option Nat :=
  let digits := text.takeWhile Char.isDigit
  let n := Arithmetic.ofDigits 10 digits
  let unit? : Option Nat :=
    match String.ofList (text.dropWhile Char.isDigit) with
    | "" | "c" => some 1
    | "b" => some 512
    | "w" => some 2
    | "K" | "k" | "KiB" => some 1024
    | "KB" | "kB" => some 1000
    | "M" | "MiB" => some (1024 * 1024)
    | "MB" => some 1000000
    | _ => none
  if digits = [] then none else unit?.map (n * ·)

/-- Makes files longer or shorter. -/
def truncate : Utility :=
  withOptions "co" "sr" [("no-create", 'c'), ("size", 's'), ("reference", 'r')] fun r selected =>
    match selected.value? 's' with
    | none => r.misuse "you must specify either '--size' or '--reference'"
    | some size =>
      let change? : Option (Nat → Nat) :=
        match size.toList with
        | '+' :: text => (sizeOf? text).map fun n => (· + n)
        | '-' :: text => (sizeOf? text).map fun n => (· - n)
        | text => (sizeOf? text).map fun n => fun _ => n
      match change? with
      | none => r.fail ("Invalid number: " ++ shellQuoted size)
      | some change =>
        if selected.operands = [] then r.misuse "missing file operand"
        else
          forEach (fun t word =>
            let text := ((r.read t word).toOption).getD []
            let size := change text.length
            if selected.has 'c' && !t.pathExists (Request.path word) then .none t
            else
              match writeFile t word
                  (text.take size ++ List.replicate (size - text.length) '\x00') with
              | .ok t => .none t
              | .error e =>
                .failure t 1 r.program
                  ("cannot open " ++ shellQuoted word ++ " for writing: " ++ e.reason))
            r.tree selected.operands

/-! ## Modes -/

/-- Whether a part of a mode makes a file executable, which may depend on whether it is or is a
directory; none if it is no mode. -/
def clauseExecutes? (clause : List Char) : Option (Bool → Bool) :=
  let isWho (c : Char) : Bool := "ugoa".toList.contains c
  let who := clause.takeWhile isWho
  let isForAll := who = [] || who.contains 'a' || ['u', 'g', 'o'].all who.contains
  match clause.dropWhile isWho with
  | operator :: letters =>
    if !letters.all fun c => "rwxXstugo".toList.contains c then none
    else if operator = '+' then some fun isSet => isSet || letters.contains 'x'
    else if operator = '-' then some fun isSet => isSet && !(isForAll && letters.contains 'x')
    else if operator = '=' then
      some fun isSet => letters.contains 'x' || (isSet && !isForAll)
    else none
  | [] => none

/-- Whether a mode makes a file executable; none if it is no mode. -/
def modeExecutes? (mode : String) : Option (Bool → Bool) :=
  if mode.toList.all Arithmetic.isOctal && mode ≠ "" && mode.length ≤ 5 then
    let bits := Arithmetic.ofDigits 8 mode.toList
    some fun _ => (bits / 64 % 2 = 1) || (bits / 8 % 2 = 1) || (bits % 2 = 1)
  else
    (Text.splitAt (· == ',') mode.toList).foldl (fun change clause =>
      change.bind fun f => (clauseExecutes? clause).map fun g => fun isSet => g (f isSet)) (some id)

/-- Makes a file executable, or not, and with `recursive` what is below a directory. -/
def changeMode (r : Request) (recursive : Bool) (change : Bool → Bool) (t : FileTree)
    (word : String) : Effect :=
  let changed (t : FileTree) (location : Location) : FileTree :=
    match t.entry? location with
    | some (.file content executable) => t.put location (.file content (change executable))
    | _ => t
  match t.stat (Request.path word), t.locate (Request.path word) with
  | .ok _, .ok location =>
    let below := if recursive then (t.below location).map fun e => location ++ e.1 else []
    .none ((location :: below).foldl changed t)
  | .error e, _ | _, .error e =>
    .failure t 1 r.program ("cannot access " ++ shellQuoted word ++ ": " ++ e.reason)

/-- Makes files executable, or not. A word with a hyphen and letters of rights is a mode. -/
def chmod : Utility := fun r =>
  let isOption (word : String) : Bool :=
    match word.toList with
    | '-' :: '-' :: _ => true
    | '-' :: letters => letters.all fun c => "Rfvc".toList.contains c
    | _ => false
  let options := r.arguments.filter isOption
  let reference? := options.findSome? fun word => "--reference=".toList.isPrefixOf? word.toList
  let recursive := options.any fun word => word = "--recursive" || word.toList.contains 'R'
  let words := r.arguments.filter fun word => !isOption word
  match reference?, words with
  | some path, words =>
    let isSet : Bool :=
      match r.tree.stat (Request.path (String.ofList path)) with
      | .ok (.file _ executable) => executable
      | _ => false
    forEach (changeMode r recursive fun _ => isSet) r.tree words
  | none, [] => r.misuse "missing operand"
  | none, [mode] => r.misuse ("missing operand after " ++ plainQuoted mode)
  | none, mode :: words =>
    match modeExecutes? mode with
    | none => r.misuse ("invalid mode: " ++ shellQuoted mode)
    | some change => forEach (changeMode r recursive change) r.tree words

/-! ## Links -/

/-- Creates a link to a target, or another file with its content. -/
def linkTo (r : Request) (selected : Selected) (target : String) (t : FileTree)
    (word : String) : Effect :=
  let symbolic := selected.has 's'
  let kind := if symbolic then "symbolic" else "hard"
  let path := Request.path word
  let refuse (e : SystemError) : Effect :=
    .failure t 1 r.program
      ("failed to create " ++ kind ++ " link " ++ shellQuoted word ++ ": " ++ e.reason)
  let entry : Except Effect FileEntry :=
    if symbolic then .ok (.link (Request.path target))
    else
      match t.statEntry (Request.path target) with
      | .error e =>
        .error (.failure t 1 r.program
          ("failed to access " ++ shellQuoted target ++ ": " ++ e.reason))
      | .ok .directory =>
        .error (.failure t 1 r.program
          (quotedIfNeeded target ++ ": hard link not allowed for directory"))
      | .ok entry => .ok entry
  match entry, t.locateName path with
  | .error e, _ => e
  | _, .error e => refuse e
  | .ok entry, .ok location =>
    if (t.entry? location).isSome && !selected.has 'f' then refuse .fileExists
    else if t.entry? location = some .directory then
      .failure t 1 r.program (quotedIfNeeded word ++ ": cannot overwrite directory")
    else
      remark (selected.has 'v') (t.put location entry)
        (shellQuoted word ++ (if symbolic then " -> " else " => ") ++ shellQuoted target)

/-- Creates links. -/
def ln : Utility :=
  withOptions "sfnTvirbLP" "t" [("symbolic", 's'), ("force", 'f'), ("verbose", 'v'),
    ("no-dereference", 'n'), ("no-target-directory", 'T'), ("target-directory", 't'),
    ("relative", 'r')] fun r selected =>
    let isDirectory (word : String) : Bool :=
      let path := Request.path word
      if selected.has 'n' then r.tree.statEntry path matches .ok .directory
      else r.tree.isDirectory path
    let into (directory : String) (targets : List String) : Effect :=
      forEach (fun t target => linkTo r selected target t (inDirectory directory (baseName target)))
        r.tree targets
    match selected.value? 't', selected.operands with
    | some directory, targets => into directory targets
    | none, [] => r.misuse "missing file operand"
    | none, [target] => into "." [target]
    | none, [target, word] =>
      if isDirectory word && !selected.has 'T' then into word [target]
      else linkTo r selected target r.tree word
    | none, words =>
      let directory := words.getLast?.getD ""
      if isDirectory directory then into directory words.dropLast
      else
        match r.tree.stat (Request.path directory) with
        | .error e => r.fail ("target " ++ shellQuoted directory ++ ": " ++ e.reason)
        | .ok _ =>
          r.fail ("target " ++ shellQuoted directory ++ ": " ++ SystemError.notDirectory.reason)

/-- Shows where links lead. -/
def readlink : Utility :=
  withOptions "femnqsvz" "" [("canonicalize", 'f'), ("no-newline", 'n')] <| needing "operand"
    fun r selected =>
      let resolves := selected.has 'f' || selected.has 'e' || selected.has 'm'
      forEach (fun t word =>
        let path := Request.path word
        let show_ (text : String) : Effect :=
          .output t (text.toList ++ if selected.has 'n' then [] else ['\n'])
        if resolves then
          match t.locate path with
          | .ok location =>
            if selected.has 'e' && (t.entry? location).isNone then ⟨t, [], 0, 1⟩
            else show_ ("/" ++ Text.toByteText (Path.ofPieces location))
          | .error _ => ⟨t, [], 0, 1⟩
        else
          match t.statEntry path with
          | .ok (.link target) => show_ (Text.toByteText target)
          | _ => ⟨t, [], 0, 1⟩) r.tree selected.operands

/-- The path from one location to another one. -/
def relativePath : (base location : Location) → String
  | a :: base, b :: location =>
    if a = b then relativePath base location
    else Path.ofPieces (List.replicate (base.length + 1) ".." ++ b :: location)
  | base, location =>
    let pieces := List.replicate base.length ".." ++ location
    if pieces = [] then "." else Path.ofPieces pieces

/-- Shows the paths of locations, without links. -/
def realpath : Utility :=
  withTable ⟨"emsLPqz".toList, ['b', 'r'], [], [("relative-to", 'r'), ("relative-base", 'b'),
    ("canonicalize-existing", 'e'), ("canonicalize-missing", 'm')], false⟩ 1 <| needing "operand"
    fun r selected =>
      let base? := (selected.value? 'r').bind fun base =>
        (r.tree.locate (Request.path base)).toOption
      forEach (fun t word =>
        let refuse (e : SystemError) : Effect :=
          .failure t 1 r.program (complaintAbout word e)
        match t.locate (Request.path word) with
        | .ok location =>
          if selected.has 'e' && (t.entry? location).isNone then refuse .notFound
          else
            .lines t [Text.toByteText (match base? with
              | some base => relativePath base location
              | none => "/" ++ Path.ofPieces location)]
        | .error e => refuse e) r.tree selected.operands

end SchemaGraph.Shell.Utility
