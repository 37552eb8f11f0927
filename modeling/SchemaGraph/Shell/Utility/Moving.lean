import SchemaGraph.Shell.Utility.Creating
/-!
# Programs that copy and move

A source goes to a target path, or into the target when that is a directory.
-/

namespace SchemaGraph.Shell.Utility

/-- Writes a content into a file, as a copy of one that may be executable. -/
def writeCopy (t : FileTree) (word : String) (content : FileContent) (executable : Bool) :
    Except SystemError FileTree := do
  let location ← t.locateFile (Request.path word)
  match t.entry? location with
  | none => return t.put location (.file content executable)
  | some _ => t.writeAt location content

/-- Copies a directory with what is below it to another place. -/
def copyBelow (t : FileTree) (source target : Location) : FileTree :=
  (t.below source).foldl (fun copied e =>
    match copied.entry? (target ++ e.1), e.2 with
    | some .directory, .directory => copied
    | _, entry => copied.put (target ++ e.1) entry) (t.put target .directory)

/-- Whether two words lead to the same entry. -/
def areSame (t : FileTree) (a b : String) : Bool :=
  let location? (word : String) : Option Location :=
    (t.locate (Request.path word)).toOption.filter fun location => (t.entry? location).isSome
  (location? a).isSome && location? a = location? b

/-- The remarks about a copied directory. -/
def copyRemarks (t : FileTree) (source : Location) (word target : String) : List Shown :=
  (t.below source).map fun e =>
    let ending := "/" ++ Text.toByteText (Path.ofPieces e.1)
    line (shellQuoted (word ++ ending) ++ " -> " ++ shellQuoted (target ++ ending))

/-- Copies one file, link or directory to a path. -/
def copyTo (r : Request) (selected : Selected) (target : String) (t : FileTree)
    (word : String) : Effect :=
  let recursive := selected.has 'r' || selected.has 'R' || selected.has 'a'
  let keepsLinks :=
    (recursive || selected.has 'd' || selected.has 'P') && !selected.has 'L'
  let fail (complaint : String) : Effect := .failure t 1 r.program complaint
  let saying (t : FileTree) : Effect :=
    remark (selected.has 'v') t (shellQuoted word ++ " -> " ++ shellQuoted target)
  let path := Request.path word
  let found : Except SystemError FileEntry :=
    if Request.isInput word then .ok (.file (Request.contentOf r.input) false)
    else if keepsLinks then t.statEntry path
    else t.stat path
  match found, t.stat (Request.path target) with
  | .error e, _ => fail ("cannot stat " ++ shellQuoted word ++ ": " ++ e.reason)
  | .ok .directory, there =>
    match t.locate path, t.locateName (Request.path target) with
    | .ok source, .ok location =>
      if !recursive then
        fail ("-r not specified; omitting directory " ++ shellQuoted word)
      else if source.isPrefixOf location then
        let copied := if (t.entry? location).isNone then copyBelow t source location else t
        .failure copied 1 r.program ("cannot copy a directory, " ++ shellQuoted word ++
          ", into itself, " ++ shellQuoted target)
      else if there matches .ok (.file _ _) then
        fail ("cannot overwrite non-directory " ++ shellQuoted target ++ " with directory " ++
          shellQuoted word)
      else
        let e := saying (copyBelow t source location)
        if selected.has 'v' then
          { e with shown := e.shown ++ copyRemarks t source word target }
        else e
    | _, .error e =>
      fail ("cannot create directory " ++ shellQuoted target ++ ": " ++ e.reason)
    | .error e, _ => fail ("cannot stat " ++ shellQuoted word ++ ": " ++ e.reason)
  | .ok entry, there =>
    if areSame t word target then
      fail (shellQuoted word ++ " and " ++ shellQuoted target ++ " are the same file")
    else if (selected.has 'n' || selected.has 'u') && there.toOption.isSome then .none t
    else if there matches .ok .directory then
      fail ("cannot overwrite directory " ++ shellQuoted target ++ " with non-directory" ++
        if selected.has 'T' then "" else " " ++ shellQuoted word)
    else
      let result : Except SystemError FileTree :=
        match entry, selected.has 's', t.locateName (Request.path target) with
        | .link goal, _, .ok location => .ok (t.put location (.link goal))
        | _, true, .ok location => .ok (t.put location (.link path))
        | .link _, _, .error e | _, true, .error e => .error e
        | .file content executable, false, _ => writeCopy t target content executable
        | _, false, _ => writeCopy t target (.text "") false
      match result with
      | .ok t => saying t
      | .error e =>
        fail ("cannot create regular file " ++ shellQuoted target ++ ": " ++
          (if Path.wantsDirectory target then SystemError.notDirectory else e).reason)

/-- Moves one file, link or directory to a path. -/
def moveTo (r : Request) (selected : Selected) (target : String) (t : FileTree)
    (word : String) : Effect :=
  let fail (complaint : String) : Effect := .failure t 1 r.program complaint
  let path := Request.path word
  let targetPath := Request.path target
  match t.statEntry path, t.statEntry targetPath with
  | .error e, _ => fail ("cannot stat " ++ shellQuoted word ++ ": " ++ e.reason)
  | .ok entry, there =>
    if t.locateName path matches .ok _ &&
        (t.locateName path).toOption = (t.locateName targetPath).toOption then
      fail (shellQuoted word ++ " and " ++ shellQuoted target ++ " are the same file")
    else if (selected.has 'n' || selected.has 'u') && there.toOption.isSome then .none t
    else
      match t.rename path targetPath with
      | .ok t =>
        remark (selected.has 'v') t
          ("renamed " ++ shellQuoted word ++ " -> " ++ shellQuoted target)
      | .error e =>
        if entry = .directory && there matches .ok (.file _ _) then
          fail ("cannot overwrite non-directory " ++ shellQuoted target ++ " with directory " ++
            shellQuoted word)
        else if entry ≠ .directory && there matches .ok .directory then
          fail ("cannot overwrite directory " ++ shellQuoted target ++ " with non-directory " ++
            shellQuoted word)
        else if e = .invalidMove then
          fail ("cannot move " ++ shellQuoted word ++ " to a subdirectory of itself, " ++
            shellQuoted target)
        else if e = .directoryNotEmpty then
          fail ("cannot overwrite " ++ shellQuoted target ++ ": " ++ e.reason)
        else
          fail ("cannot move " ++ shellQuoted word ++ " to " ++ shellQuoted target ++ ": " ++
            e.reason)

/-- Takes each source to the target, or into it when it is a directory. -/
def transfer (each : Request → Selected → String → FileTree → String → Effect) :
    Request → Selected → Effect := fun r selected =>
  let into (directory : String) (sources : List String) : Effect :=
    forEach (fun t word => each r selected (inDirectory directory (baseName word)) t word)
      r.tree sources
  let notDirectory (target : String) : Effect :=
    let reason := match r.tree.stat (Request.path target) with
      | .error e => e.reason
      | .ok _ => SystemError.notDirectory.reason
    r.fail ("target " ++ shellQuoted target ++ ": " ++ reason)
  match selected.value? 't', selected.operands.reverse with
  | _, [] => r.misuse "missing file operand"
  | some directory, sources =>
    if r.tree.isDirectory (Request.path directory) then into directory sources.reverse
    else notDirectory directory
  | none, [word] => r.misuse ("missing destination file operand after " ++ shellQuoted word)
  | none, target :: sources =>
    if r.tree.isDirectory (Request.path target) && !selected.has 'T' then
      into target sources.reverse
    else
      match sources with
      | [word] => each r selected target r.tree word
      | _ => notDirectory target

/-- The long options of programs that copy and move. -/
def transferOptions : List (String × Char) :=
  [("archive", 'a'), ("force", 'f'), ("no-clobber", 'n'), ("no-target-directory", 'T'),
    ("recursive", 'r'), ("target-directory", 't'), ("update", 'u'), ("verbose", 'v'),
    ("preserve", 'p'), ("dereference", 'L'), ("no-dereference", 'P'), ("symbolic-link", 's'),
    ("link", 'l')]

/-- Copies files. -/
def cp : Utility :=
  withOptions "abdfHilLnpPrRsTuvxZ" "St" transferOptions fun r selected =>
    let readsInput := selected.operands.dropLast.any Request.isInput
    let e := transfer copyTo r selected
    { e with taken := if readsInput then r.input.length else 0 }

/-- Moves files. -/
def mv : Utility :=
  withOptions "bfinTuvZ" "St" transferOptions (transfer moveTo)

/-- Copies files that can be run, or creates directories. -/
def install : Utility :=
  withOptions "bcCdDpsTv" "gmotS" [("directory", 'd'), ("mode", 'm'), ("verbose", 'v')]
    fun r selected =>
      if selected.has 'd' then
        forEach (fun t word => createAlong r ⟨[], []⟩ [] (Path.pieces word) t)
          r.tree selected.operands
      else
        let executes : Bool :=
          (((selected.value? 'm').bind modeExecutes?).map (· false)).getD true
        let copying : Request → Selected → String → FileTree → String → Effect :=
          fun r selected target t word =>
            let t :=
              if selected.has 'D' then
                (t.createDirectories (Request.path (directoryName target))).2
              else t
            let e := copyTo r selected target t word
            match e.status, e.tree.locate (Request.path target) with
            | 0, .ok location =>
              match e.tree.entry? location with
              | some (.file content _) =>
                { e with tree := e.tree.put location (.file content executes) }
              | _ => e
            | _, _ => e
        transfer copying r selected

end SchemaGraph.Shell.Utility
