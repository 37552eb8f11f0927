import SchemaGraph.Files.Lookup
import SchemaGraph.Glob.Search
import SchemaGraph.Loaded
import SchemaGraph.Program.Drawing
import SchemaGraph.Settings.Basic
/-!
# Runs over files

An input names the roots of independent runs: a list in a file, the files of a directory, the
matches of a pattern, or a single root. Each run loads its root, renders a document, writes it to
the output directory and has the programs of the system draw its images.
-/

namespace SchemaGraph

/-- The text that marks an input as the name of a file with one root per line. -/
def listMark : String := "list:"

/-- Whether an input is a file pattern. -/
def hasWildcards (input : String) : Bool :=
  input.toList.any fun c => c == '*' || c == '?' || c == '['

namespace Settings

/-- Whether one of several patterns matches a path. A malformed pattern matches nothing. -/
def matchesAny (patterns : List String) (path : String) : Bool :=
  patterns.any fun pattern =>
    match GlobPattern.read pattern with
    | .ok pattern => pattern.accepts path
    | .error _ => false

/-- Whether a file of a directory input, given by its path below the directory, is to be taken. -/
def takes (s : Settings) (path : String) : Bool :=
  !matchesAny s.excludePatterns path && matchesAny s.includePatterns path

end Settings

/-- The roots that a list names, one per line; blank lines and those that start with a number sign
name none. -/
def rootsOfList (text : String) : List String :=
  ((Text.lines text).map Text.trim).filter fun line => line ≠ "" ∧ line.toList.head? ≠ some '#'

/-- Texts in ascending order. -/
def sortTexts (texts : List String) : List String :=
  texts.mergeSort fun a b => decide (a ≤ b)

namespace FileTree

/-- The files below a directory that the settings take, in ascending order. -/
def takenFiles (t : FileTree) (settings : Settings) (directory : String) : List String :=
  let taken := (t.filesBelow directory).filter fun names =>
    settings.takes <| String.ofList <|
      (Path.ofPieces names).toList.map fun c => if c = '\\' then '/' else c
  sortTexts (taken.map fun names => names.foldl Path.join directory)

/-- The roots that an input names. -/
def expandInput (t : FileTree) (settings : Settings) (input : String) :
    Except FileError (List String) :=
  if isInlineText input then .ok [input]
  else
    match listMark.toList.isPrefixOf? input.toList with
    | some path =>
      let path := String.ofList path
      match t.readText path with
      | .ok text => .ok (rootsOfList text)
      | .error e => .error ⟨.unreadableList e, path⟩
    | none =>
      if t.isDirectory input then .ok (t.takenFiles settings input)
      else if hasWildcards input then
        match t.find input with
        | .error e => .error ⟨.invalidPattern e, input⟩
        | .ok [] => .error ⟨.noMatch, input⟩
        | .ok found => .ok (sortTexts found)
      else .ok [input]

/-- Where the imports of a root are looked up, and the name of the root itself. -/
def lookupOf (settings : Settings) (rootDirectory : String) : ImportLookup :=
  ⟨rootDirectory, settings.importPaths, settings.importMapping⟩

/-- The lookup for the file at a path, beside which its imports are looked up first, and the name
of the file. -/
def rootAt (settings : Settings) (path : String) : Except FileError (ImportLookup × String) :=
  match Path.fileName? path with
  | none => .error ⟨.notAFile, path⟩
  | some name => .ok (lookupOf settings ((Path.parent? path).getD ""), name)

/-- Loads the graph of the file at a path. -/
def openGraph (t : FileTree) (settings : Settings) (path : String) :
    Except GraphError LoadedGraph :=
  match rootAt settings path with
  | .error e => .error (.file e)
  | .ok (lookup, name) =>
    match LoadedGraph.load (lookup.loader t) settings.runOptions Dot.renderEntity name with
    | .error e => .error (.load e)
    | .ok graph => .ok graph

/-- Loads the graph of a root, which is a path or a schema text. -/
def loadRoot (t : FileTree) (settings : Settings) (root : String) :
    Except GraphError LoadedGraph :=
  if isInlineText root then
    match LoadedGraph.load ((lookupOf settings ".").loader t) settings.runOptions Dot.renderEntity
        root with
    | .error e => .error (.load e)
    | .ok graph => .ok graph
  else t.openGraph settings root

end FileTree

/-- Whether a character stays in the name of a document. -/
def isFileNameChar (c : Char) : Bool :=
  c.isAlphanum || c == '.'

/-- The name of the document of a root and a selection: the file name of the root without its
extension, then the selection with every special character replaced. -/
def outputFileName (root : String) (selection : Option String) : String :=
  let stem := (Path.fileStem? root).getD root
  let selection := Text.trim (selection.getD "")
  if selection = "" then stem ++ ".dot"
  else
    stem ++ "_" ++
      String.ofList (selection.toList.map fun c => if isFileNameChar c then c else '_') ++ ".dot"

/-- The path of a document; `output` replaces its name. -/
def outputPath (settings : Settings) (root : String) (selection output : Option String) : String :=
  let name :=
    match output with
    | some name => if ".dot".toList.isSuffixOf name.toList then name else name ++ ".dot"
    | none => outputFileName root selection
  Path.join settings.outputDirectory name

namespace FileTree

/-- Writes a document, after creating the directories around it. -/
def writeDocument (t : FileTree) (path document : String) : Except SystemError Unit × FileTree :=
  match t.createDirectories ((Path.parent? path).getD "") with
  | (.error e, t) => (.error e, t)
  | (.ok (), t) =>
    match t.writeText path document with
    | .error e => (.error e, t)
    | .ok t => (.ok (), t)

/-- Draws the images of a document one after the other. -/
def drawAll [Programs] (t : FileTree) (command document : String) :
    List ImageFormat → Except DrawingError Unit × FileTree
  | [] => (.ok (), t)
  | format :: rest =>
    match t.draw command document format with
    | (.error e, t) => (.error e, t)
    | (.ok _, t) => drawAll t command document rest

/-- The formats of the images that the settings ask for. -/
def imageFormats (settings : Settings) : List ImageFormat :=
  (if settings.generateSvg then [.svg] else []) ++ (if settings.generatePng then [.png] else [])

/-- Runs one root and answers the path of its document, with the tree that is left. -/
def renderToFile [Programs] (t : FileTree) (settings : Settings) (selection output : Option String)
    (root : String) : Except GraphError String × FileTree :=
  match t.loadRoot settings root with
  | .error e => (.error e, t)
  | .ok graph =>
    match (graph.render selection).1 with
    | .error e => (.error (.selection e), t)
    | .ok document =>
      let path := outputPath settings graph.root selection output
      match t.writeDocument path document with
      | (.error e, t) => (.error (.system e), t)
      | (.ok (), t) =>
        match t.drawAll settings.dotCommand path (imageFormats settings) with
        | (.error e, t) => (.error (.drawing e), t)
        | (.ok (), t) => (.ok path, t)

/-- Runs several roots one after the other; one that fails does not stop the others. -/
def runRoots [Programs] (settings : Settings) (selection output : Option String) :
    List String → FileTree → List (String × Except GraphError String) × FileTree
  | [], t => ([], t)
  | root :: rest, t =>
    let (result, t) := t.renderToFile settings selection output root
    let (results, t) := runRoots settings selection output rest t
    ((root, result) :: results, t)

/-- Runs every root that an input names. The name of the document can be replaced only when there
is a single root. -/
def runBatch [Programs] (t : FileTree) (settings : Settings) (selection output : Option String)
    (input : String) :
    Except FileError (List (String × Except GraphError String)) × FileTree :=
  match t.expandInput settings input with
  | .error e => (.error e, t)
  | .ok roots =>
    let output := if roots.length = 1 then output else none
    let (results, t) := runRoots settings selection output roots t
    (.ok results, t)

end FileTree
end SchemaGraph
