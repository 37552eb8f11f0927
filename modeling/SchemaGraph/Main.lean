import SchemaGraph.CommandLine.Run
/-!
# The program

The program reads the working directory into a file tree, runs its command line on the tree, writes
back what changed and prints what the command line prints.
-/

namespace SchemaGraph.Program

/-- The tree with the entries below the directory at a path, which stands at a location. -/
partial def readBelow (path : String) (location : Location) (t : FileTree) : IO FileTree := do
  let mut t := t
  for entry in ← ((← IO.currentDir) / path).readDir do
    let name := entry.fileName
    let path := Path.join path name
    let location := location ++ [name]
    if ← entry.path.isDir then
      t ← readBelow path location (t.put location .directory)
    else
      let bytes ← IO.FS.readBinFile entry.path
      t := t.put location (.file (.ofBytes bytes.toList) true)
  return t

/-- The tree of the working directory, in a system that has only what is usual around it. -/
def readWorkingDirectory : IO FileTree := do
  let location := (Path.pieces (← IO.currentDir).toString).filter (· ≠ "")
  let around := (List.range (location.length + 1)).map location.take
  let t := (around.filter (· ≠ [])).foldl (fun t l => FileTree.put t l .directory)
    { FileTree.usual with workingDirectory := location }
  readBelow "" location t

/-- Writes the entries of a tree that another one does not have. -/
def writeChanges (before after : FileTree) : IO Unit := do
  for (location, entry) in after.entries.entries do
    if before.entry? location ≠ some entry then
      let path := "/" ++ Path.ofPieces location
      match entry with
      | .directory => IO.FS.createDirAll path
      | .link _ | .nullDevice => pure ()
      | .file (.text text) _ => IO.FS.writeFile path text
      | .file (.binary bytes) _ => IO.FS.writeBinFile path ⟨bytes.toArray⟩

end SchemaGraph.Program

def main (arguments : List String) : IO UInt32 := do
  let before ← SchemaGraph.Program.readWorkingDirectory
  let result := SchemaGraph.runCommandLine true before arguments
  SchemaGraph.Program.writeChanges before result.tree
  IO.print result.output
  IO.eprint result.errorOutput
  return UInt32.ofNat result.exitCode
