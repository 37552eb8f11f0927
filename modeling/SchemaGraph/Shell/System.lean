import SchemaGraph.Files.Tree
import SchemaGraph.Text.Bytes
/-!
# What processes share

Processes share the file tree, the files that have been opened with the places at which they are
read and written, what has been written as errors of the whole program, and the signals that are on
their way. A process knows an open file by its number.
-/

namespace SchemaGraph.Shell

/-- What has been opened to read from it or to write into it. -/
inductive OpenFile where
  | nowhere
  /-- The errors of the whole program. -/
  | errors
  /-- Bytes that wait to be read: those in front, and those behind them, the latest first. -/
  | pipe (front behind : List UInt8)
  /-- A file of the tree, the place at which it is read and written, and whether everything is
  written at its end. -/
  | file (location : Location) (position : Nat) (appends : Bool)
  deriving DecidableEq, Repr

/-- What processes share. -/
structure System where
  tree : FileTree
  /-- The open files, each at its number. -/
  opened : List OpenFile
  /-- What has been written as errors, the latest byte first. -/
  errorOutput : List UInt8
  /-- Signals that have not arrived, each with the process that it is for. -/
  sent : List (Nat × Nat)
  /-- The number of the latest process. -/
  latestProcess : Nat

namespace System

/-- The system before the first process. -/
def start (tree : FileTree) : System :=
  ⟨tree, [], [], [], 0⟩

/-- The number of a file that is opened, and the system in which it is. -/
def openFile (sys : System) (file : OpenFile) : Nat × System :=
  (sys.opened.length, { sys with opened := sys.opened ++ [file] })

/-- The bytes of the file at a location; a file that is gone has none. -/
def contentAt (sys : System) (location : Location) : List UInt8 :=
  match sys.tree.entry? location with
  | some (.file content _) => content.bytes
  | _ => []

/-- The bytes of a file after others are written at a place. -/
def overwrite (bytes : List UInt8) (position : Nat) (written : List UInt8) : List UInt8 :=
  bytes.take position ++ List.replicate (position - bytes.length) 0 ++ written ++
    bytes.drop (position + written.length)

/-- Writes bytes into the open file of the given number. What is written into a file that is gone is
lost. -/
def write (sys : System) (number : Nat) (bytes : List UInt8) : System :=
  match sys.opened[number]? with
  | none | some .nowhere => sys
  | some .errors => { sys with errorOutput := bytes.reverseAux sys.errorOutput }
  | some (.pipe front behind) =>
    { sys with opened := sys.opened.set number (.pipe front (bytes.reverseAux behind)) }
  | some (.file location position appends) =>
    match sys.tree.entry? location with
    | some (.file content executable) =>
      let before := content.bytes
      let position := if appends then before.length else position
      let content := FileContent.ofBytes (overwrite before position bytes)
      { sys with
        tree := sys.tree.put location (.file content executable)
        opened := sys.opened.set number (.file location (position + bytes.length) appends) }
    | _ => sys

/-- The bytes that can be read from the open file of the given number. -/
def readable (sys : System) (number : Nat) : List UInt8 :=
  match sys.opened[number]? with
  | some (.pipe front behind) => front ++ behind.reverse
  | some (.file location position _) => (sys.contentAt location).drop position
  | _ => []

/-- Goes on behind the given number of bytes, which have been read from an open file. -/
def skip (sys : System) (number count : Nat) : System :=
  match sys.opened[number]? with
  | some (.pipe front behind) =>
    let waiting := if count ≤ front.length then .pipe (front.drop count) behind
      else .pipe ((front ++ behind.reverse).drop count) []
    { sys with opened := sys.opened.set number waiting }
  | some (.file location position appends) =>
    { sys with opened := sys.opened.set number (.file location (position + count) appends) }
  | _ => sys

/-- Sends a signal to a process. -/
def send (sys : System) (process signal : Nat) : System :=
  { sys with sent := sys.sent ++ [(process, signal)] }

/-- The number of a new process, and the system in which it runs. -/
def newProcess (sys : System) : Nat × System :=
  (sys.latestProcess + 1, { sys with latestProcess := sys.latestProcess + 1 })

/-- The working directory is that of a process. -/
def inDirectory (sys : System) (location : Location) : System :=
  { sys with tree := { sys.tree with workingDirectory := location } }

end System
end SchemaGraph.Shell
