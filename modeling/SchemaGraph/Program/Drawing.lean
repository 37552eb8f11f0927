import SchemaGraph.Files.Tree
/-!
# Drawing images

An image is drawn by a program that is given the document, the format and the file to write. Which
programs there are and what they do is up to the system: `Programs` is a parameter of everything
that runs them.
-/

namespace SchemaGraph

/-- What a finished program leaves. -/
structure ProgramResult where
  /-- How the program ended; none if it succeeded. -/
  failure : Option ExitStatus
  errorOutput : String
  tree : FileTree

/-- The programs of a system. -/
class Programs where
  /-- Runs the program of the given name with the given arguments, if it can be started. -/
  run : FileTree → (name : String) → (arguments : List String) → Except SystemError ProgramResult

/-- The formats of images. -/
inductive ImageFormat where
  | svg | png
  deriving DecidableEq, Repr

/-- The name of a format, which is also the extension of its files. -/
def ImageFormat.text : ImageFormat → String
  | svg => "svg"
  | png => "png"

/-- Draws the image of a document beside it, and answers the path of the image with the tree that
is left. -/
def FileTree.draw [Programs] (t : FileTree) (command document : String) (format : ImageFormat) :
    Except DrawingError String × FileTree :=
  let image := Path.withExtension document format.text
  match Programs.run t command ["-T" ++ format.text, document, "-o", image] with
  | .error e => (.error (.notStarted command e), t)
  | .ok result =>
    match result.failure with
    | some status => (.error (.failed command status (Text.trim result.errorOutput)), result.tree)
    | none => (.ok image, result.tree)

end SchemaGraph
