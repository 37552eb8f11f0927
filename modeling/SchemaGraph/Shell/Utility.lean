import SchemaGraph.Shell.Utility.Columns
import SchemaGraph.Shell.Utility.Comparing
import SchemaGraph.Shell.Utility.Computing
import SchemaGraph.Shell.Utility.Copying
import SchemaGraph.Shell.Utility.Creating
import SchemaGraph.Shell.Utility.Dumping
import SchemaGraph.Shell.Utility.Editing
import SchemaGraph.Shell.Utility.Encoding
import SchemaGraph.Shell.Utility.Listing
import SchemaGraph.Shell.Utility.Moving
import SchemaGraph.Shell.Utility.Searching
import SchemaGraph.Shell.Utility.Showing
import SchemaGraph.Shell.Utility.Words
/-!
# The programs of every system

The programs that scripts can call by their names, besides the shells and the programs that run
other ones.
-/

namespace SchemaGraph.Shell.Utility

/-- The programs that every system has, by their names. -/
def all : List (String × Utility) :=
  [("true", ending 0), ("false", ending 1), ("echo", echo), ("printf", printf), ("test", test),
    ("[", test), ("basename", basename), ("dirname", dirname), ("pwd", pwd), ("sleep", sleep),
    ("yes", yes), ("seq", seq), ("expr", expr), ("whoami", whoami), ("id", id), ("uname", uname),
    ("ls", ls), ("cat", cat), ("tac", tac), ("rev", rev), ("head", head), ("tail", tail),
    ("wc", wc), ("nl", nl), ("sed", sed), ("grep", grep), ("egrep", egrep), ("fgrep", fgrep),
    ("cp", cp), ("mv", mv), ("install", install), ("ln", ln), ("readlink", readlink),
    ("realpath", realpath), ("rm", rm), ("rmdir", rmdir), ("unlink", unlink), ("mkdir", mkdir),
    ("sort", sort), ("uniq", uniq), ("comm", comm), ("join", join), ("cut", cut), ("paste", paste),
    ("fold", fold), ("expand", expand), ("unexpand", unexpand), ("tr", tr), ("dd", dd),
    ("split", split), ("touch", touch), ("tee", tee), ("mktemp", mktemp), ("truncate", truncate),
    ("chmod", chmod), ("stat", stat), ("od", od), ("cmp", cmp), ("diff", diff), ("base64", base64),
    ("cksum", cksum), ("sha256sum", sha256sum), ("tty", tty)]

end SchemaGraph.Shell.Utility
