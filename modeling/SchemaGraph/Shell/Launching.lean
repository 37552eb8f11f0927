import SchemaGraph.Shell.Launching.Environment
import SchemaGraph.Shell.Launching.Finding
import SchemaGraph.Shell.Launching.Items
import SchemaGraph.Shell.Launching.Scanning
/-!
# Programs that run others

The programs that run other ones: in other circumstances, for the files of a tree, or for the items
that they read.
-/

namespace SchemaGraph.Shell.Launcher

/-- The programs that run others, by their names. -/
def all : List (String × Launcher) :=
  [("env", env), ("printenv", printenv), ("timeout", timeout), ("nohup", plainly "" ""),
    ("nice", plainly "" "n"), ("setsid", plainly "cfw" ""), ("stdbuf", plainly "" "ioe"),
    ("which", which), ("find", find), ("xargs", xargs), ("awk", awk), ("mawk", awk)]

end SchemaGraph.Shell.Launcher
