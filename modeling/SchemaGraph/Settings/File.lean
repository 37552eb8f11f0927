import SchemaGraph.Files.Tree
import SchemaGraph.Settings.Text
/-!
# The settings file

Settings are read from a file if there is one. They are written beside the file first and then put
in its place, so that the file never holds half of them.
-/

namespace SchemaGraph.Settings

/-- The settings in the file that a path leads to, and the standard ones when there is no file. -/
def load (t : FileTree) (path : String) : Except SettingsError Settings :=
  if t.isFile path then
    match t.readText path with
    | .error _ => .error (.unreadable path)
    | .ok text =>
      match read? text with
      | none => .error (.malformed path)
      | some settings => .ok settings
  else .ok standard

/-- Creates the directory around a path. -/
def ensureParent (t : FileTree) (path : String) : Except SettingsError Unit × FileTree :=
  match Path.parent? path with
  | none => (.ok (), t)
  | some directory =>
    match t.createDirectories directory with
    | (.ok (), t) => (.ok (), t)
    | (.error _, t) => (.error (.noDirectory directory), t)

/-- Writes settings to a path, and answers the tree that is left also when it fails. -/
def save (t : FileTree) (path : String) (settings : Settings) :
    Except SettingsError Unit × FileTree :=
  match ensureParent t path with
  | (.error e, t) => (.error e, t)
  | (.ok (), t) =>
    let staged := Path.withExtension path "tmp"
    match t.writeText staged settings.write with
    | .error _ => (.error (.unwritable staged), t)
    | .ok t =>
      match t.rename staged path with
      | .error _ => (.error (.irreplaceable path), t)
      | .ok t => (.ok (), t)

end SchemaGraph.Settings
