import SchemaGraph.Json.Reader
import SchemaGraph.Settings.Basic
/-!
# Settings as text

Settings are written as a JSON object with one key per setting, and read from such an object or from
an array of values in the same order. Settings that are left out keep their standard values, keys
that name none are passed over, and a key must not name a setting twice.
-/

namespace SchemaGraph.Settings

/-! ## Reading -/

/-- The table of an object of texts; of two members for a key the later one counts. -/
def mapping? : JsonValue → Option (Table String String)
  | .object members => do
    let entries ← members.mapM fun (key, value) => do return (← key, ← value.text?)
    return .ofList entries
  | _ => none

/-- The settings with the one of the given key replaced; refused is a value of the wrong form. A
key that names no setting changes nothing. -/
def set? (s : Settings) (key : String) (value : JsonValue) : Option Settings :=
  match key with
  | "version" => value.word?.map fun v => { s with version := v }
  | "allow_missing_imports" => value.bool?.map fun v => { s with allowMissingImports := v }
  | "show_missing_types" => value.bool?.map fun v => { s with showMissingTypes := v }
  | "output_dir" => value.text?.map fun v => { s with outputDirectory := v }
  | "import_paths" => value.texts?.map fun v => { s with importPaths := v }
  | "import_mapping" => (mapping? value).map fun v => { s with importMapping := v }
  | "include" => value.texts?.map fun v => { s with includePatterns := v }
  | "exclude" => value.texts?.map fun v => { s with excludePatterns := v }
  | "generate_svg" => value.bool?.map fun v => { s with generateSvg := v }
  | "generate_png" => value.bool?.map fun v => { s with generatePng := v }
  | "dot_command" => value.text?.map fun v => { s with dotCommand := v }
  | _ => some s

/-- The keys of the settings, in their order. -/
def keys : List String :=
  ["version", "allow_missing_imports", "show_missing_types", "output_dir", "import_paths",
    "import_mapping", "include", "exclude", "generate_svg", "generate_png", "dot_command"]

/-- The settings after the members of an object, of which the keys `seen` must not come again. -/
def setMembers? (s : Settings) : (seen : List String) → List (Option String × JsonValue) →
    Option Settings
  | _, [] => some s
  | _, (none, _) :: _ => none
  | seen, (some key, value) :: rest =>
    if key ∈ seen then none
    else
      match s.set? key value with
      | none => none
      | some s => setMembers? s (if key ∈ keys then key :: seen else seen) rest

/-- The settings of a JSON value. -/
def ofJson? : JsonValue → Option Settings
  | .object members => standard.setMembers? [] members
  | .array items =>
    if items.length ≤ keys.length then
      standard.setMembers? [] ((keys.map some).zip items)
    else none
  | _ => none

/-- Reads settings. -/
def read? (text : String) : Option Settings :=
  (JsonValue.read text).bind ofJson?

/-! ## Writing -/

/-- The word of a Boolean. -/
def writeBool (b : Bool) : String :=
  if b then "true" else "false"

/-- Items between brackets, each on a line of its own, inside a line that is indented by `indent`
spaces. -/
def writeItems (opening closing : Char) (indent : Nat) (items : List String) : String :=
  if items.isEmpty then String.ofList [opening, closing]
  else
    let spaces := String.ofList (List.replicate indent ' ')
    String.singleton opening ++ "\n" ++
      String.intercalate ",\n" (items.map fun item => spaces ++ "  " ++ item) ++
      "\n" ++ spaces ++ String.singleton closing

/-- A member of an object. -/
def writeMember (key value : String) : String :=
  JsonValue.writeString key ++ ": " ++ value

/-- A list of texts as the value of a setting. -/
def writeTexts (texts : List String) : String :=
  writeItems '[' ']' 2 (texts.map JsonValue.writeString)

/-- Writes settings. -/
def write (s : Settings) : String :=
  writeItems '\x7b' '\x7d' 0
    [writeMember "version" (toString s.version.toNat),
      writeMember "allow_missing_imports" (writeBool s.allowMissingImports),
      writeMember "show_missing_types" (writeBool s.showMissingTypes),
      writeMember "output_dir" (JsonValue.writeString s.outputDirectory),
      writeMember "import_paths" (writeTexts s.importPaths),
      writeMember "import_mapping"
        (writeItems '\x7b' '\x7d' 2
          (s.importMapping.entries.map fun e => writeMember e.1 (JsonValue.writeString e.2))),
      writeMember "include" (writeTexts s.includePatterns),
      writeMember "exclude" (writeTexts s.excludePatterns),
      writeMember "generate_svg" (writeBool s.generateSvg),
      writeMember "generate_png" (writeBool s.generatePng),
      writeMember "dot_command" (JsonValue.writeString s.dotCommand)] ++ "\n"

end SchemaGraph.Settings
