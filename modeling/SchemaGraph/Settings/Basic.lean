import SchemaGraph.Import.Walk
import SchemaGraph.Table
/-!
# Settings

What a run takes from its settings file.
-/

namespace SchemaGraph

/-- The settings of a run. -/
structure Settings where
  version : UInt32
  allowMissingImports : Bool
  showMissingTypes : Bool
  /-- The directory that documents are written to. -/
  outputDirectory : String
  importPaths : List String
  /-- What replaces an import: another name, or a schema text. -/
  importMapping : Table String String
  /-- Patterns of the files to take from a directory. -/
  includePatterns : List String
  /-- Patterns of the files to leave out, which win over the others. -/
  excludePatterns : List String
  generateSvg : Bool
  generatePng : Bool
  /-- The program that draws images. -/
  dotCommand : String

namespace Settings

/-- The settings where a file says nothing else. -/
def standard : Settings where
  version := 1
  allowMissingImports := true
  showMissingTypes := true
  outputDirectory := "generated"
  importPaths := []
  importMapping := .empty
  includePatterns := ["**/*.proto"]
  excludePatterns := ["vendor/**", "**/vendor/**", "target/**", ".git/**"]
  generateSvg := false
  generatePng := false
  dotCommand := "dot"

/-- The name of the settings file, looked up in the working directory. -/
def fileName : String := "protograph.json"

/-- What a run with these settings tolerates. -/
def runOptions (s : Settings) : RunOptions :=
  ⟨s.allowMissingImports, s.showMissingTypes⟩

end Settings
end SchemaGraph
