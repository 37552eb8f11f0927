import SchemaGraph.Batch
/-!
# The log of a run

What a run remarks on is a function of what it works on: the files it reads, what it tolerates and
what fails. A log holds the remarks from a given severity on.
-/

namespace SchemaGraph

/-- How much a remark matters. -/
inductive Severity where
  | debug | warning | error
  deriving DecidableEq, Repr

namespace Severity

/-- The place of a severity among all, the least first. -/
def rank : Severity → Nat
  | debug => 0
  | warning => 1
  | error => 2

/-- The name of a severity. -/
def text : Severity → String
  | debug => "DEBUG"
  | warning => "WARN"
  | error => "ERROR"

end Severity

/-- Something a run remarks on. -/
structure Remark where
  severity : Severity
  text : String
  deriving DecidableEq, Repr

/-- The text of a log that holds the remarks from a severity on. -/
def logText (threshold : Severity) (remarks : List Remark) : String :=
  String.join ((remarks.filter fun r => threshold.rank ≤ r.severity.rank).map fun r =>
    r.severity.text ++ " " ++ r.text ++ "\n")

/-- The remarks on a walk. -/
def Walk.remarks (w : Walk) : List Remark :=
  w.units.values.map (fun unit =>
    if unit.missing then ⟨.warning, "import not found: " ++ unit.identifier⟩
    else ⟨.debug, "loaded: " ++ unit.identifier⟩) ++
  w.duplicates.map fun duplicate => ⟨.warning, duplicate.message⟩

/-- The remarks on a build. -/
def BuildReport.remarks (report : BuildReport) : List Remark :=
  report.unsupported.map (fun construct => ⟨.warning, construct.message⟩) ++
  report.errors.map fun e => ⟨.error, e.message⟩

/-- The remarks on loading a root. -/
def loadRemarks (loader : Loader) (options : RunOptions) (root : String) : List Remark :=
  match Walk.run loader options root .empty with
  | (.error _, walk) => walk.remarks
  | (.ok (), walk) =>
    walk.remarks ++ (LoadedGraph.buildOf Dot.renderEntity options walk).report.remarks

namespace FileTree

/-- The remark on a root that is mapped to something else. -/
def mappingRemarks (settings : Settings) (name : String) : List Remark :=
  if !isInlineText name && settings.importMapping.contains name then
    [⟨.debug, "import mapped: " ++ name⟩]
  else []

/-- The remarks on loading the file at a path. -/
def openRemarks (t : FileTree) (settings : Settings) (path : String) : List Remark :=
  match rootAt settings path with
  | .error _ => []
  | .ok (lookup, name) =>
    mappingRemarks settings name ++ loadRemarks (lookup.loader t) settings.runOptions name

/-- The remarks on loading a root, which is a path or a schema text. -/
def rootRemarks (t : FileTree) (settings : Settings) (root : String) : List Remark :=
  if isInlineText root then
    loadRemarks ((lookupOf settings ".").loader t) settings.runOptions root
  else t.openRemarks settings root

/-- The remarks on the runs of a batch, which come one after the other. -/
def runRemarks [Programs] (settings : Settings) (selection output : Option String) :
    List String → FileTree → List Remark
  | [], _ => []
  | root :: rest, t =>
    let (result, t') := t.renderToFile settings selection output root
    let failure : List Remark :=
      match result with
      | .ok _ => []
      | .error e => [⟨.error, "run failed: " ++ e.message⟩]
    t.rootRemarks settings root ++ failure ++ runRemarks settings selection output rest t'

/-- The remarks on a batch. -/
def batchRemarks [Programs] (t : FileTree) (settings : Settings) (selection output : Option String)
    (input : String) : List Remark :=
  match t.expandInput settings input with
  | .error _ => []
  | .ok roots =>
    let expanded : List Remark :=
      if !isInlineText input && !listMark.toList.isPrefixOf input.toList && t.isDirectory input then
        [⟨.debug, "directory input expanded: " ++ input⟩]
      else []
    let output := if roots.length = 1 then output else none
    expanded ++ runRemarks settings selection output roots t

end FileTree
end SchemaGraph
