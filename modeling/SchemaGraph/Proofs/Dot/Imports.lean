import SchemaGraph.Proofs.Dot.Nodes
import SchemaGraph.Proofs.Import.Flags
/-!
# Statements in the document of the imports

The document of the imports has a node for each unit and an arrow for each import, both under names
made from digests. `IsArrow` says what the line of an arrow is, and `IsArrow.target_eq` that the
text of a document tells at which node its arrow ends.
-/

namespace SchemaGraph.Dot

/-- The text is the statement of an arrow between two nodes, dashed or not. -/
def IsArrow (source target text : String) : Prop :=
  ∃ dashed : Bool, text = "    " ++ source ++ " -> " ++ target ++
    (if dashed then " [style=dashed]" else "") ++ ";\n"

theorem isNode_unitNode (unit : SourceUnit) :
    IsNode (stableId unit.identifier) (unitNode unit) := by
  unfold unitNode
  dsimp only
  split
  · refine ⟨"shape=box, style=dashed, color=\"" ++ missingColor ++ "\", fontcolor=\"" ++
      missingColor ++ "\", label=\"" ++ escapeQuoted (oneLine unit.identifier) ++
      " (missing)\"", ?_⟩
    have hopen : " [shape=box, style=dashed, color=\"" =
      " [" ++ "shape=box, style=dashed, color=\"" := rfl
    have hclose : " (missing)\"];\n" = " (missing)\"" ++ "];\n" := rfl
    rewrite [hopen, hclose]
    simp only [String.append_assoc]
  · refine ⟨"shape=box, style=rounded, label=\"" ++ escapeQuoted (oneLine unit.identifier) ++
      (if unit.package = "" then "" else "\\n" ++ escapeQuoted unit.package) ++ "\"", ?_⟩
    have hopen : " [shape=box, style=rounded, label=\"" =
      " [" ++ "shape=box, style=rounded, label=\"" := rfl
    have hclose : "\"];\n" = "\"" ++ "];\n" := rfl
    rewrite [hopen, hclose]
    simp only [String.append_assoc]

theorem isArrow_importArrow (units : UnitTable) (unit : SourceUnit) (path : String) :
    IsArrow (stableId unit.identifier) (stableId path) (importArrow units unit path) := by
  refine ⟨(units.get? path).any (·.weak), ?_⟩
  unfold importArrow
  cases units.get? path with
  | none => rfl
  | some target => rfl

theorem isWord_stableId (name : String) : IsWord (stableId name) := by
  intro c hc
  have hdigits : hexDigits.all TokenClass.isWordChar = true := by decide +kernel
  unfold stableId at hc
  rw [String.toList_ofList] at hc
  rcases List.mem_cons.1 hc with rfl | hc
  · decide
  · exact List.all_eq_true.1 hdigits c (mem_hexDigits_of_mem_sha256 (List.mem_of_mem_take hc))

/-- What a document with one arrow has behind the target of the arrow. -/
def behindTarget (dashed : Bool) : List Char :=
  (if dashed then " [style=dashed]".toList else []) ++ ";\n\x7d\n".toList

theorem document_singleton {source target line : String} (h : IsArrow source target line)
    (header : Header) (nodes : List String) (title : String) :
    ∃ before dashed, (document header nodes title [line]).toList =
      before ++ '>' :: ' ' :: (target.toList ++ behindTarget dashed) := by
  obtain ⟨dashed, rfl⟩ := h
  refine ⟨(String.join (headerLines header ++ ["\n    // nodes\n"] ++ nodes ++
    ["\n    // " ++ title ++ "\n"])).toList ++ "    ".toList ++ source.toList ++ " -".toList,
    dashed, ?_⟩
  unfold document behindTarget
  rw [List.append_assoc _ _ ["\x7d\n"]]
  generalize headerLines header ++ ["\n    // nodes\n"] ++ nodes ++ ["\n    // " ++ title ++ "\n"]
    = before
  cases dashed <;> simp [String.join, List.foldl_append]

/-- The target of an arrow ends before the first character that no word has. -/
theorem takeWhile_target {target : String} (ht : IsWord target) (dashed : Bool) :
    (target.toList ++ behindTarget dashed).takeWhile TokenClass.isWordChar = target.toList := by
  rw [List.takeWhile_append_of_pos ht]
  have hnone : (behindTarget dashed).takeWhile TokenClass.isWordChar = [] := by
    cases dashed <;> decide
  rw [hnone, List.append_nil]

/-- A document with one arrow tells the node at which it ends. -/
theorem IsArrow.target_eq {header header' : Header} {nodes nodes' : List String}
    {title title' source source' target target' line line' : String} (ht : IsWord target)
    (ht' : IsWord target') (h : IsArrow source target line) (h' : IsArrow source' target' line')
    (heq : document header nodes title [line] = document header' nodes' title' [line']) :
    target = target' := by
  obtain ⟨before, dashed, hdocument⟩ := document_singleton h header nodes title
  obtain ⟨before', dashed', hdocument'⟩ := document_singleton h' header' nodes' title'
  -- The last angle stands before the target.
  have hangle (t : String) (ht : IsWord t) (dashed : Bool) :
      '>' ∉ ' ' :: (t.toList ++ behindTarget dashed) := by
    have hnot : '>' ∉ t.toList := ht.not_mem (by decide)
    cases dashed <;> simp [hnot, behindTarget]
  rw [heq, hdocument'] at hdocument
  have htails := Registry.eq_of_append_cons_eq (hangle _ ht' dashed') (hangle _ ht dashed) hdocument
  have htargets := congrArg (List.takeWhile TokenClass.isWordChar) (List.cons.inj htails).2
  rw [takeWhile_target ht', takeWhile_target ht] at htargets
  exact (String.toList_inj.1 htargets).symm

end SchemaGraph.Dot
