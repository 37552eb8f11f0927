import Mathlib.Algebra.Order.BigOperators.Group.List
import Mathlib.Algebra.Order.Group.Nat
import Mathlib.Algebra.Ring.Nat
import SchemaGraph.Proofs.Token.Munch
/-!
# String literals are shorter than their source

A string literal stands between two quotes and an escape is at least as long as the character it
stands for. So the values of all literals of a text have together fewer characters than the text
(`sum_length_literals`). A schema text inside a schema text is the shorter of the two
(`length_lt_of_mem_literals`), and a text holds no more literals, at whatever depth, than it has
characters (`length_literalsWithin_le`).
-/

namespace SchemaGraph

theorem length_unescape_le (cs : List Char) : (unescape cs).length ≤ cs.length := by
  fun_induction unescape cs with
  | case1 c cs ih =>
    simp only [List.length_cons]
    omega
  | case2 => simp
  | case3 c cs _ _ ih =>
    simp only [List.length_cons]
    omega
  | case4 => simp

/-- The quotes of a literal are not part of its value. -/
theorem length_of_decodeToken_eq_str {k : TokenClass} {cs : List Char} {value : String}
    (h : decodeToken k cs = .str value) : value.length ≤ cs.length - 2 := by
  cases k with
  | str quote =>
    simp only [decodeToken, Token.str.injEq] at h
    have hle := length_unescape_le ((cs.drop 1).dropLast)
    rw [List.length_dropLast, List.length_drop] at hle
    rw [← h, String.length_ofList]
    omega
  | _ => cases h

theorem length_of_firstToken_eq_str {cs : List Char} {value : String} {n : Nat}
    (h : firstToken cs = .ok (.str value, n)) : value.length ≤ min n cs.length - 2 := by
  unfold firstToken at h
  split at h
  · split at h
    · cases h
    · simp [decodeToken] at h
  · rename_i k m _ _
    simp only [Except.ok.injEq, Prod.mk.injEq] at h
    have hle := length_of_decodeToken_eq_str h.1
    rw [List.length_take] at hle
    omega
  · split at h
    · split at h <;> cases h
    · cases h

/-- The value of a string literal. -/
def Lexeme.literal? (l : Lexeme) : Option String :=
  match l.token with
  | .str value => some value
  | _ => none

/-- Each literal is longer than its value, and they stand one after the other. -/
theorem sum_length_lexemesFrom {offset line skip : Nat} {cs : List Char} {lexemes : List Lexeme}
    (h : lexemesFrom offset line skip cs = .ok lexemes) :
    ((lexemes.filterMap Lexeme.literal?).map fun value => value.length + 1).sum ≤
      cs.length - skip := by
  replace h := lexes_of_lexemesFrom h
  induction h with
  | nil => exact Nat.zero_le _
  | taken _ ih => rwa [List.length_cons, Nat.add_sub_add_right]
  | separator _ _ ih => exact Nat.le_succ_of_le ih
  | @token offset line n c cs others token _ hfirst _ ih =>
    rw [List.filterMap_cons]
    split
    · simp only [List.length_cons]
      omega
    · rename_i value hvalue
      have htoken : token = .str value := by
        cases token <;> simp_all [Lexeme.literal?]
      -- The token takes the first `n` characters of what is left of the text.
      have hlength := length_of_firstToken_eq_str (htoken ▸ hfirst)
      simp only [List.map_cons, List.sum_cons, List.length_cons] at hlength ⊢
      omega

/-- The values of the string literals in a text. -/
def literals (text : String) : List String :=
  match tokenize text with
  | .ok lexemes => lexemes.filterMap Lexeme.literal?
  | .error _ => []

theorem sum_length_literals (text : String) :
    ((literals text).map fun value => value.length + 1).sum ≤ text.length := by
  unfold literals
  split
  · rename_i lexemes htokenize
    have hle := sum_length_lexemesFrom htokenize
    rwa [String.length_toList, Nat.sub_zero] at hle
  · exact Nat.zero_le _

theorem length_lt_of_mem_literals {text value : String} (h : value ∈ literals text) :
    value.length < text.length := by
  have hmem := List.mem_map_of_mem (f := fun value => value.length + 1) h
  exact Nat.le_trans (List.single_le_sum (fun _ _ => Nat.zero_le _) _ hmem)
    (sum_length_literals text)

/-! ## Texts inside texts -/

/-- The literals of a text, those inside them, and so on, up to a depth. -/
def literalsWithin : (depth : Nat) → String → List String
  | 0, _ => []
  | depth + 1, text => (literals text).flatMap fun value => value :: literalsWithin depth value

theorem length_literalsWithin_le (depth : Nat) (text : String) :
    (literalsWithin depth text).length ≤ text.length := by
  induction depth generalizing text with
  | zero => exact Nat.zero_le _
  | succ depth ih =>
    rw [literalsWithin, List.length_flatMap]
    exact Nat.le_trans (List.sum_le_sum fun value _ => Nat.succ_le_succ (ih value))
      (sum_length_literals text)

/-- No literal is deeper inside a text than the text is long. -/
theorem mem_literalsWithin {depth : Nat} {text value : String} (hdepth : text.length ≤ depth)
    (h : value ∈ literals text) : value ∈ literalsWithin depth text := by
  have hlt := length_lt_of_mem_literals h
  obtain ⟨depth, rfl⟩ := Nat.exists_eq_add_one.2 (Nat.zero_lt_of_lt (hlt.trans_le hdepth))
  rw [literalsWithin]
  exact List.mem_flatMap.2 ⟨value, h, List.mem_cons_self ..⟩

theorem literalsWithin_closed {depth : Nat} {text name value : String}
    (hdepth : text.length ≤ depth) (hname : name ∈ literalsWithin depth text)
    (h : value ∈ literals name) : value ∈ literalsWithin depth text := by
  induction depth generalizing text with
  | zero => cases hname
  | succ depth ih =>
    rw [literalsWithin] at hname ⊢
    obtain ⟨outer, houter, hinside⟩ := List.mem_flatMap.1 hname
    have hlt := length_lt_of_mem_literals houter
    refine List.mem_flatMap.2 ⟨outer, houter, List.mem_cons_of_mem _ ?_⟩
    rcases List.mem_cons.1 hinside with rfl | hinside
    · exact mem_literalsWithin (by omega) h
    · exact ih (by omega) hinside

end SchemaGraph
