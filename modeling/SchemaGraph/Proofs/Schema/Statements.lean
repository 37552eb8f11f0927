import SchemaGraph.Proofs.Schema.Answers
import SchemaGraph.Proofs.Schema.Transparent
/-!
# The statements of a text

What one step of a file does (`Reader.statement?_cases`), and that the steps go on to the end of the
text (`Reader.rest_of_statements`).
-/

namespace SchemaGraph

namespace Reader

variable {depth : Nat} {t : Lexeme} {ts rest : List Lexeme}

/-- A step takes a comment, a semicolon or a statement. -/
theorem statement?_cases {answer : Option (List Statement)}
    (h : statement? depth (t :: ts) = .ok (answer, rest)) :
    (∃ text, t.token.comment? = some text ∧ answer = some [.element (.comment text)] ∧ rest = ts) ∨
    (t.token = .mark .semi ∧ answer = some [] ∧ rest = ts) ∨
    ∃ keyword s, t.token = .ident keyword ∧ answer = some [s] ∧
      statementOf depth keyword (t :: ts) = .ok (s, rest) := by
  obtain ⟨token, span, line⟩ := t
  cases token with
  | lineComment text | blockComment text =>
    cases h
    exact .inl ⟨text, rfl, rfl, rfl⟩
  | mark m =>
    cases m with
    | semi =>
      cases h
      exact .inr (.inl ⟨rfl, rfl, rfl⟩)
    | _ => cases h
  | ident keyword =>
    obtain ⟨s, between, hs, hpure⟩ := bind_eq_ok (x := statementOf depth keyword) h
    cases hpure
    exact .inr (.inr ⟨keyword, s, rfl, rfl, hs⟩)
  | _ => cases h

/-- There is a step while lexemes are left. -/
theorem exists_of_statement?_cons {answer : Option (List Statement)}
    (h : statement? depth (t :: ts) = .ok (answer, rest)) : ∃ ss, answer = some ss := by
  obtain ⟨_, -, rfl, -⟩ | ⟨-, rfl, -⟩ | ⟨_, _, -, rfl, -⟩ := statement?_cases h
  all_goals exact ⟨_, rfl⟩

/-- A statement takes what it is read from. -/
theorem length_lt_of_statementOf {keyword : String} {s : Statement}
    (ht : t.token = .ident keyword) (hdepth : ts.length ≤ depth)
    (h : statementOf depth keyword (t :: ts) = .ok (s, rest)) : rest.length < (t :: ts).length := by
  have hcomment : t.token.isComment = false := by rw [ht]; rfl
  have hle := (length_significant_le ts).trans hdepth
  have hagrees := Agrees.statementOf hle hle keyword
  exact Nat.lt_succ_of_le (hagrees.length_le (.statementOf depth keyword) hcomment h)

theorem length_lt_of_statement? {ss : List Statement} (hdepth : ts.length ≤ depth + 1)
    (h : statement? depth ts = .ok (some ss, rest)) : rest.length < ts.length := by
  cases ts with
  | nil => cases h
  | cons t ts =>
    obtain ⟨_, -, -, rfl⟩ | ⟨-, -, rfl⟩ | ⟨keyword, s, ht, -, hs⟩ := statement?_cases h
    · exact Nat.lt_succ_self _
    · exact Nat.lt_succ_self _
    · exact length_lt_of_statementOf ht (Nat.le_of_succ_le_succ hdepth) hs

/-- The steps go on to the end of the text. -/
theorem rest_of_repeatWithin {bound : List Lexeme} {groups : List (List Statement)}
    (hbound : ts.length ≤ bound.length) (hdepth : ts.length ≤ depth + 1)
    (h : repeatWithin (statement? depth) bound ts = .ok (groups, rest)) : rest = [] := by
  induction bound generalizing ts groups with
  | nil =>
    cases h
    exact List.length_eq_zero_iff.1 (Nat.le_zero.1 hbound)
  | cons l bound ih =>
    obtain ⟨answer, between, hfirst, h⟩ := bind_eq_ok h
    cases answer with
    | none =>
      cases h
      cases ts with
      | nil =>
        cases hfirst
        rfl
      | cons t ts =>
        obtain ⟨ss, heq⟩ := exists_of_statement?_cons hfirst
        cases heq
    | some ss =>
      obtain ⟨others, _, hothers, hpure⟩ := bind_eq_ok h
      cases hpure
      have hlt := length_lt_of_statement? hdepth hfirst
      rw [List.length_cons] at hbound
      exact ih (by omega) (by omega) hothers

theorem rest_of_statements {statements : List Statement}
    (h : Reader.statements ts = .ok (statements, rest)) : rest = [] := by
  obtain ⟨groups, between, hgroups, hpure⟩ := bind_eq_ok h
  cases hpure
  exact rest_of_repeatWithin (Nat.le_refl _) (Nat.le_succ _) hgroups

end Reader
end SchemaGraph
