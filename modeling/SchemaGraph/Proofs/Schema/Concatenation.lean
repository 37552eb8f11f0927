import SchemaGraph.Proofs.Schema.Carrying
import SchemaGraph.Proofs.Schema.Statements
/-!
# One text after another

No statement is read past its own end, so the statements of a text are read as they are wherever the
text stands, and then what follows is read (`Reader.repeatWithin_place`). A text, a line feed and
another text declare what the first declares, and then, further down, what the second does
(`parseSchema_append`).
-/

namespace SchemaGraph

/-- The statements of a text; none if it cannot be read. -/
def statementsIn (source : String) : List Statement :=
  match tokenize source with
  | .error _ => []
  | .ok lexemes =>
    match Reader.statements lexemes with
    | .error _ => []
    | .ok (statements, _) => statements

/-- Whether a statement of the text names the dialect. -/
def namesDialect (source : String) : Bool :=
  (statementsIn source).any Statement.namesDialect

namespace Reader

variable {s : Placement} {depth depth' : Nat} {ts rest : List Lexeme}

/-- A step of a file is the same wherever the file stands. -/
theorem statement?_place {t : Lexeme} {answer : Option (List Statement)} (hdepth : depth ≤ depth')
    (h : statement? depth (t :: ts) = .ok (answer, rest)) :
    statement? depth' (s.place (t :: ts)) =
      .ok (answer.map (List.map (Statement.down s.lines)), s.place rest) := by
  obtain ⟨text, htext, rfl, rfl⟩ | ⟨hsemi, rfl, rfl⟩ | ⟨keyword, statement, ht, rfl, hread⟩ :=
    statement?_cases h
  · obtain ⟨token, span, line⟩ := t
    cases token with
    | lineComment | blockComment =>
      cases htext
      rfl
    | _ => cases htext
  · obtain ⟨token, span, line⟩ := t
    cases hsemi
    rfl
  · obtain ⟨token, span, line⟩ := t
    cases ht
    obtain ⟨-, hread'⟩ := Carries.statementOf hdepth keyword _ _ _ hread False.elim
    exact bind_eq (f := fun statement => pure (some [statement])) hread'

/-- The steps of a file are the same wherever the file stands, and go on with what follows it. -/
theorem repeatWithin_place {bound bound' : List Lexeme} {groups groups' : List (List Statement)}
    (hdepth : depth ≤ depth') (hts : ts.length ≤ depth + 1) (hbound : ts.length ≤ bound.length)
    (hbound' : (s.place ts).length ≤ bound'.length)
    (h : repeatWithin (statement? depth) bound ts = .ok (groups, rest))
    (hafter : ∀ bound : List Lexeme, s.after.length ≤ bound.length →
      repeatWithin (statement? depth') bound s.after = .ok (groups', [])) :
    repeatWithin (statement? depth') bound' (s.place ts) =
      .ok (groups.map (List.map (Statement.down s.lines)) ++ groups', []) := by
  induction bound generalizing bound' ts groups with
  | nil =>
    obtain rfl : ts = [] := List.length_eq_zero_iff.1 (Nat.le_zero.1 hbound)
    cases h
    exact hafter bound' hbound'
  | cons l bound ih =>
    obtain ⟨answer, between, hfirst, h⟩ := bind_eq_ok h
    cases ts with
    | nil =>
      cases hfirst
      cases h
      exact hafter bound' hbound'
    | cons t ts =>
      obtain ⟨group, rfl⟩ := exists_of_statement?_cons hfirst
      obtain ⟨others, _, hothers, hpure⟩ := bind_eq_ok h
      cases hpure
      have hfirst' := statement?_place (s := s) hdepth hfirst
      have hfewer := length_lt_of_statement? hts hfirst
      have hfewer' : (s.place between).length < (s.place (t :: ts)).length := by
        simpa only [Placement.place, List.length_append, List.length_map,
          Nat.add_lt_add_iff_right] using hfewer
      obtain ⟨l', bound', rfl⟩ := List.exists_cons_of_length_pos (l := bound')
        (Nat.lt_of_lt_of_le (Nat.zero_lt_succ _) hbound')
      simp only [List.length_cons] at hbound hbound' hfewer hts
      have hbetween : (s.place between).length ≤ bound'.length := by omega
      have hothers' := ih (by omega) (by omega) hbetween hothers
      exact (bind_eq hfirst').trans (bind_eq hothers')

/-- The statements of a text, and then those of the text behind it, further down. -/
theorem statements_append {ts' rest' : List Lexeme} {ss ss' : List Statement}
    (h : statements ts = .ok (ss, rest)) (h' : statements ts' = .ok (ss', rest'))
    (lines bytes : Nat) : statements (ts ++ ts'.map (Lexeme.down lines bytes)) =
      .ok (ss ++ ss'.map (Statement.down lines), []) := by
  obtain ⟨groups, _, hgroups, hpure⟩ := bind_eq_ok h
  cases hpure
  obtain ⟨groups', _, hgroups', hpure'⟩ := bind_eq_ok h'
  cases hpure'
  set after := ts'.map (Lexeme.down lines bytes) with hafter
  have hlength : (ts ++ after).length = ts.length + ts'.length := by
    rw [List.length_append, hafter, List.length_map]
  have hsecond (bound : List Lexeme) (hbound : after.length ≤ bound.length) :
      repeatWithin (statement? (ts ++ after).length) bound after =
        .ok (groups'.map (List.map (Statement.down lines)), []) := by
    have hplace : Placement.place ⟨lines, bytes, []⟩ ts' = after := List.append_nil _
    have hdepth : ts'.length ≤ (ts ++ after).length := by omega
    have hread : repeatWithin (statement? (ts ++ after).length) bound
        (Placement.place ⟨lines, bytes, []⟩ ts') =
          .ok (groups'.map (List.map (Statement.down lines)) ++ [], []) := by
      refine repeatWithin_place hdepth (Nat.le_succ _) (Nat.le_refl _) ?_ hgroups' fun bound _ => ?_
      · rwa [hplace]
      · exact Agrees.repeatWithin_statement?_nil bound
    rwa [hplace, List.append_nil] at hread
  have hplace : Placement.place ⟨0, 0, after⟩ ts = ts ++ after := by
    rw [Placement.place, List.map_congr_left fun l _ => Lexeme.down_zero l, List.map_id']
  have hdepth : ts.length ≤ (ts ++ after).length := by omega
  have hfirst := repeatWithin_place (s := ⟨0, 0, after⟩) hdepth (Nat.le_succ _) (Nat.le_refl _)
    (Nat.le_refl _) hgroups hsecond
  rw [hplace] at hfirst
  have hflat : (groups.map (List.map (Statement.down 0)) ++
      groups'.map (List.map (Statement.down lines))).flatten =
        groups.flatten ++ groups'.flatten.map (Statement.down lines) := by
    rw [List.flatten_append, ← List.map_flatten, ← List.map_flatten,
      List.map_congr_left fun s _ => Statement.down_zero s, List.map_id']
  rw [← hflat]
  exact bind_eq hfirst

end Reader

/--
**One text after another.** A text, a line feed and another text are read if the two texts are. What
they declare and import is what the first does and then, moved down by the lines before it, what the
second does. The package and the dialect are those that the second text names, and those of the
first if it names none. Lines are natural numbers: they are those of 32 bits if the two texts
together have fewer than `2 ^ 32 - 2` line feeds.
-/
theorem parseSchema_append {path₁ path₂ source₁ source₂ : String} {file₁ file₂ : SchemaFile}
    (h₁ : parseSchema path₁ source₁ = .ok file₁) (h₂ : parseSchema path₂ source₂ = .ok file₂)
    (path : String) :
    ∃ file, parseSchema path (source₁ ++ "\n" ++ source₂) = .ok file ∧
      file.elements = file₁.elements ++ file₂.elements.map (FileElement.down (linesOf source₁)) ∧
      file.imports = file₁.imports ++ file₂.imports.map (Import.down (linesOf source₁)) ∧
      file.package = file₂.package.or file₁.package ∧
      file.dialect = if namesDialect source₂ then file₂.dialect else file₁.dialect := by
  obtain ⟨lexemes₁, ss₁, rest₁, htokens₁, hread₁, rfl⟩ := exists_statements_of_parseSchema h₁
  obtain ⟨lexemes₂, ss₂, rest₂, htokens₂, hread₂, rfl⟩ := exists_statements_of_parseSchema h₂
  have htokens := tokenize_append htokens₁ htokens₂
  have hread := Reader.statements_append hread₁ hread₂ (linesOf source₁)
    (byteLength source₁.toList + 1)
  have hnames : namesDialect source₂ = ss₂.any Statement.namesDialect := by
    rw [namesDialect, statementsIn, htokens₂]
    dsimp only
    rw [hread₂]
  have hmoved : (ss₂.map (Statement.down (linesOf source₁))).any Statement.namesDialect =
      ss₂.any Statement.namesDialect := by
    rw [List.any_map]
    congr 1
    funext s
    cases s <;> rfl
  refine ⟨_, by rw [parseSchema, htokens]; dsimp only; rw [hread], ?_, ?_, ?_, ?_⟩
  · rw [SchemaFile.elements_ofStatements_append, SchemaFile.ofStatements_down]
    rfl
  · rw [SchemaFile.imports_ofStatements_append, SchemaFile.ofStatements_down]
    rfl
  · rw [SchemaFile.package_ofStatements_append, SchemaFile.ofStatements_down]
    rfl
  · rw [SchemaFile.dialect_ofStatements_append, SchemaFile.ofStatements_down, hnames, hmoved]
    rfl

/-- A text that names a dialect and a package, and ends in a comment. -/
def upperText : String :=
  "syntax = \"proto3\";\npackage a; // the end"

/-- A text that names a package only, imports a file and declares an enum. -/
def lowerText : String :=
  "import \"i.proto\";\npackage b; enum E \x7b A = 0; \x7d"

theorem parseSchema_append_upperText : ∃ file,
    parseSchema "c.proto" (upperText ++ "\n" ++ lowerText) = .ok file ∧
      file.elements.length = 2 ∧ file.imports = [⟨"i.proto", .plain, 3⟩] ∧
      file.package = some "b" ∧ file.dialect = .proto3 := by
  have hupper : (parseSchema "a.proto" upperText).map
      (fun file => (file.elements.length, file.imports, file.dialect)) =
        .ok (1, [], .proto3) := by decide +kernel
  have hlower : (parseSchema "b.proto" lowerText).map
      (fun file => (file.elements.length, file.imports, file.package)) =
        .ok (1, [⟨"i.proto", .plain, 1⟩], some "b") := by decide +kernel
  cases h₁ : parseSchema "a.proto" upperText with
  | error complaint =>
    rw [h₁] at hupper
    cases hupper
  | ok file₁ =>
    cases h₂ : parseSchema "b.proto" lowerText with
    | error complaint =>
      rw [h₂] at hlower
      cases hlower
    | ok file₂ =>
      simp only [h₁, h₂, Except.map, Except.ok.injEq, Prod.mk.injEq] at hupper hlower
      obtain ⟨hlength₁, himports₁, hdialect₁⟩ := hupper
      obtain ⟨hlength₂, himports₂, hpackage₂⟩ := hlower
      obtain ⟨file, hfile, helements, himports, hpackage, hdialect⟩ :=
        parseSchema_append h₁ h₂ "c.proto"
      refine ⟨file, hfile, ?_, ?_, ?_, ?_⟩
      · rw [helements, List.length_append, List.length_map, hlength₁, hlength₂]
      · have hlines : linesOf upperText = 2 := by decide +kernel
        rw [himports, himports₁, himports₂, hlines]
        rfl
      · rw [hpackage, hpackage₂]
        rfl
      · have hnames : namesDialect lowerText = false := by decide +kernel
        rw [hdialect, hnames, hdialect₁]
        rfl

end SchemaGraph
