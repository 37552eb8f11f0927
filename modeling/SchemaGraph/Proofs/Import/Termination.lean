import Mathlib.Order.Filter.AtTopBot.Basic
import SchemaGraph.Proofs.Import.Depth
/-!
# Walks end

`Walk.Visits` says how a visit goes on, without a bound on how deep visits nest: it relates a visit
to its result if finitely many nested visits lead there. `Walk.Nests` says which visits a visit
makes. Over finitely many texts no chain of nested visits goes on forever, and every visit has
exactly one result, which is the one that is computed within the bound (`Walk.run_terminates`).
-/

namespace SchemaGraph.Walk

open Filter

/-! ## Visits without a bound -/

section

variable (loader : Loader) (options : RunOptions)

mutual

/-- `Visits loader options importer name w result`: to visit the name, which `importer` imports,
leads from the walk `w` to the result. -/
inductive Visits : Option String → String → Walk → Except WalkError Unit × Walk → Prop
  /-- The name has its unit already. -/
  | known {importer : Option String} {name : String} {w : Walk} :
      w.units.contains (unitIdentifier name) → Visits importer name w (.ok (), w)
  /-- There is no text, and that is tolerated. -/
  | absent {importer : Option String} {name : String} {w : Walk} {e : FileError} :
      w.units.contains (unitIdentifier name) = false → textOf loader name = .error e →
      importer.isSome ∧ options.allowMissingImports →
      Visits importer name w (.ok (), w.enterAbsent (unitIdentifier name))
  /-- There is no text, and that is not tolerated. -/
  | missing {importer : Option String} {name : String} {w : Walk} {e : FileError} :
      w.units.contains (unitIdentifier name) = false → textOf loader name = .error e →
      ¬ (importer.isSome ∧ options.allowMissingImports) →
      Visits importer name w (.error (.missingImport name importer e), w)
  /-- The text does not parse. -/
  | malformed {importer : Option String} {name text : String} {w : Walk} {e : ParseError} :
      w.units.contains (unitIdentifier name) = false → textOf loader name = .ok text →
      parseSchema (unitIdentifier name) text = .error e →
      Visits importer name w (.error (.parse e), w)
  /-- One of the imports fails. -/
  | stopped {importer : Option String} {name text : String} {w w' : Walk} {file : SchemaFile}
      {e : WalkError} :
      w.units.contains (unitIdentifier name) = false → textOf loader name = .ok text →
      parseSchema (unitIdentifier name) text = .ok file →
      FollowsAll (unitIdentifier name) file.imports (w.enter (unitIdentifier name) file)
        (.error e, w') →
      Visits importer name w (.error e, w')
  /-- All imports are followed. -/
  | completed {importer : Option String} {name text : String} {w w' : Walk} {file : SchemaFile} :
      w.units.contains (unitIdentifier name) = false → textOf loader name = .ok text →
      parseSchema (unitIdentifier name) text = .ok file →
      FollowsAll (unitIdentifier name) file.imports (w.enter (unitIdentifier name) file)
        (.ok (), w') →
      Visits importer name w (.ok (), w'.complete (unitIdentifier name) file)

/-- `FollowsAll loader options importer imports w result`: to follow the import statements of
`importer` one after the other, up to the first failure, leads from the walk `w` to the result. -/
inductive FollowsAll : String → List Import → Walk → Except WalkError Unit × Walk → Prop
  | nil {importer : String} {w : Walk} : FollowsAll importer [] w (.ok (), w)
  | failed {importer : String} {statement : Import} {rest : List Import} {w w' : Walk}
      {e : WalkError} :
      Visits (some importer) statement.path w (.error e, w') →
      FollowsAll importer (statement :: rest) w (.error e, w')
  | cons {importer : String} {statement : Import} {rest : List Import} {w w' : Walk}
      {result : Except WalkError Unit × Walk} :
      Visits (some importer) statement.path w (.ok (), w') →
      FollowsAll importer rest (w'.markWeak statement) result →
      FollowsAll importer (statement :: rest) w result

end

/-- What a visit is given. -/
structure Call where
  importer : Option String
  name : String
  walk : Walk

/-- The call reads a text: the name is new, and there is a text of it. -/
def Call.Reads (call : Call) (text : String) : Prop :=
  call.walk.units.contains (unitIdentifier call.name) = false ∧
    textOf loader call.name = .ok text

/-- `Nests loader options inner outer`: the outer call reads a text and follows its imports, and the
inner one is the visit of one of them, after those before it have been followed. -/
inductive Nests : Call → Call → Prop
  | intro {outer : Call} {text : String} {file : SchemaFile} {before after : List Import}
      {statement : Import} {w : Walk} :
      outer.Reads loader text → parseSchema (unitIdentifier outer.name) text = .ok file →
      file.imports = before ++ statement :: after →
      FollowsAll loader options (unitIdentifier outer.name) before
        (outer.walk.enter (unitIdentifier outer.name) file) (.ok (), w) →
      Nests ⟨some (unitIdentifier outer.name), statement.path, w⟩ outer

end

variable {loader : Loader} {options : RunOptions}

/-! ## A bound that is large enough -/

/-- What holds one step above all large depths holds of all large depths. -/
theorem eventually_of_succ {p : Nat → Prop} (h : ∀ᶠ depth in atTop, p (depth + 1)) :
    ∀ᶠ depth in atTop, p depth := by
  rwa [← map_add_atTop_eq_nat 1, eventually_map]

mutual

/-- A visit has its result whenever it is given enough depth. -/
theorem Visits.eventually {importer : Option String} {name : String} {w : Walk}
    {result : Except WalkError Unit × Walk} :
    Visits loader options importer name w result →
      ∀ᶠ depth in atTop, visit loader options depth importer name w = result
  | .known hold => eventually_of_succ (.of_forall fun depth => by rw [visit, if_pos hold])
  | .absent hnew htext htolerated =>
    eventually_of_succ (.of_forall fun depth => by simp [visit, hnew, htext, htolerated])
  | .missing hnew htext hfatal =>
    eventually_of_succ (.of_forall fun depth => by simp [visit, hnew, htext, hfatal])
  | .malformed hnew htext hparse =>
    eventually_of_succ (.of_forall fun depth => by simp [visit, hnew, htext, hparse])
  | .stopped hnew htext hparse hfollow =>
    eventually_of_succ (hfollow.eventually.mono fun depth hends => by
      simp [visit, hnew, htext, hparse, hends])
  | .completed hnew htext hparse hfollow =>
    eventually_of_succ (hfollow.eventually.mono fun depth hends => by
      simp [visit, hnew, htext, hparse, hends])

theorem FollowsAll.eventually {importer : String} {imports : List Import} {w : Walk}
    {result : Except WalkError Unit × Walk} :
    FollowsAll loader options importer imports w result →
      ∀ᶠ depth in atTop,
        followWith (visit loader options depth (some importer)) imports w = result
  | .nil => .of_forall fun _ => rfl
  | .failed hfirst => hfirst.eventually.mono fun depth hfails => by rw [followWith, hfails]
  | .cons hfirst hrest =>
    (hfirst.eventually.and hrest.eventually).mono fun depth h => by
      rw [followWith, h.1]
      exact h.2

end

/-- A visit has at most one result. -/
theorem Visits.unique {importer : Option String} {name : String} {w : Walk}
    {result result' : Except WalkError Unit × Walk}
    (h : Visits loader options importer name w result)
    (h' : Visits loader options importer name w result') : result = result' := by
  obtain ⟨depth, hends, hends'⟩ := (h.eventually.and h'.eventually).exists
  exact hends.symm.trans hends'

/-! ## Every visit ends -/

/-- From `w` to `w'` no unit gets lost. -/
def KeepsUnits (w w' : Walk) : Prop :=
  ∀ identifier, w.units.contains identifier → w'.units.contains identifier

theorem visit_keepsUnits {depth : Nat} {importer : Option String} {name : String} {w w' : Walk}
    (h : visit loader options depth importer name w = (.ok (), w')) : KeepsUnits w w' := by
  obtain ⟨entered, htraverses⟩ := visit_traverses h
  exact fun _ hold => htraverses.kept hold

theorem KeepsUnits.markWeak {w w' : Walk} (h : KeepsUnits w w') (statement : Import) :
    KeepsUnits w (w'.markWeak statement) := by
  intro identifier hold
  rw [contains_markWeak]
  exact h identifier hold

/-- Imports that are followed one after the other have a result if each visit has one. -/
theorem followsAll_followWith {visit : String → Walk → Except WalkError Unit × Walk}
    {importer : String} {imports : List Import} {w : Walk}
    (hunits : ∀ {name w w'}, visit name w = (.ok (), w') → KeepsUnits w w')
    (hvisit : ∀ statement ∈ imports, ∀ w', KeepsUnits w w' →
      Visits loader options (some importer) statement.path w' (visit statement.path w')) :
    FollowsAll loader options importer imports w (followWith visit imports w) := by
  induction imports generalizing w with
  | nil => exact .nil
  | cons statement rest ih =>
    have hfirst := hvisit statement (by simp) w fun _ hold => hold
    rw [followWith]
    split
    · rename_i e w₁ hfails
      rw [hfails] at hfirst
      exact .failed hfirst
    · rename_i w₁ hends
      have hkept := (hunits hends).markWeak statement
      rw [hends] at hfirst
      exact .cons hfirst (ih fun s hs w' hw' =>
        hvisit s (by simp [hs]) w' fun id hold => hw' id (hkept id hold))

/-- A visit that is given as much depth as its name ranks ends. -/
theorem visits_visit {rank : UnitTable → String → Nat} (hranks : Ranks loader rank) {depth : Nat}
    {importer : Option String} {name : String} {w : Walk} (hdepth : rank w.units name ≤ depth) :
    Visits loader options importer name w (visit loader options depth importer name w) := by
  induction depth generalizing importer name w with
  | zero => exact absurd (hranks.pos w.units name) (Nat.not_lt.2 hdepth)
  | succ depth ih =>
    rw [visit]
    split
    · rename_i hold
      exact .known hold
    · rename_i hnew
      have hnew : w.units.contains (unitIdentifier name) = false := by simpa using hnew
      split
      · rename_i e htext
        split
        · rename_i htolerated
          exact .absent hnew htext htolerated
        · rename_i hfatal
          exact .missing hnew htext hfatal
      · rename_i text htext
        split
        · rename_i e hparse
          exact .malformed hnew htext hparse
        · rename_i file hparse
          have hfollow : FollowsAll loader options (unitIdentifier name) file.imports
              (w.enter (unitIdentifier name) file)
              (followWith (visit loader options depth (some (unitIdentifier name))) file.imports
                (w.enter (unitIdentifier name) file)) := by
            refine followsAll_followWith visit_keepsUnits fun s hs w' hkept => ih ?_
            -- Units have only been added, so the depth left suffices for the import.
            have hless := hranks.falls hnew htext hparse
              (fun id hold => hkept id (by rw [contains_enter, hold, Bool.or_true]))
              (hkept _ (by simp [contains_enter])) s hs
            omega
          split
          · rename_i e w' hfails
            rw [hfails] at hfollow
            exact .stopped hnew htext hparse hfollow
          · rename_i w' hends
            rw [hends] at hfollow
            exact .completed hnew htext hparse hfollow

/-! ## Visits do not nest forever -/

theorem FollowsAll.keepsUnits {importer : String} {imports : List Import} {w w' : Walk}
    (h : FollowsAll loader options importer imports w (.ok (), w')) : KeepsUnits w w' := by
  obtain ⟨depth, hfollow⟩ := h.eventually.exists
  exact followWith_rel (fun _ _ hold => hold) (fun h h' id hold => h' id (h id hold))
    (fun _ statement => KeepsUnits.markWeak (fun _ hold => hold) statement)
    (fun _ _ _ _ hvisit => visit_keepsUnits hvisit) hfollow

/-- While the imports of a text are followed, its unit is there along with all that were before. -/
theorem FollowsAll.keepsUnits_enter {identifier : String} {file : SchemaFile}
    {imports : List Import} {w w' : Walk}
    (h : FollowsAll loader options identifier imports (w.enter identifier file) (.ok (), w')) :
    KeepsUnits w w' ∧ w'.units.contains identifier := by
  refine ⟨fun id hold => h.keepsUnits id ?_, h.keepsUnits identifier ?_⟩
  · rw [contains_enter, hold, Bool.or_true]
  · simp [contains_enter]

/-- The rank falls from a visit to those that it makes. -/
theorem Nests.rank_lt {rank : UnitTable → String → Nat} (hranks : Ranks loader rank)
    {inner outer : Call} (h : Nests loader options inner outer) :
    rank inner.walk.units inner.name < rank outer.walk.units outer.name := by
  obtain ⟨hreads, hparse, himports, hfollow⟩ := h
  obtain ⟨hkept, hentered⟩ := hfollow.keepsUnits_enter
  exact hranks.falls hreads.1 hreads.2 hparse hkept hentered _ (by simp [himports])

/-- No chain of nested visits goes on forever. -/
theorem wellFounded_nests {rank : UnitTable → String → Nat} (hranks : Ranks loader rank) :
    WellFounded (Nests loader options) :=
  Subrelation.wf (fun h => Nests.rank_lt hranks h)
    (measure fun call : Call => rank call.walk.units call.name).wf

/-- A visit that reads a text has less left to read than the one that makes it. -/
inductive Narrows (texts : Table String String) (inner outer : Call) : Prop
  /-- It takes a text of the table under a name that has not been visited. -/
  | file (hname : isInlineText inner.name = false) (hmem : texts.contains inner.name)
      (hnew : inner.walk.units.contains inner.name = false)
      (hkept : KeepsUnits outer.walk inner.walk)
  /-- It goes down into an inline text, which is shorter than the text that imports it. -/
  | inline {text : String} (hname : isInlineText inner.name = true)
      (htext : textOf (.ofTable texts) outer.name = .ok text)
      (hlength : inner.name.length < text.length)

theorem Nests.narrows {texts : Table String String} {inner outer : Call}
    (h : Nests (.ofTable texts) options inner outer) {text : String}
    (hinner : inner.Reads (.ofTable texts) text) : Narrows texts inner outer := by
  obtain ⟨hnew, htext⟩ := hinner
  obtain ⟨houter, hparse, himports, hfollow⟩ := h
  rename_i statement w
  dsimp only at hnew htext
  cases hname : isInlineText statement.path with
  | true =>
    have hmem : statement ∈ _ := himports ▸ List.mem_append_right _ List.mem_cons_self
    exact .inline hname houter.2 (length_lt_of_mem_literals (path_mem_literals hparse hmem))
  | false =>
    unfold unitIdentifier at hnew
    unfold textOf at htext
    rw [hname, if_neg (by decide)] at hnew htext
    have hmem := (Table.mem_keys _ _).1 ((Loader.lists_ofTable texts).mem htext)
    exact .file hname hmem hnew hfollow.keepsUnits_enter.1

/--
**Every walk over finitely many texts ends**, however its imports lead back to each other, and with
inline texts inside inline texts. Visits do not nest forever, for each nested visit that reads a
text takes a name that has not been visited or a text shorter than the one around it. So every visit
has exactly one result, and the walk is the visit of its root.
-/
theorem run_terminates (texts : Table String String) (options : RunOptions) (root : String)
    (registry : Registry) :
    WellFounded (Nests (.ofTable texts) options) ∧
      (∀ inner outer text, Nests (.ofTable texts) options inner outer →
        inner.Reads (.ofTable texts) text → Narrows texts inner outer) ∧
      (∀ importer name w, ∃! result, Visits (.ofTable texts) options importer name w result) ∧
      Visits (.ofTable texts) options none root (start registry)
        (run (.ofTable texts) options root registry) := by
  obtain ⟨rank, hranks, hdepth⟩ := (Loader.lists_ofTable texts).suffices root
  refine ⟨wellFounded_nests hranks, fun inner outer text h hinner => h.narrows hinner,
    fun importer name w => ?_, visits_visit hranks (hdepth _)⟩
  have hends : Visits (.ofTable texts) options importer name w _ :=
    visits_visit hranks (Nat.le_refl (rank w.units name))
  exact ⟨_, hends, fun result h => h.unique hends⟩

/-- A text that imports an inline text, which imports another one. -/
def nestedTexts : Table String String :=
  .ofList [("a", "import \"import 'import \\\"a\\\";\\\\n\\\\n';\\n\\n\";")]

/-- The first of its nested visits goes down into the inline text. -/
theorem run_terminates_nestedTexts : ∃ inner text,
    Nests (.ofTable nestedTexts) ⟨true, true⟩ inner ⟨none, "a", start .empty⟩ ∧
      inner.Reads (.ofTable nestedTexts) text ∧ isInlineText inner.name = true ∧
      Narrows nestedTexts inner ⟨none, "a", start .empty⟩ := by
  have hload : textOf (.ofTable nestedTexts) "a" =
      .ok "import \"import 'import \\\"a\\\";\\\\n\\\\n';\\n\\n\";" := rfl
  have hparsed : ((parseSchema (unitIdentifier "a")
      "import \"import 'import \\\"a\\\";\\\\n\\\\n';\\n\\n\";").toOption.any fun file =>
        file.imports.map (·.path) == ["import 'import \"a\";\\n\\n';\n\n"]) = true := by
    decide +kernel
  obtain ⟨file, hparse, hpaths⟩ := exists_ok_of_any hparsed
  obtain ⟨statement, himports, hpath⟩ := List.map_eq_singleton_iff.1 (eq_of_beq hpaths)
  have himports : file.imports = [] ++ statement :: [] := himports
  have hinline : isInlineText statement.path = true := by
    rw [hpath]
    decide
  have hself : unitIdentifier "a" = "a" := by decide
  have hne : unitIdentifier statement.path ≠ "a" := by
    rw [hpath]
    decide +kernel
  have hnew : ((start .empty).enter (unitIdentifier "a") file).units.contains
      (unitIdentifier statement.path) = false := by
    rw [contains_enter, hself, decide_eq_false hne]
    rfl
  have hreads : Call.Reads (.ofTable nestedTexts) ⟨some (unitIdentifier "a"), statement.path,
      (start .empty).enter (unitIdentifier "a") file⟩ statement.path :=
    ⟨hnew, if_pos hinline⟩
  have houter : Call.Reads (.ofTable nestedTexts) ⟨none, "a", start .empty⟩ _ := ⟨rfl, hload⟩
  have hnests : Nests (.ofTable nestedTexts) ⟨true, true⟩ ⟨some (unitIdentifier "a"),
      statement.path, (start .empty).enter (unitIdentifier "a") file⟩ ⟨none, "a", start .empty⟩ :=
    .intro houter hparse himports .nil
  exact ⟨_, _, hnests, hreads, hinline,
    (run_terminates nestedTexts ⟨true, true⟩ "a" .empty).2.1 _ _ _ hnests hreads⟩

end SchemaGraph.Walk
