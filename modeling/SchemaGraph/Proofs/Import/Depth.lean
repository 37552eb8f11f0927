import SchemaGraph.Proofs.Import.Traversal
import SchemaGraph.Proofs.Schema.Front
/-!
# How deep visits nest

A visit that reads a text takes a name of the loader that has not been read, or an inline text that
is shorter than the text around it. `Walk.depthNeeded` counts both, names before lengths, and falls
with every nested visit (`depthNeeded_lt`). So it ranks the names of a loader that has finitely many
(`Loader.Lists`), and with a small change those of a loader whose texts mention finitely many
(`Loader.Mentions`). `visit_induct` is the induction over a visit that is given as much depth as its
name ranks: no part of it is cut off.
-/

namespace SchemaGraph

/-- The loader has texts for the given names only, and its bounds cover them. -/
structure Loader.Lists (loader : Loader) (names : List String) : Prop where
  mem : ∀ {name text}, loader.load name = .ok text → name ∈ names
  length_le : ∀ {name text}, loader.load name = .ok text → text.length ≤ loader.lengthBound
  size_le : names.length ≤ loader.nameBound

/-- The texts of the loader mention, at whatever depth, the given names only, and its bounds cover
these and one more. -/
structure Loader.Mentions (loader : Loader) (names : List String) : Prop where
  mem : ∀ {name text}, loader.load name = .ok text → ∀ value ∈ literals text, value ∈ names
  closed : ∀ name ∈ names, ∀ value ∈ literals name, value ∈ names
  length_le : ∀ {name text}, loader.load name = .ok text → text.length ≤ loader.lengthBound
  size_lt : names.length < loader.nameBound

theorem Loader.lists_ofTable (texts : Table String String) :
    (Loader.ofTable texts).Lists texts.keys := by
  have hget {name text : String} (h : (Loader.ofTable texts).load name = .ok text) :
      texts.get? name = some text := by
    unfold Loader.ofTable at h
    dsimp only at h
    split at h
    · rename_i hsome
      cases h
      exact hsome
    · cases h
  refine ⟨fun h => ?_, fun {name text} h => ?_, ?_⟩
  · rw [Table.mem_keys, hget h]
    rfl
  · have hmem : text ∈ texts.values := (texts.mem_values text).2 ⟨name, hget h⟩
    have hlength : text.length ∈ texts.values.map String.length := List.mem_map_of_mem hmem
    change text.length ≤ (texts.values.map String.length).foldl max 0
    rw [List.foldl_max]
    exact Nat.le_trans (List.le_max?_getD_of_mem hlength) (Nat.le_max_right _ _)
  · exact Nat.le_of_eq (List.length_map _)

namespace Walk

/-- The names without a unit. -/
def unread (names : List String) (units : UnitTable) : List String :=
  names.filter fun name => !units.contains name

/-- How deep visits nest from a name on, the visit of the name included. -/
def depthNeeded (names : List String) (bound : Nat) (units : UnitTable) (name : String) : Nat :=
  (unread names units).length * (bound + 1) + (if isInlineText name then name.length else 0) + 1

/-! ## The depth falls -/

section

variable {names : List String} {units units' : UnitTable}

/-- What is left to read later is what is left of it now. -/
theorem unread_eq_filter
    (h : ∀ identifier, units.contains identifier → units'.contains identifier) :
    unread names units' = (unread names units).filter fun name => !units'.contains name := by
  unfold unread
  rw [List.filter_filter]
  refine List.filter_congr fun name _ => ?_
  cases hname : units.contains name with
  | false => simp
  | true => simp [h name hname]

theorem length_unread_le
    (h : ∀ identifier, units.contains identifier → units'.contains identifier) :
    (unread names units').length ≤ (unread names units).length := by
  rw [unread_eq_filter h]
  exact List.length_filter_le _ _

/-- A name with a new unit is no longer left to read. -/
theorem length_unread_lt
    (h : ∀ identifier, units.contains identifier → units'.contains identifier) {name : String}
    (hname : name ∈ names) (hnew : units.contains name = false) (hentered : units'.contains name) :
    (unread names units').length < (unread names units).length := by
  rw [unread_eq_filter h, List.length_filter_lt_length_iff_exists]
  exact ⟨name, List.mem_filter.2 ⟨hname, by simp [hnew]⟩, by simp [hentered]⟩

/-- What an inline text takes. -/
theorem inlineLength_le (name : String) :
    (if isInlineText name then name.length else 0) ≤ name.length := by
  split
  · exact Nat.le_refl _
  · exact Nat.zero_le _

/-- Visits of imports need less depth than the visit of the text that they stand in, if the name of
the text is one of those counted. -/
theorem depthNeeded_lt {loader : Loader} {bound : Nat} {name text : String}
    (htext : textOf loader name = .ok text) (hnew : units.contains (unitIdentifier name) = false)
    (h : ∀ identifier, units.contains identifier → units'.contains identifier)
    (hentered : units'.contains (unitIdentifier name))
    (hloads : loader.load name = .ok text → name ∈ names ∧ text.length ≤ bound) {path : String}
    (hpath : path.length < text.length) :
    depthNeeded names bound units' path < depthNeeded names bound units name := by
  have hinline := inlineLength_le path
  unfold textOf at htext
  unfold unitIdentifier at hnew hentered
  unfold depthNeeded
  split at htext
  · rename_i hname
    cases htext
    have hunread : (unread names units').length ≤ (unread names units).length :=
      length_unread_le h
    have hle := Nat.mul_le_mul_right (bound + 1) hunread
    rw [if_pos hname]
    omega
  · rename_i hname
    rw [if_neg hname] at hnew hentered
    obtain ⟨hmem, hlength⟩ := hloads htext
    have hlt := length_unread_lt h hmem hnew hentered
    -- One name less makes room for any inline text.
    have hle : ((unread names units').length + 1) * (bound + 1) ≤
        (unread names units).length * (bound + 1) := Nat.mul_le_mul_right _ hlt
    rw [Nat.succ_mul] at hle
    rw [if_neg hname]
    omega

end

/-! ## Ranks of names -/

/-- A rank of the names of a loader falls from the name of a text that is read to the names that it
imports. -/
structure Ranks (loader : Loader) (rank : UnitTable → String → Nat) : Prop where
  pos : ∀ units name, 0 < rank units name
  falls : ∀ {units units' : UnitTable} {name text : String} {file : SchemaFile},
    units.contains (unitIdentifier name) = false → textOf loader name = .ok text →
    parseSchema (unitIdentifier name) text = .ok file →
    (∀ identifier, units.contains identifier → units'.contains identifier) →
    units'.contains (unitIdentifier name) →
    ∀ i ∈ file.imports, rank units' i.path < rank units name

end Walk

/-- The depth of a walk from the root is enough. -/
def Loader.Suffices (loader : Loader) (root : String) : Prop :=
  ∃ rank, Walk.Ranks loader rank ∧ ∀ units, rank units root ≤ Walk.depthBound loader root

theorem Loader.Lists.suffices {loader : Loader} {names : List String} (h : loader.Lists names)
    (root : String) : loader.Suffices root := by
  have hbound := Nat.le_max_left loader.lengthBound root.length
  have hroot := Nat.le_max_right loader.lengthBound root.length
  refine ⟨Walk.depthNeeded names (max loader.lengthBound root.length),
    ⟨fun _ _ => Nat.succ_pos _, ?_⟩, fun units => ?_⟩
  · intro units units' name text file hnew htext hparse hkept hentered i hi
    exact Walk.depthNeeded_lt htext hnew hkept hentered
      (fun hload => ⟨h.mem hload, Nat.le_trans (h.length_le hload) hbound⟩)
      (length_lt_of_mem_literals (path_mem_literals hparse hi))
  · have hinline := Walk.inlineLength_le root
    have hunread : (Walk.unread names units).length ≤ loader.nameBound :=
      Nat.le_trans (List.length_filter_le _ _) h.size_le
    have hle := Nat.mul_le_mul_right (max loader.lengthBound root.length + 1) hunread
    unfold Walk.depthNeeded Walk.depthBound
    rw [Nat.succ_mul]
    omega

/-- The depth that is needed where a name that is not counted may come before all that are: the
root, or what stands inside it. -/
def Walk.depthBefore (names : List String) (bound : Nat) (units : UnitTable) (name : String) :
    Nat :=
  depthNeeded names bound units name + if name ∈ names then 0 else bound + 1

theorem Walk.depthBefore_le (names : List String) (bound : Nat) (units : UnitTable)
    (name : String) :
    depthBefore names bound units name ≤ depthNeeded names bound units name + (bound + 1) := by
  unfold depthBefore
  split
  · exact Nat.le_add_right _ _
  · exact Nat.le_refl _

theorem Walk.depthBefore_lt {names : List String} {bound : Nat} {units units' : UnitTable}
    {loader : Loader} (hmentions : loader.Mentions names) (hbound : loader.lengthBound ≤ bound)
    {name text : String} (htext : textOf loader name = .ok text)
    (hnew : units.contains (unitIdentifier name) = false)
    (h : ∀ identifier, units.contains identifier → units'.contains identifier)
    (hentered : units'.contains (unitIdentifier name)) {path : String}
    (hpath : path ∈ literals text) :
    depthBefore names bound units' path < depthBefore names bound units name := by
  have hlength := length_lt_of_mem_literals hpath
  by_cases hname : name ∈ names
  -- What a counted name leads to is counted.
  · have hcounted : path ∈ names := by
      unfold textOf at htext
      split at htext
      · cases htext
        exact hmentions.closed name hname path hpath
      · exact hmentions.mem htext path hpath
    rw [depthBefore, depthBefore, if_pos hname, if_pos hcounted]
    exact depthNeeded_lt htext hnew h hentered
      (fun hload => ⟨hname, Nat.le_trans (hmentions.length_le hload) hbound⟩) hlength
  · have hinline := inlineLength_le path
    have hunread : (unread names units').length ≤ (unread names units).length :=
      length_unread_le h
    have hle := Nat.mul_le_mul_right (bound + 1) hunread
    have hbefore : depthBefore names bound units name =
        depthNeeded names bound units name + (bound + 1) := by
      rw [depthBefore, if_neg hname]
    rw [hbefore]
    unfold textOf at htext
    split at htext
    · rename_i hinlineName
      cases htext
      refine Nat.lt_of_le_of_lt (depthBefore_le names bound units' path) ?_
      unfold depthNeeded
      rw [if_pos hinlineName]
      omega
    · have hshort := hmentions.length_le htext
      rw [depthBefore, if_pos (hmentions.mem htext path hpath)]
      unfold depthNeeded
      omega

theorem Loader.Mentions.suffices {loader : Loader} {names : List String}
    (h : loader.Mentions names) (root : String) : loader.Suffices root := by
  have hbound := Nat.le_max_left loader.lengthBound root.length
  have hroot := Nat.le_max_right loader.lengthBound root.length
  refine ⟨Walk.depthBefore names (max loader.lengthBound root.length),
    ⟨fun _ _ => Nat.add_pos_left (Nat.succ_pos _) _, ?_⟩, fun units => ?_⟩
  · intro units units' name text file hnew htext hparse hkept hentered i hi
    exact Walk.depthBefore_lt h hbound htext hnew hkept hentered (path_mem_literals hparse hi)
  · have hinline := Walk.inlineLength_le root
    have hunread : (Walk.unread names units).length + 1 ≤ loader.nameBound :=
      Nat.le_trans (Nat.succ_le_succ (List.length_filter_le _ _)) h.size_lt
    have hle := Nat.mul_le_mul_right (max loader.lengthBound root.length + 1) hunread
    rw [Nat.succ_mul] at hle
    refine Nat.le_trans (Walk.depthBefore_le names _ units root) ?_
    unfold Walk.depthNeeded Walk.depthBound
    rw [Nat.succ_mul]
    omega

namespace Walk

/-! ## Induction with enough depth -/

/-- Import statements are followed one after the other, each in the relation `M` for its name. -/
inductive Follows (M : String → Walk → Walk → Prop) : List Import → Walk → Walk → Prop
  | nil {w : Walk} : Follows M [] w w
  | cons {statement : Import} {rest : List Import} {w w₁ w' : Walk} :
      M statement.path w w₁ → Follows M rest (w₁.markWeak statement) w' →
      Follows M (statement :: rest) w w'

theorem follows_of_followWith {M : String → Walk → Walk → Prop}
    {visit : String → Walk → Except WalkError Unit × Walk} {imports : List Import} {w w' : Walk}
    (hvisit : ∀ statement ∈ imports, ∀ {w₁ w₂},
      (∀ identifier, w.units.contains identifier → w₁.units.contains identifier) →
      visit statement.path w₁ = (.ok (), w₂) → M statement.path w₁ w₂ ∧
        ∀ identifier, w₁.units.contains identifier → w₂.units.contains identifier)
    (h : followWith visit imports w = (.ok (), w')) : Follows M imports w w' := by
  induction imports generalizing w with
  | nil =>
    simp only [followWith, Prod.mk.injEq, true_and] at h
    exact h ▸ .nil
  | cons statement rest ih =>
    rw [followWith] at h
    split at h
    · cases h
    · rename_i w₁ hfirst
      obtain ⟨hstep, hkept⟩ := hvisit statement (by simp) (fun _ hw => hw) hfirst
      refine .cons hstep (ih (fun s hs _ _ hw => hvisit s (by simp [hs]) fun _ hold => ?_) h)
      refine hw _ ?_
      rw [contains_markWeak]
      exact hkept _ hold

/-- Induction over a visit that succeeds and that is given the depth that it needs. `M` relates the
name visited and the walks before and after. -/
theorem visit_induct {loader : Loader} {options : RunOptions} {rank : UnitTable → String → Nat}
    (hranks : Ranks loader rank) {M : String → Walk → Walk → Prop}
    (hknown : ∀ {name w}, w.units.contains (unitIdentifier name) → M name w w)
    (habsent : ∀ {name w e}, w.units.contains (unitIdentifier name) = false →
      textOf loader name = .error e → M name w (w.enterAbsent (unitIdentifier name)))
    (hfile : ∀ {name text file w w'}, w.units.contains (unitIdentifier name) = false →
      textOf loader name = .ok text → parseSchema (unitIdentifier name) text = .ok file →
      Follows M file.imports (w.enter (unitIdentifier name) file) w' →
      M name w (w'.complete (unitIdentifier name) file))
    {depth : Nat} {importer : Option String} {name : String} {w w' : Walk}
    (hdepth : rank w.units name ≤ depth)
    (h : visit loader options depth importer name w = (.ok (), w')) : M name w w' := by
  induction depth generalizing importer name w w' with
  | zero => exact absurd (hranks.pos w.units name) (Nat.not_lt.2 hdepth)
  | succ depth ih =>
    rw [visit] at h
    split at h
    · rename_i hold
      simp only [Prod.mk.injEq, true_and] at h
      exact h ▸ hknown hold
    · rename_i hnew
      have hnew : w.units.contains (unitIdentifier name) = false := by simpa using hnew
      split at h
      · rename_i e htext
        split at h
        · simp only [Prod.mk.injEq, true_and] at h
          exact h ▸ habsent hnew htext
        · cases h
      · rename_i text htext
        split at h
        · cases h
        · rename_i file hparse
          split at h
          · cases h
          · rename_i w₁ hfollow
            simp only [Prod.mk.injEq, true_and] at h
            refine h ▸ hfile hnew htext hparse (follows_of_followWith ?_ hfollow)
            intro s hs w₂ w₃ hkept hvisit
            -- Earlier imports have only added units, so the depth left suffices for each import.
            have hunits (identifier : String) := contains_insert w.units (unitIdentifier name)
              identifier (.ofFile (unitIdentifier name) file)
            have hless := hranks.falls hnew htext hparse
              (fun id hid => hkept id ((hunits id).trans (by rw [hid, Bool.or_true])))
              (hkept _ ((hunits _).trans (by simp))) s hs
            obtain ⟨entered, htraverses⟩ := visit_traverses hvisit
            exact ⟨ih (by omega) hvisit, fun id hid => htraverses.kept hid⟩

end Walk
end SchemaGraph
