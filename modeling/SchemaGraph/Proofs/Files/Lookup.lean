import SchemaGraph.Files.Lookup
import SchemaGraph.Proofs.Import.Depth
import SchemaGraph.Proofs.Table.Lookup
/-!
# The texts of a file tree

Which names imports may lead to depends on the texts that a loader answers. A file tree and a
mapping hold finitely many texts, and these mention no more names than they have characters. So the
bounds of a loader that looks imports up there cover every walk (`ImportLookup.suffices_loader`),
although many paths lead to one file.
-/

namespace SchemaGraph

namespace FileTree

/-- The texts of the files of a tree. -/
def texts (t : FileTree) : List String :=
  t.entries.values.filterMap fun
    | .file (.text text) _ => some text
    | _ => none

theorem sum_length_texts (t : FileTree) : (t.texts.map String.length).sum = t.textSize := by
  unfold texts textSize
  rw [Table.total_eq_sum]
  induction t.entries.values with
  | nil => rfl
  | cons entry entries ih =>
    rw [List.map_cons, List.sum_cons, ← ih, List.filterMap_cons]
    cases entry with
    | file content _ =>
      cases content with
      | text text => exact List.sum_cons
      | binary => exact (Nat.zero_add _).symm
    | directory | link | nullDevice => exact (Nat.zero_add _).symm

/-- What leads to a file leads to an entry of the tree. -/
theorem mem_values_of_stat {t : FileTree} {path : String} {content : FileContent}
    {executable : Bool} (h : t.stat path = .ok (.file content executable)) :
    .file content executable ∈ t.entries.values := by
  unfold stat at h
  split at h
  · cases h
  · rename_i location _
    split at h
    · cases h
    · rename_i entry hentry
      cases h
      unfold entry? at hentry
      split at hentry
      · cases hentry
      · exact (Table.mem_values _ _).2 ⟨location, hentry⟩

theorem mem_texts_of_readText {t : FileTree} {path text : String} (hfile : t.isFile path)
    (h : t.readText path = .ok text) : text ∈ t.texts := by
  unfold isFile at hfile
  split at hfile
  · rename_i content executable hstat
    unfold readText readFile at h
    rw [hstat] at h
    cases content with
    | text =>
      cases h
      exact List.mem_filterMap.2 ⟨_, mem_values_of_stat hstat, rfl⟩
    | binary => cases h
  · cases hfile

end FileTree

namespace ImportLookup

/-- The texts that a lookup may answer. -/
def texts (lookup : ImportLookup) (t : FileTree) : List String :=
  t.texts ++ lookup.mapping.values

/-- The names that these texts mention, at whatever depth. -/
def mentioned (lookup : ImportLookup) (t : FileTree) : List String :=
  (lookup.texts t).flatMap fun text => literalsWithin text.length text

variable {lookup : ImportLookup} {t : FileTree}

theorem mem_texts_of_loadFirst {name text : String} {paths : List String}
    (h : loadFirst t name paths = .ok text) : text ∈ t.texts := by
  induction paths with
  | nil => cases h
  | cons path paths ih =>
    rw [loadFirst] at h
    split at h
    · rename_i hfile
      split at h
      · rename_i hread
        cases h
        exact FileTree.mem_texts_of_readText hfile hread
      · cases h
    · exact ih h

theorem mem_texts_of_load {name text : String} (h : lookup.load t name = .ok text) :
    text ∈ lookup.texts t := by
  unfold load at h
  dsimp only at h
  split at h
  · rename_i hinline
    cases h
    obtain ⟨value, hvalue⟩ := Option.isSome_iff_exists.1 hinline.1
    rw [hvalue, Option.getD_some]
    exact List.mem_append_right _ ((Table.mem_values _ _).2 ⟨name, hvalue⟩)
  · exact List.mem_append_left _ (mem_texts_of_loadFirst h)

theorem sum_length_texts (lookup : ImportLookup) (t : FileTree) :
    ((lookup.texts t).map String.length).sum = (lookup.loader t).lengthBound := by
  unfold texts loader
  rw [List.map_append, List.sum_append, t.sum_length_texts, Table.total_eq_sum]

theorem mentions_loader (lookup : ImportLookup) (t : FileTree) :
    (lookup.loader t).Mentions (lookup.mentioned t) := by
  refine ⟨fun {name text} h value hvalue => ?_, fun name hname value hvalue => ?_,
    fun {name text} h => ?_, ?_⟩
  · exact List.mem_flatMap.2
      ⟨text, mem_texts_of_load h, mem_literalsWithin (Nat.le_refl _) hvalue⟩
  · obtain ⟨text, htext, hmem⟩ := List.mem_flatMap.1 hname
    exact List.mem_flatMap.2 ⟨text, htext, literalsWithin_closed (Nat.le_refl _) hmem hvalue⟩
  · rw [← sum_length_texts]
    exact List.single_le_sum (fun _ _ => Nat.zero_le _) _
      (List.mem_map_of_mem (mem_texts_of_load h))
  · have hle : (lookup.mentioned t).length ≤ (lookup.loader t).lengthBound := by
      rw [← sum_length_texts, mentioned, List.length_flatMap]
      exact List.sum_le_sum fun text _ => length_literalsWithin_le _ _
    exact Nat.lt_succ_of_le hle

/-- **No walk over a file tree is cut off**, whatever its root. -/
theorem suffices_loader (lookup : ImportLookup) (t : FileTree) (root : String) :
    (lookup.loader t).Suffices root :=
  (lookup.mentions_loader t).suffices root

end ImportLookup
end SchemaGraph
