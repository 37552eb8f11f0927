import Mathlib.Data.List.Dedup
import SchemaGraph.Graph.Inclusion
import SchemaGraph.Proofs.Table.Lookup
/-!
# An inclusion graph counts edges

`InclusionGraph.Counts g edges` says that `g` is the graph of a list of edges: it counts how often
each of them occurs, and has no key for anything else. The order of the list does not matter, and
recording an edge appends it (`Counts.record`). `recordings_are_counted` says what a graph answers
after a sequence of recordings. A count has 32 bits: it is the number of occurrences up to multiples
of `2 ^ 32`, so an edge is told by a count being stored for it, not by a count above zero.
-/

namespace SchemaGraph

/-! ## Sorted lists -/

/-- In a sorted list what satisfies a downward closed predicate stands at the beginning. -/
theorem takeWhile_eq_filter {α : Type} {R : α → α → Prop} {p : α → Bool} {xs : List α}
    (hsorted : xs.Pairwise R) (hp : ∀ a b, R a b → p b → p a) :
    xs.takeWhile p = xs.filter p := by
  induction xs with
  | nil => rfl
  | cons x xs ih =>
    rw [List.pairwise_cons] at hsorted
    rw [List.takeWhile_cons, List.filter_cons, ih hsorted.2]
    split
    · rfl
    · rename_i hx
      refine (List.filter_eq_nil_iff.2 fun y hy hpy => ?_).symm
      exact hx (hp x y (hsorted.1 y hy) hpy)

theorem dropWhile_eq_filter {α : Type} {R : α → α → Prop} {p : α → Bool} {xs : List α}
    (hsorted : xs.Pairwise R) (hp : ∀ a b, R a b → p b → p a) :
    xs.dropWhile p = xs.filter fun x => !p x := by
  induction xs with
  | nil => rfl
  | cons x xs ih =>
    rw [List.pairwise_cons] at hsorted
    rw [List.dropWhile_cons]
    cases hx : p x with
    | true => simp [hx, ih hsorted.2]
    | false =>
      have hall : ∀ y ∈ x :: xs, (!p y) = true := by
        intro y hy
        rcases List.mem_cons.1 hy with rfl | hy
        · simp [hx]
        · cases hpy : p y with
          | false => rfl
          | true => simp [hp x y (hsorted.1 y hy) hpy] at hx
      rw [List.filter_eq_self.2 hall]
      simp

/-! ## Different members of a list -/

/-- A list without repetition is as long as the list of the different members of any other one with
the same members. -/
theorem length_eq_length_dedup {α : Type} [DecidableEq α] {xs ys : List α} (hnodup : xs.Nodup)
    (h : ∀ a, a ∈ xs ↔ a ∈ ys) : xs.length = ys.dedup.length := by
  have hperm : xs.Perm ys.dedup :=
    (List.perm_ext_iff_of_nodup hnodup ys.nodup_dedup).2 fun a => by rw [h, List.mem_dedup]
  exact hperm.length_eq

/-- Taken under names that differ, a list has as many different members as before. -/
theorem length_dedup_map {α β : Type} [DecidableEq α] [DecidableEq β] {f : α → β} {xs : List α}
    (hinj : ∀ x ∈ xs, ∀ y ∈ xs, f x = f y → x = y) :
    (xs.map f).dedup.length = xs.dedup.length := by
  have hnodup : (xs.dedup.map f).Nodup :=
    xs.nodup_dedup.map_on fun x hx y hy =>
      hinj x (List.mem_dedup.1 hx) y (List.mem_dedup.1 hy)
  rw [← length_eq_length_dedup hnodup fun b => by simp, List.length_map]

/-! ## Triples of a table of edges -/

namespace EdgeTable

/-- The triples of an owner with a field and a target. -/
def triples (edges : EdgeTable) : List (EdgeKey × String) :=
  edges.entries.flatMap fun e => e.2.keys.map (e.1, ·)

theorem mem_triples {edges : EdgeTable} {key : EdgeKey} {target : String} :
    (key, target) ∈ edges.triples ↔
      ∃ targets, edges.get? key = some targets ∧ (targets.get? target).isSome := by
  unfold triples
  rw [List.mem_flatMap]
  constructor
  · rintro ⟨⟨key', targets⟩, he, hmem⟩
    obtain ⟨target', htarget, heq⟩ := List.mem_map.1 hmem
    cases heq
    exact ⟨targets, (edges.mem_entries _ _).1 he, (targets.mem_keys _).1 htarget⟩
  · rintro ⟨targets, hkey, htarget⟩
    exact ⟨(key, targets), (edges.mem_entries _ _).2 hkey,
      List.mem_map.2 ⟨target, (targets.mem_keys _).2 htarget, rfl⟩⟩

theorem nodup_triples (edges : EdgeTable) : edges.triples.Nodup := by
  unfold triples
  refine List.nodup_flatMap.2 ⟨fun e _ => e.2.keys_nodup.map fun _ _ heq => (Prod.mk.inj heq).2, ?_⟩
  -- The triples of different keys differ in their keys.
  refine (List.pairwise_map.1 edges.keys_nodup).imp fun hne t ht ht' => ?_
  obtain ⟨_, -, rfl⟩ := List.mem_map.1 ht
  obtain ⟨_, -, heq⟩ := List.mem_map.1 ht'
  exact hne (Prod.mk.inj heq).1.symm

/-- The triples of a table are counted key by key. -/
theorem length_triples (edges : EdgeTable) : edges.triples.length = edges.tripleCount := by
  rw [tripleCount, Table.total_eq_sum, triples, List.length_flatMap, Table.values,
    List.map_map]
  refine congrArg List.sum (List.map_congr_left fun e _ => ?_)
  rw [List.length_map, Table.keys, List.length_map]
  rfl

end EdgeTable

namespace InclusionGraph

/-! ## Counting -/

/-- What is stored for an edge after `n` recordings: nothing before the first one. -/
def storedCount (n : Nat) : Option UInt32 :=
  if n = 0 then none else some (UInt32.ofNat n)

theorem storedCount_succ (n : Nat) : storedCount (n + 1) = some ((storedCount n).getD 0 + 1) := by
  unfold storedCount
  rw [if_neg n.succ_ne_zero, UInt32.ofNat_add]
  split
  · rename_i hzero
    rw [hzero]
    rfl
  · rfl

theorem isSome_storedCount {n : Nat} : (storedCount n).isSome ↔ 0 < n := by
  unfold storedCount
  split <;> simp <;> omega

/-- As long as a count fits into 32 bits it is the number of recordings. -/
theorem storedCount_getD {n : Nat} (h : n < 2 ^ 32) : ((storedCount n).getD 0 : Nat) = n := by
  unfold storedCount
  split
  · rename_i hzero
    rw [hzero]
    rfl
  · exact UInt32.toNat_ofNat_of_lt' h

/-- The count stored for an edge. -/
def count? (g : InclusionGraph) (key : EdgeKey) (target : String) : Option UInt32 :=
  (g.edges.get? key).bind fun targets => targets.get? target

theorem count?_eq_some_iff {g : InclusionGraph} {key : EdgeKey} {target : String} {n : UInt32} :
    g.count? key target = some n ↔
      ∃ targets, g.edges.get? key = some targets ∧ targets.get? target = some n :=
  Option.bind_eq_some_iff

theorem isSome_count?_iff {g : InclusionGraph} {key : EdgeKey} {target : String} :
    (g.count? key target).isSome ↔
      ∃ targets, g.edges.get? key = some targets ∧ (targets.get? target).isSome := by
  simp only [Option.isSome_iff_exists, count?_eq_some_iff]
  constructor
  · rintro ⟨n, targets, hget, hn⟩
    exact ⟨targets, hget, n, hn⟩
  · rintro ⟨targets, hget, n, hn⟩
    exact ⟨n, targets, hget, hn⟩

theorem get?_record (g : InclusionGraph) (owner field target : String) (key : EdgeKey) :
    (g.record owner field target).edges.get? key =
      if key = ⟨owner, field⟩ then
        some (((g.edges.get? ⟨owner, field⟩).getD .empty).alter target fun n => n.getD 0 + 1)
      else g.edges.get? key :=
  Table.get?_alter ..

/-- Recording an edge adds one to its count, and leaves the other counts alone. -/
theorem count?_record (g : InclusionGraph) (owner field target : String) (key : EdgeKey)
    (target' : String) :
    (g.record owner field target).count? key target' =
      if key = ⟨owner, field⟩ ∧ target' = target then some ((g.count? key target').getD 0 + 1)
      else g.count? key target' := by
  unfold count?
  rw [get?_record]
  by_cases hkey : key = ⟨owner, field⟩
  · subst hkey
    rw [if_pos rfl, Option.bind_some, Table.get?_alter]
    by_cases htarget : target' = target
    · rw [if_pos htarget, if_pos ⟨rfl, htarget⟩, htarget]
      cases g.edges.get? ⟨owner, field⟩ with
      | none => rfl
      | some targets => rfl
    · rw [if_neg htarget, if_neg fun h => htarget h.2]
      cases g.edges.get? ⟨owner, field⟩ with
      | none => rfl
      | some targets => rfl
  · rw [if_neg hkey, if_neg fun h => hkey h.1]

/-- `g.Counts edges`: the graph counts how often each edge occurs in the list, and has no key
without targets. -/
structure Counts (g : InclusionGraph) (edges : List (EdgeKey × String)) : Prop where
  count : ∀ key target, g.count? key target = storedCount (edges.count (key, target))
  inhabited : ∀ {key targets}, g.edges.get? key = some targets →
    ∃ target, (targets.get? target).isSome

theorem counts_empty : Counts .empty [] :=
  ⟨fun _ _ => rfl, fun h => by cases h⟩

theorem Counts.perm {g : InclusionGraph} {edges edges' : List (EdgeKey × String)}
    (h : g.Counts edges) (hperm : edges.Perm edges') : g.Counts edges' :=
  ⟨fun key target => hperm.count_eq (key, target) ▸ h.count key target, h.inhabited⟩

theorem Counts.record {g : InclusionGraph} {edges : List (EdgeKey × String)} (h : g.Counts edges)
    (owner field target : String) :
    (g.record owner field target).Counts (edges ++ [(⟨owner, field⟩, target)]) := by
  refine ⟨fun key target' => ?_, fun {key targets} hget => ?_⟩
  · rw [count?_record, h.count, List.count_append, List.count_singleton]
    have hiff : (((⟨owner, field⟩ : EdgeKey), target) == (key, target')) = true ↔
        key = ⟨owner, field⟩ ∧ target' = target := by
      rw [beq_iff_eq, Prod.mk.injEq]
      exact and_congr eq_comm eq_comm
    simp only [hiff]
    split
    · rw [storedCount_succ]
    · rw [Nat.add_zero]
  · rw [get?_record] at hget
    split at hget
    · rw [← Option.some.inj hget]
      exact ⟨target, by rw [Table.get?_alter, if_pos rfl]; rfl⟩
    · exact h.inhabited hget

/-- A count is stored for the edges in the list. -/
theorem Counts.isSome_count?_iff {g : InclusionGraph} {edges : List (EdgeKey × String)}
    (h : g.Counts edges) {key : EdgeKey} {target : String} :
    (g.count? key target).isSome ↔ (key, target) ∈ edges := by
  rw [h.count, isSome_storedCount, List.count_pos_iff]

/-- The targets of a key are those of the edges in the list. -/
theorem Counts.mem_iff {g : InclusionGraph} {edges : List (EdgeKey × String)} (h : g.Counts edges)
    (key : EdgeKey) (target : String) :
    (key, target) ∈ edges ↔
      ∃ targets, g.edges.get? key = some targets ∧ (targets.get? target).isSome := by
  rw [← h.isSome_count?_iff, InclusionGraph.isSome_count?_iff]

/-- A graph has one triple for each different edge that it counts. -/
theorem Counts.edgeCount_eq {g : InclusionGraph} {edges : List (EdgeKey × String)}
    (h : g.Counts edges) : g.edgeCount = edges.dedup.length := by
  rw [edgeCount, ← EdgeTable.length_triples]
  refine length_eq_length_dedup g.edges.nodup_triples fun ⟨key, target⟩ => ?_
  rw [EdgeTable.mem_triples, h.mem_iff]

/-- A key is stored when an edge starts at it. -/
theorem Counts.isSome_get?_iff {g : InclusionGraph} {edges : List (EdgeKey × String)}
    (h : g.Counts edges) (key : EdgeKey) :
    (g.edges.get? key).isSome ↔ ∃ target, (key, target) ∈ edges := by
  simp only [h.mem_iff, Option.isSome_iff_exists]
  constructor
  · rintro ⟨targets, hget⟩
    obtain ⟨target, hsome⟩ := h.inhabited hget
    exact ⟨target, targets, hget, Option.isSome_iff_exists.1 hsome⟩
  · rintro ⟨target, targets, hget, -⟩
    exact ⟨targets, hget⟩

/-- A key of which the list has no edge has no targets. -/
theorem Counts.get?_eq_none {g : InclusionGraph} {edges : List (EdgeKey × String)}
    (h : g.Counts edges) {key : EdgeKey} (hkey : ∀ e ∈ edges, e.1 ≠ key) :
    g.edges.get? key = none := by
  cases hget : g.edges.get? key with
  | none => rfl
  | some targets =>
    obtain ⟨id, hid⟩ := h.inhabited hget
    exact absurd rfl (hkey _ ((h.mem_iff key id).2 ⟨targets, hget, hid⟩))

/-- A key of which the list has one edge has one target, recorded once. -/
theorem Counts.targets_of_cons {g : InclusionGraph} {edge : EdgeKey × String}
    {others : List (EdgeKey × String)} (h : g.Counts (edge :: others))
    (hothers : ∀ e ∈ others, e.1 ≠ edge.1) :
    ∃ targets, g.edges.get? edge.1 = some targets ∧
      ∀ id n, targets.get? id = some n ↔ id = edge.2 ∧ n = 1 := by
  obtain ⟨targets, hget, -⟩ := (h.mem_iff edge.1 edge.2).1 List.mem_cons_self
  refine ⟨targets, hget, fun id n => ?_⟩
  have hcount := h.count edge.1 id
  have hnone : others.count (edge.1, id) = 0 :=
    List.count_eq_zero.2 fun hmem => hothers _ hmem rfl
  unfold count? at hcount
  rw [hget, Option.bind_some, List.count_cons, hnone] at hcount
  rw [hcount]
  by_cases hid : id = edge.2
  · subst hid
    simp [storedCount, eq_comm]
  · have hne : ¬ (edge == (edge.1, id)) = true := fun heq =>
      hid (congrArg Prod.snd (beq_iff_eq.1 heq)).symm
    simp [storedCount, hne, hid]

/-! ## One recording after the other -/

/-- The graph after a sequence of recordings. -/
def recordAll (g : InclusionGraph) (edges : List (EdgeKey × String)) : InclusionGraph :=
  edges.foldl (fun g e => g.record e.1.owner e.1.field e.2) g

/-- Recording edges adds them to what is counted. -/
theorem Counts.recordAll {g : InclusionGraph} {before : List (EdgeKey × String)}
    (h : g.Counts before) (edges : List (EdgeKey × String)) :
    (g.recordAll edges).Counts (before ++ edges) := by
  induction edges generalizing g before with
  | nil => rwa [List.append_nil]
  | cons e edges ih =>
    have hstep : (g.record e.1.owner e.1.field e.2).Counts (before ++ [e]) := h.record ..
    have hrun := ih hstep
    rwa [List.append_assoc, List.singleton_append] at hrun

/-! ## The edges of an owner -/

theorem edgesFrom_eq_filter (g : InclusionGraph) (owner : String) :
    g.edgesFrom owner = g.edges.entries.filter fun e => e.1.owner = owner := by
  have hlt (key : EdgeKey) : key < ⟨owner, ""⟩ ↔ key.owner < owner := by
    rw [EdgeKey.lt_iff]
    constructor
    · rintro (h | ⟨-, h⟩)
      · exact h
      · exact absurd (String.lt_iff.1 h) (List.not_lt_nil _)
    · exact fun h => .inl h
  have howner {a b : EdgeKey} (hab : a < b) : ¬ b.owner < a.owner := by
    intro hba
    rcases (EdgeKey.lt_iff a b).1 hab with h | ⟨h, -⟩
    · exact String.lt_irrefl _ (String.lt_trans h hba)
    · exact String.lt_irrefl _ (h ▸ hba)
  -- The keys are sorted by owner, so dropping stops at the first one of this owner or a later one.
  have hbefore : g.edges.entries.dropWhile (fun e => e.1 < ⟨owner, ""⟩) =
      g.edges.entries.filter fun e => !decide (e.1 < ⟨owner, ""⟩) :=
    dropWhile_eq_filter g.edges.sorted fun a b hab hb =>
      decide_eq_true (KeyOrder.lt_trans hab (of_decide_eq_true hb))
  -- No key of a smaller owner is left, so that the keys of the owner come first.
  have hafter : (g.edges.entries.filter fun e => !decide (e.1 < ⟨owner, ""⟩)).takeWhile
        (fun e => e.1.owner = owner) =
      (g.edges.entries.filter fun e => !decide (e.1 < ⟨owner, ""⟩)).filter
        fun e => e.1.owner = owner := by
    refine takeWhile_eq_filter (R := fun a b => a.1 < b.1 ∧ ¬ a.1.owner < owner)
      ((g.edges.sorted.filter _).imp_of_mem fun {a b} ha _ hab => ?_) fun a b hab hb => ?_
    · have hnot := (List.mem_filter.1 ha).2
      refine ⟨hab, fun h => ?_⟩
      simp [(hlt a.1).2 h] at hnot
    · have hb := of_decide_eq_true hb
      exact decide_eq_true (KeyOrder.eq_of_not_lt hab.2 fun h => howner hab.1 (hb ▸ h))
  unfold edgesFrom
  rw [hbefore, hafter, List.filter_filter]
  refine List.filter_congr fun e _ => ?_
  by_cases he : e.1.owner = owner
  · have hnot : ¬ e.1 < ⟨owner, ""⟩ := fun h => String.lt_irrefl _ (he ▸ (hlt e.1).1 h)
    simp [he, hnot]
  · simp [he]

theorem mem_edgesFrom (g : InclusionGraph) (owner : String) (key : EdgeKey)
    (targets : EdgeTargets) :
    (key, targets) ∈ g.edgesFrom owner ↔ g.edges.get? key = some targets ∧ key.owner = owner := by
  rw [edgesFrom_eq_filter, List.mem_filter, Table.mem_entries, decide_eq_true_eq]

/-- The edges of an owner are in the order of their fields. -/
theorem edgesFrom_sorted (g : InclusionGraph) (owner : String) :
    (g.edgesFrom owner).Pairwise (·.1.field < ·.1.field) := by
  rw [edgesFrom_eq_filter]
  refine (g.edges.sorted.filter _).imp_of_mem fun {a b} ha hb hlt => ?_
  have haowner : a.1.owner = owner := of_decide_eq_true (List.mem_filter.1 ha).2
  have hbowner : b.1.owner = owner := of_decide_eq_true (List.mem_filter.1 hb).2
  -- Among keys of one owner the field decides.
  rcases (EdgeKey.lt_iff a.1 b.1).1 hlt with howner | ⟨-, hfield⟩
  · exact absurd (haowner ▸ hbowner ▸ howner) (String.lt_irrefl _)
  · exact hfield

/-! ## What recordings leave behind -/

/--
**What recordings leave behind.** After any sequence of recordings, the count stored for a triple is
the number of recordings of it in 32 bits, which is that number itself as long as it fits, and
nothing is stored that was not recorded; the number of edges is that of the different triples
recorded; and the edges of an owner, a run of entries of the graph, are those that a filter of all
entries by that owner gives, in the order of their fields.
-/
theorem recordings_are_counted (recorded : List (EdgeKey × String)) :
    let g := empty.recordAll recorded
    (∀ owner field target, ((g.targets? owner field).bind fun targets => targets.get? target) =
      if (⟨owner, field⟩, target) ∈ recorded then
        some (UInt32.ofNat (recorded.count (⟨owner, field⟩, target)))
      else none) ∧
    (∀ owner field target, recorded.count (⟨owner, field⟩, target) < 2 ^ 32 →
      (((g.targets? owner field).bind fun targets => targets.get? target).getD 0 : Nat) =
        recorded.count (⟨owner, field⟩, target)) ∧
    (∀ owner field, (g.targets? owner field).isSome ↔
      ∃ target, (⟨owner, field⟩, target) ∈ recorded) ∧
    g.edgeCount = recorded.dedup.length ∧
    ∀ owner, g.edgesFrom owner = (g.edges.entries.filter fun e => e.1.owner = owner) ∧
      (g.edgesFrom owner).Pairwise (·.1.field < ·.1.field) := by
  intro g
  have hcounts : g.Counts recorded := counts_empty.recordAll recorded
  have hstored (owner field target : String) :
      ((g.targets? owner field).bind fun targets => targets.get? target) =
        storedCount (recorded.count (⟨owner, field⟩, target)) :=
    hcounts.count ⟨owner, field⟩ target
  refine ⟨fun owner field target => ?_, fun owner field target hfits => ?_,
    fun owner field => hcounts.isSome_get?_iff ⟨owner, field⟩, hcounts.edgeCount_eq,
    fun owner => ⟨g.edgesFrom_eq_filter owner, g.edgesFrom_sorted owner⟩⟩
  · rw [hstored, storedCount]
    by_cases hmem : (⟨owner, field⟩, target) ∈ recorded
    · rw [if_pos hmem, if_neg (Nat.ne_of_gt (List.count_pos_iff.2 hmem))]
    · rw [if_neg hmem, if_pos (List.count_eq_zero.2 hmem)]
  · rw [hstored, storedCount_getD hfits]

/-- A triple recorded twice has the count 2, whatever else is recorded. -/
theorem count_recordedTwice :
    let recorded : List (EdgeKey × String) :=
      [(⟨"A_100", ""⟩, "t"), (⟨"A_1000", ""⟩, "t"), (⟨"A_100", ""⟩, "t")]
    recorded.count (⟨"A_100", ""⟩, "t") < 2 ^ 32 ∧
      ((((empty.recordAll recorded).targets? "A_100" "").bind fun targets =>
        targets.get? "t").getD 0 : Nat) = 2 := by
  intro recorded
  have hfits : recorded.count (⟨"A_100", ""⟩, "t") < 2 ^ 32 := by decide
  obtain ⟨-, hcount, -⟩ := recordings_are_counted recorded
  exact ⟨hfits, hcount "A_100" "" "t" hfits⟩

/-- Owners of which one begins the other keep their edges apart, also at the empty field. -/
example : ((empty.recordAll [(⟨"A_1000", "f"⟩, "t"), (⟨"A_100", "g"⟩, "t"), (⟨"A_1000", ""⟩, "t"),
    (⟨"A_100", ""⟩, "t")]).edgesFrom "A_100").map (·.1.field) = ["", "g"] := by
  decide

end InclusionGraph
end SchemaGraph
