import Mathlib.Logic.Relation
import SchemaGraph.Graph.Selection
/-!
# The worklist finds what is reachable

`reachWithin` takes names from a queue and appends the successors of each new one. Its fuel suffices
when it covers the queue and the successors of all names that have not been seen
(`mem_reachWithin`): every step takes one name from the queue, and the successors of a name are
appended once.
-/

namespace SchemaGraph

variable {next : String → List String}

/-- What the queue can still grow by: the successors of the nodes that have not been seen. -/
def pending (next : String → List String) (nodes seen : List String) : Nat :=
  ((nodes.filter (· ∉ seen)).flatMap next).length

/-- Seeing a new name moves its successors from what is pending to the queue. -/
theorem pending_cons {nodes seen : List String} (hnodes : nodes.Nodup)
    (hnext : ∀ x, next x ≠ [] → x ∈ nodes) {x : String} (hx : x ∉ seen) :
    pending next nodes (x :: seen) + (next x).length = pending next nodes seen := by
  unfold pending
  by_cases hmem : x ∈ nodes
  · obtain ⟨before, after, rfl⟩ := List.append_of_mem hmem
    -- Only the occurrence of `x` leaves the nodes that count, and there is one.
    rw [List.nodup_append, List.nodup_cons] at hnodes
    have hkeep {ys : List String} (hys : x ∉ ys) :
        ys.filter (· ∉ x :: seen) = ys.filter (· ∉ seen) := by
      refine List.filter_congr fun y hy => ?_
      have hne : y ≠ x := fun heq => hys (heq ▸ hy)
      simp [hne]
    have hbefore : x ∉ before := fun h => hnodes.2.2 x h x (by simp) rfl
    have hnew : (x :: after).filter (· ∉ x :: seen) = after.filter (· ∉ seen) := by
      rw [List.filter_cons_of_neg (by simp), hkeep hnodes.2.1.1]
    have hold : (x :: after).filter (· ∉ seen) = x :: after.filter (· ∉ seen) :=
      List.filter_cons_of_pos (by simpa using hx)
    rw [List.filter_append, List.filter_append, hkeep hbefore, hnew, hold]
    simp only [List.flatMap_append, List.flatMap_cons, List.length_append]
    omega
  · have hnil : next x = [] := by
      by_cases h : next x = []
      · exact h
      · exact absurd (hnext x h) hmem
    have hkeep : nodes.filter (· ∉ x :: seen) = nodes.filter (· ∉ seen) := by
      refine List.filter_congr fun y hy => ?_
      have hne : y ≠ x := fun heq => hmem (heq ▸ hy)
      simp [hne]
    rw [hkeep, hnil]
    rfl

/-- What has been seen is kept, and everything found is reachable from the queue. -/
theorem reachWithin_sound (fuel : Nat) (queue seen : List String) :
    (∀ x ∈ seen, x ∈ reachWithin next fuel queue seen) ∧
      ∀ x ∈ reachWithin next fuel queue seen,
        x ∈ seen ∨ ∃ s ∈ queue, Relation.ReflTransGen (fun a b => b ∈ next a) s x := by
  induction fuel generalizing queue seen with
  | zero => exact ⟨fun x hx => hx, fun x hx => .inl hx⟩
  | succ fuel ih =>
    cases queue with
    | nil => exact ⟨fun x hx => hx, fun x hx => .inl hx⟩
    | cons y queue =>
      rw [reachWithin]
      split
      · obtain ⟨hkept, hsound⟩ := ih queue seen
        refine ⟨hkept, fun x hx => (hsound x hx).imp_right ?_⟩
        rintro ⟨s, hs, hpath⟩
        exact ⟨s, by simp [hs], hpath⟩
      · obtain ⟨hkept, hsound⟩ := ih (queue ++ next y) (y :: seen)
        refine ⟨fun x hx => hkept x (by simp [hx]), fun x hx => ?_⟩
        rcases hsound x hx with hx | ⟨s, hs, hpath⟩
        · rcases List.mem_cons.1 hx with rfl | hx
          · exact .inr ⟨x, by simp, .refl⟩
          · exact .inl hx
        · rcases List.mem_append.1 hs with hs | hs
          · exact .inr ⟨s, by simp [hs], hpath⟩
          · exact .inr ⟨y, by simp, .head hs hpath⟩

/-- With enough fuel the queue is emptied, and what has been found is closed under successors. -/
theorem reachWithin_closed {nodes : List String} (hnodes : nodes.Nodup)
    (hnext : ∀ x, next x ≠ [] → x ∈ nodes) {fuel : Nat} {queue seen : List String}
    (hfuel : queue.length + pending next nodes seen ≤ fuel)
    (hseen : ∀ x ∈ seen, ∀ y ∈ next x, y ∈ seen ∨ y ∈ queue) :
    (∀ x ∈ queue, x ∈ reachWithin next fuel queue seen) ∧
      ∀ x ∈ reachWithin next fuel queue seen, ∀ y ∈ next x,
        y ∈ reachWithin next fuel queue seen := by
  induction fuel generalizing queue seen with
  | zero =>
    have hqueue : queue = [] := List.eq_nil_of_length_eq_zero (by omega)
    subst hqueue
    exact ⟨by simp, fun x hx y hy => (hseen x hx y hy).resolve_right (by simp)⟩
  | succ fuel ih =>
    cases queue with
    | nil =>
      exact ⟨by simp, fun x hx y hy => (hseen x hx y hy).resolve_right (by simp)⟩
    | cons z queue =>
      rw [List.length_cons] at hfuel
      rw [reachWithin]
      split
      -- A name seen before: its successors are seen or queued already.
      · rename_i hz
        have hseen' : ∀ x ∈ seen, ∀ y ∈ next x, y ∈ seen ∨ y ∈ queue := by
          intro x hx y hy
          rcases hseen x hx y hy with h | h
          · exact .inl h
          · rcases List.mem_cons.1 h with rfl | h
            · exact .inl hz
            · exact .inr h
        obtain ⟨hqueue, hclosed⟩ := ih (by omega) hseen'
        refine ⟨fun x hx => ?_, hclosed⟩
        rcases List.mem_cons.1 hx with rfl | hx
        · exact (reachWithin_sound fuel queue seen).1 x hz
        · exact hqueue x hx
      · rename_i hz
        -- A new name: its successors move from what is pending to the queue.
        have hpending := pending_cons hnodes hnext hz
        have hseen' : ∀ x ∈ z :: seen, ∀ y ∈ next x, y ∈ z :: seen ∨ y ∈ queue ++ next z := by
          intro x hx y hy
          rcases List.mem_cons.1 hx with rfl | hx
          · exact .inr (List.mem_append_right _ hy)
          · rcases hseen x hx y hy with h | h
            · exact .inl (by simp [h])
            · rcases List.mem_cons.1 h with rfl | h
              · exact .inl (by simp)
              · exact .inr (List.mem_append_left _ h)
        obtain ⟨hqueue, hclosed⟩ := ih (by rw [List.length_append]; omega) hseen'
        refine ⟨fun x hx => ?_, hclosed⟩
        rcases List.mem_cons.1 hx with rfl | hx
        · exact (reachWithin_sound fuel _ _).1 x (by simp)
        · exact hqueue x (List.mem_append_left _ hx)

/-- **The worklist finds exactly what is reachable** from the names in its queue. -/
theorem mem_reachWithin {nodes : List String} (hnodes : nodes.Nodup)
    (hnext : ∀ x, next x ≠ [] → x ∈ nodes) {fuel : Nat} {queue : List String}
    (hfuel : queue.length + (nodes.flatMap next).length ≤ fuel) (x : String) :
    x ∈ reachWithin next fuel queue [] ↔
      ∃ s ∈ queue, Relation.ReflTransGen (fun a b => b ∈ next a) s x := by
  have hpending : queue.length + pending next nodes [] ≤ fuel := by
    have hall : nodes.filter (· ∉ ([] : List String)) = nodes :=
      List.filter_eq_self.2 fun y _ => by simp
    rw [pending, hall]
    exact hfuel
  obtain ⟨hqueue, hclosed⟩ := reachWithin_closed hnodes hnext hpending (by simp)
  constructor
  · intro hx
    exact ((reachWithin_sound fuel queue []).2 x hx).resolve_left (by simp)
  · rintro ⟨s, hs, hpath⟩
    induction hpath with
    | refl => exact hqueue s hs
    | tail _ hlast ih => exact hclosed _ ih _ hlast

end SchemaGraph
