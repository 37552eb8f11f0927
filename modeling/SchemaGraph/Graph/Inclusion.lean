import SchemaGraph.Table
/-!
# The inclusion graph

Edges run from a field of an owner to a target, both named by their node identifiers. An edge
recorded again counts once more instead of standing twice. Counts have 32 bits and start again from
zero after the last one.
-/

namespace SchemaGraph

/-- Where an edge starts: the node identifier of the owner, and the field. -/
structure EdgeKey where
  owner : String
  field : String
  deriving DecidableEq, Repr

namespace EdgeKey

instance : LT EdgeKey where
  lt a b := a.owner < b.owner ∨ a.owner = b.owner ∧ a.field < b.field

instance : DecidableLT EdgeKey := fun a b =>
  inferInstanceAs (Decidable (a.owner < b.owner ∨ a.owner = b.owner ∧ a.field < b.field))

theorem lt_iff (a b : EdgeKey) :
    a < b ↔ a.owner < b.owner ∨ a.owner = b.owner ∧ a.field < b.field :=
  Iff.rfl

theorem lt_trans {a b c : EdgeKey} (hab : a < b) (hbc : b < c) : a < c := by
  rcases hab with hab | ⟨hab, hab'⟩ <;> rcases hbc with hbc | ⟨hbc, hbc'⟩
  · exact .inl (String.lt_trans hab hbc)
  · exact .inl (hbc ▸ hab)
  · exact .inl (hab ▸ hbc)
  · exact .inr ⟨hab.trans hbc, String.lt_trans hab' hbc'⟩

theorem lt_irrefl (a : EdgeKey) : ¬ a < a := by
  rintro (h | ⟨_, h⟩) <;> exact String.lt_irrefl _ h

theorem eq_of_not_lt {a b : EdgeKey} (hab : ¬ a < b) (hba : ¬ b < a) : a = b := by
  rw [lt_iff] at hab hba
  have howner : a.owner = b.owner :=
    KeyOrder.eq_of_not_lt (fun h => hab (.inl h)) fun h => hba (.inl h)
  have hfield : a.field = b.field :=
    KeyOrder.eq_of_not_lt (fun h => hab (.inr ⟨howner, h⟩)) fun h => hba (.inr ⟨howner.symm, h⟩)
  cases a
  cases b
  simp_all

instance : KeyOrder EdgeKey where
  lt_irrefl := lt_irrefl
  lt_trans := lt_trans
  eq_of_not_lt := eq_of_not_lt

end EdgeKey

/-- A count is read as the number that it is. -/
instance instCoeCount : Coe UInt32 Nat :=
  ⟨UInt32.toNat⟩

/-- The targets of an edge key, with how often each was recorded. -/
abbrev EdgeTargets : Type :=
  Table String UInt32

/-- Edge keys with their targets. -/
abbrev EdgeTable : Type :=
  Table EdgeKey EdgeTargets

/-- The number of triples of an owner, a field and a target. -/
def EdgeTable.tripleCount (edges : EdgeTable) : Nat :=
  edges.total Table.size

/-- The edges recorded so far. -/
structure InclusionGraph where
  edges : EdgeTable

namespace InclusionGraph

/-- The graph without edges. -/
def empty : InclusionGraph :=
  ⟨.empty⟩

/-- Records one reference from a field of an owner to a target. -/
def record (g : InclusionGraph) (owner field target : String) : InclusionGraph :=
  ⟨g.edges.alter ⟨owner, field⟩ fun targets? =>
    (targets?.getD .empty).alter target fun count? => count?.getD 0 + 1⟩

/-- The targets of one field of an owner. -/
def targets? (g : InclusionGraph) (owner field : String) : Option EdgeTargets :=
  g.edges.get? ⟨owner, field⟩

/-- The edges of an owner, ordered by field: a run of entries, since the owner is the first part of
the key. -/
def edgesFrom (g : InclusionGraph) (owner : String) : List (EdgeKey × EdgeTargets) :=
  (g.edges.entries.dropWhile fun e => e.1 < ⟨owner, ""⟩).takeWhile fun e => e.1.owner = owner

/-- The number of edge keys. -/
def size (g : InclusionGraph) : Nat :=
  g.edges.size

/-- The number of triples of an owner, a field and a target. -/
def edgeCount (g : InclusionGraph) : Nat :=
  g.edges.tripleCount

end InclusionGraph
end SchemaGraph
