import SchemaGraph.Name
import Mathlib.Data.List.Basic
/-!
# Scopes around a place

`scopesAround scope` lists the scopes in which a name written inside `scope` may be meant, from the
innermost to the outermost. The tests on names that the binding of references uses are read here as
statements about `qualify`: `isScopePrefix_iff` says that the scopes around a place are the ones
that `isScopePrefix` accepts, and `hasComponentSuffix_iff` that a name ends with another one when it
is that name qualified by something.
-/

namespace SchemaGraph.Name

/-- A component of a dotted name: it is not empty and holds no dot. -/
def IsComponent (s : String) : Prop :=
  s ≠ "" ∧ '.' ∉ s.toList

/-- Components joined by dots. -/
def join (components : List String) : String :=
  String.intercalate "." components

/-- What stands before each dot of a text, from the last dot to the first. -/
def beforeDots : List Char → List (List Char)
  | [] => []
  | c :: cs => (beforeDots cs).map (c :: ·) ++ if c = '.' then [[]] else []

/-- The scopes around a place, innermost first: `scope` itself, then again and again what stands
before the last dot, and at last the empty scope, which encloses everything. -/
def scopesAround (scope : String) : List String :=
  scope :: (beforeDots scope.toList).map String.ofList ++ [""]

example : scopesAround "a.b.M" = ["a.b.M", "a.b", "a", ""] := by decide

/-! ## Qualified names -/

@[simp] theorem qualify_empty (short : String) : qualify "" short = short :=
  rfl

/-- The characters of a qualified name. -/
theorem toList_qualify (parent short : String) :
    (qualify parent short).toList =
      if parent = "" then short.toList else parent.toList ++ '.' :: short.toList := by
  unfold qualify
  split
  · rfl
  · simp

/-- The namespace of a qualified name is what qualifies it. -/
theorem namespaceOf_qualify (parent short : String) :
    namespaceOf (qualify parent short) short = parent := by
  have hsuffix : short.toList.isSuffixOf? (qualify parent short).toList =
      some (if parent = "" then [] else parent.toList ++ ['.']) := by
    rw [List.isSuffixOf?_eq_some_iff_append_eq, toList_qualify]
    split <;> simp
  rw [namespaceOf, hsuffix]
  by_cases hempty : parent = ""
  · simp [hempty]
  · simp [hempty]

/-- A name that does not start with a dot ends with another one just when it is that name qualified
by something. -/
theorem hasComponentSuffix_iff {qualified suffix : String}
    (hdot : qualified.toList.head? ≠ some '.') :
    hasComponentSuffix qualified suffix = true ↔
      ∃ parent, qualified = qualify parent suffix := by
  unfold hasComponentSuffix
  rw [Bool.or_eq_true, decide_eq_true_eq]
  constructor
  · rintro (heq | hends)
    · exact ⟨"", heq⟩
    · split at hends
      · rename_i before hsuffix
        rw [List.isSuffixOf?_eq_some_iff_append_eq] at hsuffix
        rw [decide_eq_true_eq, List.getLast?_eq_some_iff] at hends
        obtain ⟨parent, hparent⟩ := hends
        rw [hparent] at hsuffix
        refine ⟨String.ofList parent, String.toList_inj.1 ?_⟩
        -- Without a parent the name would start with the dot.
        have hne : parent ≠ [] := by
          intro hnil
          rw [hnil] at hsuffix
          exact hdot (by rw [← hsuffix]; rfl)
        have hne' : String.ofList parent ≠ "" := by
          intro h
          exact hne (by simpa using congrArg String.toList h)
        rw [toList_qualify, if_neg hne', String.toList_ofList, ← hsuffix]
        simp
      · simp at hends
  · rintro ⟨parent, rfl⟩
    by_cases hempty : parent = ""
    · exact .inl (by rw [hempty, qualify_empty])
    · right
      have hsuffix : suffix.toList.isSuffixOf? (qualify parent suffix).toList =
          some (parent.toList ++ ['.']) := by
        rw [List.isSuffixOf?_eq_some_iff_append_eq, toList_qualify, if_neg hempty]
        simp
      rw [hsuffix]
      simp

/-! ## The scopes that enclose a place -/

theorem mem_beforeDots (cs p : List Char) :
    p ∈ beforeDots cs ↔ ∃ rest, cs = p ++ '.' :: rest := by
  induction cs generalizing p with
  | nil => simp [beforeDots]
  | cons c cs ih =>
    rw [beforeDots, List.mem_append]
    cases p with
    | nil => by_cases hc : c = '.' <;> simp [hc]
    | cons x p =>
      have hnil : x :: p ∉ (if c = '.' then [[]] else [] : List (List Char)) := by
        split <;> simp
      simp only [hnil, or_false, List.mem_map, List.cons.injEq, List.cons_append]
      constructor
      · rintro ⟨q, hq, rfl, rfl⟩
        obtain ⟨rest, hrest⟩ := (ih q).1 hq
        exact ⟨rest, rfl, hrest⟩
      · rintro ⟨rest, rfl, hrest⟩
        exact ⟨p, (ih p).2 ⟨rest, hrest⟩, rfl, rfl⟩

/-- The scopes around a place are those that enclose it. -/
theorem isScopePrefix_iff (parent scope : String) :
    isScopePrefix parent scope = true ↔ parent ∈ scopesAround scope := by
  unfold isScopePrefix scopesAround
  simp only [Bool.or_eq_true, decide_eq_true_eq, List.cons_append, List.mem_cons,
    List.mem_append, List.mem_map, List.not_mem_nil, or_false]
  constructor
  · rintro ((hempty | hself) | hinner)
    · exact .inr (.inr hempty)
    · exact .inl hself
    · split at hinner
      · rename_i rest hstarts
        rw [List.isPrefixOf?_eq_some_iff_append_eq] at hstarts
        rw [decide_eq_true_eq, List.head?_eq_some_iff] at hinner
        obtain ⟨rest', rfl⟩ := hinner
        have hmem := (mem_beforeDots scope.toList parent.toList).2 ⟨rest', hstarts.symm⟩
        exact .inr (.inl ⟨parent.toList, hmem, String.ofList_toList⟩)
      · simp at hinner
  · rintro (hself | ⟨p, hp, rfl⟩ | hempty)
    · exact .inl (.inr hself)
    · obtain ⟨rest, hrest⟩ := (mem_beforeDots _ _).1 hp
      have hstarts : (String.ofList p).toList.isPrefixOf? scope.toList = some ('.' :: rest) := by
        rw [List.isPrefixOf?_eq_some_iff_append_eq, String.toList_ofList, hrest]
      rw [hstarts]
      simp
    · exact .inl (.inl hempty)

/-- Each scope around a place is an initial part of the ones before it. -/
theorem scopesAround_pairwise (scope : String) :
    (scopesAround scope).Pairwise fun inner outer => outer.toList <+: inner.toList := by
  have hbefore (cs : List Char) : (beforeDots cs).Pairwise fun p q => q <+: p := by
    induction cs with
    | nil => exact .nil
    | cons c cs ih =>
      rw [beforeDots, List.pairwise_append]
      refine ⟨List.pairwise_map.2 (ih.imp fun h => ?_), by split <;> simp, ?_⟩
      · exact (List.prefix_cons_inj c).2 h
      · intro p _ q hq
        split at hq <;> simp_all
  have hmem (p : List Char) (hp : p ∈ beforeDots scope.toList) : p <+: scope.toList := by
    obtain ⟨rest, hrest⟩ := (mem_beforeDots _ _).1 hp
    exact ⟨'.' :: rest, hrest.symm⟩
  unfold scopesAround
  rw [List.cons_append, List.pairwise_cons, List.pairwise_append]
  refine ⟨?_, List.pairwise_map.2 ?_, List.pairwise_singleton .., ?_⟩
  · intro outer houter
    rcases List.mem_append.1 houter with h | h
    · obtain ⟨p, hp, rfl⟩ := List.mem_map.1 h
      simpa using hmem p hp
    · simp_all
  · simpa using hbefore scope.toList
  · intro p _ q hq
    simp_all

/-- Of two scopes around a place the longer one is the inner one, so no two have one size. -/
theorem eq_of_prefix_of_utf8ByteSize_le {outer inner : String}
    (h : outer.toList <+: inner.toList) (hsize : inner.utf8ByteSize ≤ outer.utf8ByteSize) :
    outer = inner := by
  obtain ⟨rest, hrest⟩ := h
  have hinner : inner = outer ++ String.ofList rest := by
    rw [← String.toList_inj, String.toList_append, String.toList_ofList, hrest]
  rw [hinner, String.utf8ByteSize_append] at hsize
  have hempty : String.ofList rest = "" := String.utf8ByteSize_eq_zero_iff.1 (by omega)
  rw [hinner, hempty, String.append_empty]

theorem utf8ByteSize_le_of_prefix {outer inner : String} (h : outer.toList <+: inner.toList) :
    outer.utf8ByteSize ≤ inner.utf8ByteSize := by
  obtain ⟨rest, hrest⟩ := h
  have hinner : inner = outer ++ String.ofList rest := by
    rw [← String.toList_inj, String.toList_append, String.toList_ofList, hrest]
  rw [hinner, String.utf8ByteSize_append]
  omega

/-- A name weighs more the larger the scope is that qualifies it. -/
theorem utf8ByteSize_qualify_le_iff (p q short : String) :
    (qualify p short).utf8ByteSize ≤ (qualify q short).utf8ByteSize ↔
      p.utf8ByteSize ≤ q.utf8ByteSize := by
  have hsize (parent : String) : (qualify parent short).utf8ByteSize =
      if parent.utf8ByteSize = 0 then short.utf8ByteSize
      else parent.utf8ByteSize + 1 + short.utf8ByteSize := by
    unfold qualify
    simp only [String.utf8ByteSize_eq_zero_iff]
    split
    · rfl
    · rw [String.utf8ByteSize_append, String.utf8ByteSize_append]
      rfl
  -- The empty scope adds no dot, which keeps the order.
  rw [hsize, hsize]
  split <;> split <;> omega

/-! ## Last components -/

theorem splitAt_ne_nil {α : Type} (p : α → Bool) (xs : List α) : Text.splitAt p xs ≠ [] := by
  cases xs with
  | nil => simp [Text.splitAt]
  | cons x xs =>
    rw [Text.splitAt]
    split
    · simp
    · split <;> simp

theorem splitAt_append {α : Type} {p : α → Bool} {x : α} (hx : p x = true) (xs ys : List α) :
    Text.splitAt p (xs ++ x :: ys) = Text.splitAt p xs ++ Text.splitAt p ys := by
  induction xs with
  | nil => simp [Text.splitAt, hx]
  | cons a xs ih =>
    rw [List.cons_append, Text.splitAt, Text.splitAt, ih]
    split
    · rfl
    · cases hsplit : Text.splitAt p xs with
      | nil => exact absurd hsplit (splitAt_ne_nil p xs)
      | cons piece pieces => rfl

theorem splitAt_eq_singleton {α : Type} {p : α → Bool} {xs : List α}
    (h : ∀ x ∈ xs, p x = false) : Text.splitAt p xs = [xs] := by
  induction xs with
  | nil => rfl
  | cons x xs ih =>
    rw [Text.splitAt, h x (by simp), ih fun y hy => h y (by simp [hy])]
    rfl

/-- The pieces make up the list again. -/
theorem intercalate_splitAt {α : Type} [BEq α] [LawfulBEq α] (x : α) (xs : List α) :
    List.intercalate [x] (Text.splitAt (· == x) xs) = xs := by
  induction xs with
  | nil => rfl
  | cons a xs ih =>
    rw [Text.splitAt]
    cases hsplit : Text.splitAt (· == x) xs with
    | nil => exact absurd hsplit (splitAt_ne_nil _ xs)
    | cons piece pieces =>
      rw [hsplit] at ih
      split
      · rename_i ha
        rw [List.intercalate_cons_cons, ih, beq_iff_eq.1 ha]
        rfl
      · cases pieces with
        | nil => rw [← ih, List.intercalate_singleton, List.intercalate_singleton]
        | cons second pieces =>
          rw [← ih, List.intercalate_cons_cons, List.intercalate_cons_cons]
          rfl

/-- A qualified name has the last component of its short name. -/
theorem lastComponent_qualify (parent short : String) :
    lastComponent (qualify parent short) = lastComponent short := by
  unfold lastComponent
  rw [toList_qualify]
  split
  · rfl
  · rw [splitAt_append (by rfl), List.getLast?_append_of_ne_nil _ (splitAt_ne_nil _ _)]

/-- A name without a dot is its own last component. -/
theorem lastComponent_eq_self {name : String} (h : '.' ∉ name.toList) :
    lastComponent name = name := by
  unfold lastComponent
  rw [splitAt_eq_singleton]
  · simp
  · intro c hc
    have hne : c ≠ '.' := fun heq => h (heq ▸ hc)
    simpa using hne

/-- Joined components do not start with a dot, whatever follows them. -/
theorem head?_qualify_join {components : List String} (h : ∀ c ∈ components, IsComponent c)
    {short : String} (hshort : short.toList.head? ≠ some '.') :
    (qualify (join components) short).toList.head? ≠ some '.' := by
  cases components with
  | nil => simpa [join] using hshort
  | cons first others =>
    obtain ⟨hne, hdot⟩ := h first (by simp)
    cases hfirst : first.toList with
    | nil => exact absurd (String.toList_inj.1 (hfirst.trans String.toList_empty.symm)) hne
    | cons c cs =>
      rw [hfirst] at hdot
      have hhead : (join (first :: others)).toList.head? = some c := by
        unfold join
        rw [String.toList_intercalate]
        cases others <;> simp [List.intercalate, hfirst]
      have hc : c ≠ '.' := by
        rintro rfl
        simp at hdot
      rw [toList_qualify]
      split
      · rename_i hempty
        rw [hempty] at hhead
        simp at hhead
      · rw [List.head?_append, hhead]
        simpa using hc

end SchemaGraph.Name
