import SchemaGraph.Proofs.Name.Scopes
/-!
# Names as lists of components

A dotted name stands for the list of its components. `components` reads that list off a name, and
`components_join` says that it is the list the name was joined from, so no two lists of components
have one name. The tests of `SchemaGraph.Name` compare texts; here they are the comparisons of the
lists: `hasComponentSuffix` tests for a suffix (`hasComponentSuffix_join_iff`), `isScopePrefix` for
a prefix (`isScopePrefix_join_iff`), and `namespaceOf` drops a suffix (`namespaceOf_join_append`).
-/

namespace SchemaGraph.Name

instance : DecidablePred IsComponent :=
  fun s => inferInstanceAs (Decidable (s ≠ "" ∧ '.' ∉ s.toList))

/-- The components of a name; the empty name has none. -/
def components (name : String) : List String :=
  if name = "" then [] else Text.split (· == '.') name

/-! ## Reading the components off a name -/

/-- A dot after a name that is not empty ends its components. -/
theorem components_append_dot {parent : String} (h : parent ≠ "") (rest : String) :
    components (parent ++ "." ++ rest) = components parent ++ Text.split (· == '.') rest := by
  have hne : parent ++ "." ++ rest ≠ "" := by
    intro hempty
    have hchars := congrArg String.toList hempty
    simp at hchars
  have hchars : (parent ++ "." ++ rest).toList = parent.toList ++ '.' :: rest.toList := by simp
  rw [components, if_neg hne, components, if_neg h, Text.split, hchars, splitAt_append (by rfl),
    List.map_append]
  rfl

/-- The components of a qualified name are those of its scope and then those of the short name. -/
theorem components_qualify (parent : String) {short : String} (h : short ≠ "") :
    components (qualify parent short) = components parent ++ components short := by
  by_cases hparent : parent = ""
  · rw [hparent, qualify_empty]
    rfl
  · rw [qualify, if_neg hparent, components_append_dot hparent, components, components, if_neg h]

/-- A component is a name of one component. -/
theorem components_of_isComponent {s : String} (h : IsComponent s) : components s = [s] := by
  have hsplit : Text.splitAt (· == '.') s.toList = [s.toList] := by
    refine splitAt_eq_singleton fun c hc => beq_eq_false_iff_ne.2 ?_
    rintro rfl
    exact h.2 hc
  rw [components, if_neg h.1, Text.split, hsplit]
  simp

/-! ## Joining components -/

@[simp] theorem join_nil : join [] = "" :=
  rfl

@[simp] theorem join_singleton (c : String) : join [c] = c :=
  String.intercalate_singleton

theorem join_ne_empty {cs : List String} (h : ∀ c ∈ cs, IsComponent c) (hne : cs ≠ []) :
    join cs ≠ "" := by
  cases cs with
  | nil => exact absurd rfl hne
  | cons first others =>
    have hfirst : first ≠ "" := (h first (by simp)).1
    cases others with
    | nil => rwa [join_singleton]
    | cons second others =>
      rw [join, String.intercalate_cons_cons]
      intro hempty
      have hchars := congrArg String.toList hempty
      simp at hchars

/-- Joining appended lists qualifies the name of the second by that of the first. -/
theorem join_append {xs ys : List String} (hxs : ∀ c ∈ xs, IsComponent c) (hys : ys ≠ []) :
    join (xs ++ ys) = qualify (join xs) (join ys) := by
  by_cases hnil : xs = []
  · rw [hnil, List.nil_append, join_nil, qualify_empty]
  · rw [qualify, if_neg (join_ne_empty hxs hnil)]
    exact String.intercalate_append_of_ne_nil hnil hys

/-- The components of a joined name are what was joined. -/
theorem components_join {cs : List String} (h : ∀ c ∈ cs, IsComponent c) :
    components (join cs) = cs := by
  induction cs with
  | nil => rfl
  | cons first others ih =>
    have hfirst : ∀ c ∈ [first], IsComponent c := fun c hc => h c (by simp_all)
    have hothers : ∀ c ∈ others, IsComponent c := fun c hc => h c (by simp [hc])
    have hone : components (join [first]) = [first] := by
      rw [join_singleton, components_of_isComponent (h first (by simp))]
    by_cases hnil : others = []
    · rw [hnil, hone]
    · rw [← List.singleton_append, join_append hfirst hnil,
        components_qualify _ (join_ne_empty hothers hnil), hone, ih hothers]

/-- A joined name does not start with a dot. -/
theorem head?_join {cs : List String} (h : ∀ c ∈ cs, IsComponent c) :
    (join cs).toList.head? ≠ some '.' := by
  obtain rfl | ⟨outer, last, rfl⟩ := List.eq_nil_or_concat' cs
  · simp
  · have hlast : last.toList.head? ≠ some '.' := fun hhead =>
      (h last (by simp)).2 (List.mem_of_head? hhead)
    have houter : ∀ c ∈ outer, IsComponent c := fun c hc => h c (by simp [hc])
    rw [join_append houter (by simp), join_singleton]
    exact head?_qualify_join houter hlast

/-! ## The tests on joined names -/

/-- A joined name ends with another one when its components do. -/
theorem hasComponentSuffix_join_iff {xs ys : List String} (hxs : ∀ c ∈ xs, IsComponent c)
    (hys : ∀ c ∈ ys, IsComponent c) (hne : ys ≠ []) :
    hasComponentSuffix (join xs) (join ys) = true ↔ ys <:+ xs := by
  rw [hasComponentSuffix_iff (head?_join hxs)]
  constructor
  -- What qualifies the name may be any text; its components stand before those of `ys`.
  · rintro ⟨parent, hparent⟩
    refine ⟨components parent, ?_⟩
    have hcomponents := congrArg components hparent
    rw [components_qualify parent (join_ne_empty hys hne), components_join hxs,
      components_join hys] at hcomponents
    exact hcomponents.symm
  · rintro ⟨zs, rfl⟩
    have hzs : ∀ c ∈ zs, IsComponent c := fun c hc => hxs c (by simp [hc])
    exact ⟨join zs, join_append hzs hne⟩

/-- A place lies in a scope when its name is the scope's or goes on after it with a dot. -/
theorem isScopePrefix_iff_exists {parent scope : String} :
    isScopePrefix parent scope = true ↔
      parent = "" ∨ parent = scope ∨ ∃ rest, scope = parent ++ "." ++ rest := by
  have hbefore : parent ∈ (beforeDots scope.toList).map String.ofList ↔
      ∃ rest, scope = parent ++ "." ++ rest := by
    simp only [List.mem_map, mem_beforeDots]
    constructor
    · rintro ⟨p, ⟨rest, hrest⟩, rfl⟩
      exact ⟨String.ofList rest, by rw [← String.toList_inj, hrest]; simp⟩
    · rintro ⟨rest, rfl⟩
      exact ⟨parent.toList, ⟨rest.toList, by simp⟩, String.ofList_toList⟩
  rw [isScopePrefix_iff, scopesAround, List.cons_append, List.mem_cons, List.mem_append, hbefore,
    List.mem_singleton]
  tauto

/-- A joined name is a scope of another one when its components are the first of the other. -/
theorem isScopePrefix_join_iff {xs ys : List String} (hxs : ∀ c ∈ xs, IsComponent c)
    (hys : ∀ c ∈ ys, IsComponent c) :
    isScopePrefix (join xs) (join ys) = true ↔ xs <+: ys := by
  rw [isScopePrefix_iff_exists]
  constructor
  · rintro (hempty | hsame | ⟨rest, hrest⟩)
    · have hnil := congrArg components hempty
      rw [components_join hxs] at hnil
      exact hnil ▸ List.nil_prefix
    · have hcomponents := congrArg components hsame
      rw [components_join hxs, components_join hys] at hcomponents
      exact hcomponents ▸ List.prefix_rfl
    · by_cases hnil : xs = []
      · exact hnil ▸ List.nil_prefix
      -- The dot ends the components of the scope, whatever the next one starts with.
      · have hcomponents := congrArg components hrest
        rw [components_append_dot (join_ne_empty hxs hnil), components_join hxs,
          components_join hys] at hcomponents
        exact ⟨_, hcomponents.symm⟩
  · rintro ⟨zs, rfl⟩
    by_cases hxnil : xs = []
    · exact .inl (hxnil ▸ rfl)
    · by_cases hznil : zs = []
      · exact .inr (.inl (by rw [hznil, List.append_nil]))
      · refine .inr (.inr ⟨join zs, ?_⟩)
        rw [join_append hxs hznil, qualify, if_neg (join_ne_empty hxs hxnil)]

/-- Of a name joined from two lists the namespace before the second is the name of the first. -/
theorem namespaceOf_join_append {xs ys : List String} (hxs : ∀ c ∈ xs, IsComponent c)
    (hne : ys ≠ []) : namespaceOf (join (xs ++ ys)) (join ys) = join xs := by
  rw [join_append hxs hne, namespaceOf_qualify]

/--
**The tests on names are the tests on lists of components.** For names joined from components, the
test for a suffix holds just when the one list is a suffix of the other, the test for a scope just
when the one is a prefix of the other, and the namespace before some last components is the name of
the components before them. Components may repeat or be parts of one another, and there may be none
except where last components are asked for.
-/
theorem tests_compare_components (xs ys : List String) (hxs : ∀ c ∈ xs, IsComponent c)
    (hys : ∀ c ∈ ys, IsComponent c) :
    (ys ≠ [] → (hasComponentSuffix (join xs) (join ys) = true ↔ ys <:+ xs)) ∧
      (isScopePrefix (join xs) (join ys) = true ↔ xs <+: ys) ∧
      (ys ≠ [] → namespaceOf (join (xs ++ ys)) (join ys) = join xs) :=
  ⟨hasComponentSuffix_join_iff hxs hys, isScopePrefix_join_iff hxs hys,
    namespaceOf_join_append hxs⟩

/-- `ab.a` ends with the component `a` and is no scope of it, though `a` begins `ab`. -/
theorem tests_compare_ab_a :
    (∀ c ∈ ["ab", "a"], IsComponent c) ∧ (∀ c ∈ ["a"], IsComponent c) ∧
      hasComponentSuffix "ab.a" "a" = true ∧ isScopePrefix "ab.a" "a" = false ∧
      namespaceOf "ab.a.a" "a" = "ab.a" := by
  have hxs : ∀ c ∈ ["ab", "a"], IsComponent c := by decide
  have hys : ∀ c ∈ ["a"], IsComponent c := by decide
  obtain ⟨hsuffix, hscope, hnamespace⟩ := tests_compare_components ["ab", "a"] ["a"] hxs hys
  have hnot : isScopePrefix "ab.a" "a" ≠ true := fun h => absurd (hscope.1 h) (by decide)
  exact ⟨hxs, hys, (hsuffix (by simp)).2 (by decide), by simpa using hnot, hnamespace (by simp)⟩

end SchemaGraph.Name
