import SchemaGraph.Proofs.Binding.LexicalScope
/-!
# Bindings in declared registries are never ambiguous

Two candidates of one weight stand in scopes of one length around the place of the reference, and no
two such scopes have one length. For this the names need not be well formed: it is enough that the
qualified name of every entity is its short name in some scope, which declaring sees to
(`qualified_declareFiles`).
-/

namespace SchemaGraph

namespace Name

/-- Two scopes around one place that have one size are the same. -/
theorem eq_of_mem_scopesAround {scope p q : String} (hp : p ∈ scopesAround scope)
    (hq : q ∈ scopesAround scope) (hsize : p.utf8ByteSize = q.utf8ByteSize) : p = q := by
  have hpairwise := scopesAround_pairwise scope
  obtain ⟨inner, outer, hsplit⟩ := List.append_of_mem hp
  rw [hsplit, List.pairwise_append, List.pairwise_cons] at hpairwise
  rw [hsplit] at hq
  rcases List.mem_append.1 hq with hq | hq
  · exact eq_of_prefix_of_utf8ByteSize_le (hpairwise.2.2 q hq p List.mem_cons_self)
      (Nat.le_of_eq hsize.symm)
  · rcases List.mem_cons.1 hq with hq | hq
    · exact hq.symm
    · exact (eq_of_prefix_of_utf8ByteSize_le (hpairwise.2.1.1 q hq) (Nat.le_of_eq hsize)).symm

/-- What ends with a name is that name, or that name after its namespace and a dot. -/
theorem eq_or_eq_of_hasComponentSuffix {qualified suffix : String}
    (h : hasComponentSuffix qualified suffix = true) :
    qualified = suffix ∨ qualified = namespaceOf qualified suffix ++ "." ++ suffix := by
  unfold hasComponentSuffix at h
  rw [Bool.or_eq_true, decide_eq_true_eq] at h
  refine h.imp_right fun hends => ?_
  unfold namespaceOf
  split at hends
  · rename_i before hsuffix
    rw [hsuffix]
    rw [List.isSuffixOf?_eq_some_iff_append_eq] at hsuffix
    rw [decide_eq_true_eq] at hends
    obtain ⟨parent, rfl⟩ := List.getLast?_eq_some_iff.1 hends
    rw [← String.toList_inj, ← hsuffix]
    simp
  · cases hends

/-- Of two names that end with one reference the longer one has the longer namespace. -/
theorem eq_of_hasComponentSuffix {p q suffix scope : String}
    (hp : hasComponentSuffix p suffix = true) (hq : hasComponentSuffix q suffix = true)
    (hp' : isScopePrefix (namespaceOf p suffix) scope = true)
    (hq' : isScopePrefix (namespaceOf q suffix) scope = true)
    (hsize : p.utf8ByteSize = q.utf8ByteSize) : p = q := by
  rw [isScopePrefix_iff] at hp' hq'
  have hlong (parent : String) : (parent ++ "." ++ suffix).utf8ByteSize =
      parent.utf8ByteSize + 1 + suffix.utf8ByteSize := by
    rw [String.utf8ByteSize_append, String.utf8ByteSize_append]
    rfl
  rcases eq_or_eq_of_hasComponentSuffix hp with hp | hp <;>
    rcases eq_or_eq_of_hasComponentSuffix hq with hq | hq
  · rw [hp, hq]
  · rw [hp, hq, hlong] at hsize
    omega
  · rw [hp, hq, hlong] at hsize
    omega
  · have hscope : namespaceOf p suffix = namespaceOf q suffix := by
      refine eq_of_mem_scopesAround hp' hq' ?_
      rw [hp, hq, hlong, hlong] at hsize
      omega
    rw [hp, hq, hscope]

end Name

/-- Where each weight stands beside one name, there is at most one heaviest name. -/
theorem heaviest_cases {names : List (String × Nat)}
    (h : ∀ x ∈ names, ∀ y ∈ names, x.2 = y.2 → x.1 = y.1) :
    heaviest names = [] ∨ ∃ best, heaviest names = [best] := by
  have hall : ∀ p ∈ heaviest names, ∀ q ∈ heaviest names, p = q := by
    unfold heaviest
    intro p hp q hq
    obtain ⟨x, hx, rfl⟩ := List.mem_map.1 ((mem_sortDistinct _ _).1 hp)
    obtain ⟨y, hy, rfl⟩ := List.mem_map.1 ((mem_sortDistinct _ _).1 hq)
    obtain ⟨hx, hxbest⟩ := List.mem_filter.1 hx
    obtain ⟨hy, hybest⟩ := List.mem_filter.1 hy
    exact h x hx y hy ((of_decide_eq_true hxbest).trans (of_decide_eq_true hybest).symm)
  have hnodup : (heaviest names).Nodup := sortDistinct_nodup _
  rcases heq : heaviest names with _ | ⟨p, _ | ⟨q, rest⟩⟩
  · exact .inl rfl
  · exact .inr ⟨p, rfl⟩
  · rw [heq] at hall hnodup
    have hpq := hall p (by simp) q (by simp)
    simp [hpq] at hnodup

namespace Registry

/-- The qualified name of every entity is its short name in some scope. -/
def Qualified (r : Registry) : Prop :=
  ∀ q e, r.get? q = some e → ∃ scope, e.qualifiedName = Name.qualify scope e.name

theorem qualified_declareFiles (files : List (String × SchemaFile)) :
    (Registry.empty.declareFiles files).Qualified := by
  refine declareFiles_induction (P := Qualified) (fun d site name kind rpc hd q e he => ?_) files
    fun _ _ he => by simp at he
  rcases Declarations.declare_cases d site name kind rpc with ⟨-, -, hsame⟩ | ⟨-, -, hok⟩
  · rw [hsame, get?_nodeIdFor] at he
    exact hd q e he
  · rw [(declares_of_declare hok).get?] at he
    split at he
    · exact ⟨site.scope, by rw [← Option.some.inj he]⟩
    · rw [get?_nodeIdFor] at he
      exact hd q e he

/-- Of the candidates of one short name no two that enclose a place have one weight. -/
theorem enclosing_inj {r : Registry} (hr : r.Indexed) (hqualified : r.Qualified)
    (shortName scope name : String) :
    ∀ x ∈ enclosing (r.typeCandidates shortName) scope name,
      ∀ y ∈ enclosing (r.typeCandidates shortName) scope name, x.2 = y.2 → x.1 = y.1 := by
  intro x hx y hy hweight
  unfold enclosing at hx hy
  split at hx
  · rename_i hdotted
    rw [if_pos hdotted] at hy
    obtain ⟨e, he, rfl⟩ := List.mem_map.1 hx
    obtain ⟨f, hf, rfl⟩ := List.mem_map.1 hy
    have he' := (List.mem_filter.1 he).2
    have hf' := (List.mem_filter.1 hf).2
    rw [Bool.and_eq_true] at he' hf'
    exact Name.eq_of_hasComponentSuffix he'.1 hf'.1 he'.2 hf'.2 hweight
  · rename_i hbare
    rw [if_neg hbare] at hy
    obtain ⟨e, he, rfl⟩ := List.mem_map.1 hx
    obtain ⟨f, hf, rfl⟩ := List.mem_map.1 hy
    obtain ⟨he, he'⟩ := List.mem_filter.1 he
    obtain ⟨hf, hf'⟩ := List.mem_filter.1 hf
    have hwhole {e : Entity} (he : e ∈ r.typeCandidates shortName) :
        e.qualifiedName = Name.qualify e.namespace shortName := by
      obtain ⟨htype, hname⟩ := (mem_typeCandidates hr shortName e).1 he
      obtain ⟨outer, hq⟩ := hqualified _ e (type?_eq_some.1 htype).1
      rw [Entity.namespace, hq, Name.namespaceOf_qualify, hname]
    -- The names differ in their namespaces only, and these are scopes around one place.
    have hnamespace := Name.eq_of_mem_scopesAround ((Name.isScopePrefix_iff _ _).1 he')
      ((Name.isScopePrefix_iff _ _).1 hf') hweight
    show e.qualifiedName = f.qualifiedName
    rw [hwhole he, hwhole hf, hnamespace]

/-- Binding a reference answers with an entity or with none, and is never ambiguous. -/
theorem exists_bind {r : Registry} (hr : r.Indexed) (hqualified : r.Qualified)
    (scope reference : String) : ∃ answer, r.bind scope reference = .ok answer := by
  unfold bind
  dsimp only
  split
  · exact ⟨_, rfl⟩
  · split
    · exact ⟨_, rfl⟩
    · exact ⟨_, rfl⟩
    · rcases heaviest_cases (enclosing_inj hr hqualified
          (Name.lastComponent ((Name.absolute? reference).getD reference)) scope
          ((Name.absolute? reference).getD reference)) with hnil | ⟨best, hbest⟩
      · simp only [hnil]
        exact ⟨_, rfl⟩
      · simp only [hbest]
        exact ⟨_, rfl⟩

/-- A reference inside a scope is answered: its type is a scalar, or a message or enum declared. -/
def Answers (r : Registry) (scope reference : String) : Prop :=
  Name.isScalar reference = true ∨ ∃ q, r.bind scope reference = .ok (some q)

instance (r : Registry) (scope reference : String) : Decidable (r.Answers scope reference) :=
  decidable_of_iff (Name.isScalar reference = true ∨
      (r.bind scope reference).toOption.join.isSome = true) <| or_congr_right <| by
    cases r.bind scope reference with
    | error e => simp [Except.toOption]
    | ok target => simp [Except.toOption, Option.isSome_iff_exists]

end Registry
end SchemaGraph
