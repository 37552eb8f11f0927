import SchemaGraph.Proofs.Binding.Unambiguous
import SchemaGraph.Proofs.Graph.WholeDocument
/-!
# Full names as fragments of selections

A fragment matches each declared name that ends with it. So the full name of an entity matches that
entity, and each other one whose longer name ends with a dot and this name.
`LoadedGraph.matchFragment_name` says what comes of it: the name selects its entity just when there
is no such other one, and otherwise the fragment is refused with all of them as candidates.
-/

namespace SchemaGraph

namespace Name

/-- The name is something, a dot and the other name. -/
def Extends (qualified suffix : String) : Prop :=
  ∃ before, qualified = before ++ "." ++ suffix

theorem Extends.length_lt {qualified suffix : String} (h : Extends qualified suffix) :
    suffix.length < qualified.length := by
  obtain ⟨before, rfl⟩ := h
  have hdot : ".".length = 1 := rfl
  rw [String.length_append, String.length_append]
  omega

/-- What ends with a name is that name or extends it. -/
theorem hasComponentSuffix_iff_extends {qualified suffix : String} :
    hasComponentSuffix qualified suffix = true ↔ qualified = suffix ∨ Extends qualified suffix := by
  constructor
  · intro h
    exact (eq_or_eq_of_hasComponentSuffix h).imp_right fun heq => ⟨_, heq⟩
  · unfold hasComponentSuffix
    rintro (rfl | ⟨before, rfl⟩)
    · simp
    · have hsuffix : suffix.toList.isSuffixOf? (before ++ "." ++ suffix).toList =
          some (before.toList ++ ['.']) := by
        rw [List.isSuffixOf?_eq_some_iff_append_eq]
        simp
      rw [hsuffix]
      simp

end Name

namespace Registry

variable {r : Registry}

/-- The names of the entities with a property. -/
theorem mem_names_filter (hr : r.Indexed) {p : Entity → Bool} {name : String} :
    name ∈ (r.all.filter p).map (·.qualifiedName) ↔ ∃ e, r.get? name = some e ∧ p e = true := by
  unfold all
  simp only [List.mem_map, List.mem_filter, Table.mem_values]
  constructor
  · rintro ⟨e, ⟨⟨key, hkey⟩, hp⟩, rfl⟩
    exact ⟨e, (hr.stored hkey).symm ▸ hkey, hp⟩
  · rintro ⟨e, he, hp⟩
    exact ⟨e, ⟨⟨name, he⟩, hp⟩, hr.stored he⟩

/-- The names of the entities with a property are sorted. -/
theorem names_filter_sorted (hr : r.Indexed) (p : Entity → Bool) :
    ((r.all.filter p).map (·.qualifiedName)).Pairwise (· < ·) := by
  have hkeys : r.all.map (·.qualifiedName) = r.entities.keys := by
    unfold all Table.values Table.keys
    rw [List.map_map]
    exact List.map_congr_left fun e he => hr.stored ((r.entities.mem_entries _ _).1 he)
  have hsublist : ((r.all.filter p).map (·.qualifiedName)).Sublist
      (r.all.map (·.qualifiedName)) :=
    List.filter_sublist.map Entity.qualifiedName
  rw [hkeys] at hsublist
  exact r.entities.keys_sorted.sublist hsublist

/-- An entity that is no placeholder has the name. -/
def IsDeclared (r : Registry) (name : String) : Prop :=
  ∃ e, r.get? name = some e ∧ e.kind ≠ .missing

/-- The names of the declared entities. -/
def declaredNames (r : Registry) : List String :=
  (r.all.filter (·.kind ≠ .missing)).map (·.qualifiedName)

theorem mem_declaredNames (hr : r.Indexed) {name : String} :
    name ∈ r.declaredNames ↔ r.IsDeclared name := by
  unfold declaredNames IsDeclared
  rw [mem_names_filter hr]
  simp only [decide_eq_true_eq]

/-- The names of the declared entities are sorted. -/
theorem declaredNames_sorted (hr : r.Indexed) : r.declaredNames.Pairwise (· < ·) :=
  names_filter_sorted hr _

/-- A declared name matches what ends with it, so that no other way of matching is tried. -/
theorem matching_of_isDeclared (hr : r.Indexed) {name : String} (hname : r.IsDeclared name) :
    r.matching name = r.declaredNames.filter fun q => Name.hasComponentSuffix q name := by
  have hself : name ∈ r.declaredNames.filter fun q => Name.hasComponentSuffix q name :=
    List.mem_filter.2
      ⟨(mem_declaredNames hr).2 hname, Name.hasComponentSuffix_iff_extends.2 (.inl rfl)⟩
  unfold matching
  dsimp only
  split
  · rename_i hnil
    change (r.declaredNames.filter fun q => Name.hasComponentSuffix q name) = [] at hnil
    rw [hnil] at hself
    cases hself
  · rfl

/-- What a declared name matches, sorted, and that it selects its entity if this is all. -/
theorem matchFragment_of_isDeclared (hr : r.Indexed) {name : String} (hname : r.IsDeclared name) :
    ∃ found, found.Pairwise (· < ·) ∧
      (∀ q, q ∈ found ↔ r.IsDeclared q ∧ (q = name ∨ Name.Extends q name)) ∧
      r.matchFragment name = if found = [name] then .ok name else .error ⟨name, found⟩ := by
  have hmem (q : String) : q ∈ r.matching name ↔
      r.IsDeclared q ∧ (q = name ∨ Name.Extends q name) := by
    rw [matching_of_isDeclared hr hname, List.mem_filter, mem_declaredNames hr,
      Name.hasComponentSuffix_iff_extends]
  refine ⟨r.matching name, ?_, hmem, ?_⟩
  · rw [matching_of_isDeclared hr hname]
    exact (declaredNames_sorted hr).filter _
  · have hself : name ∈ r.matching name := (hmem name).2 ⟨hname, .inl rfl⟩
    unfold matchFragment
    split
    · rename_i only heq
      rw [heq] at hself ⊢
      rw [List.mem_singleton.1 hself, if_pos rfl]
    · rename_i hmany
      rw [if_neg fun heq => hmany name heq]

end Registry

namespace LoadedGraph

/--
**The full name of an entity selects it, unless it ends the name of another one.** In a loaded
graph, let an entity be declared. As a fragment its name selects this entity just when no declared
name consists of something, a dot and this name, whatever else shares its short name or its last
components. Where there are such names, the fragment is refused, and the candidates are the entity
and all of them, sorted.
-/
theorem matchFragment_name {loader : Loader} {options : RunOptions} {renderer : Renderer}
    {root : String} {g : LoadedGraph} (h : load loader options renderer root = .ok g) {e : Entity}
    (he : e ∈ g.registry.all) (hkind : e.kind ≠ .missing) :
    (g.registry.matchFragment e.qualifiedName = .ok e.qualifiedName ↔
      ∀ q, g.registry.IsDeclared q → ¬ Name.Extends q e.qualifiedName) ∧
    ((∃ q, g.registry.IsDeclared q ∧ Name.Extends q e.qualifiedName) →
      ∃ candidates, g.registry.matchFragment e.qualifiedName =
          .error ⟨e.qualifiedName, candidates⟩ ∧
        candidates.Pairwise (· < ·) ∧
        ∀ q, q ∈ candidates ↔ g.registry.IsDeclared q ∧
          (q = e.qualifiedName ∨ Name.Extends q e.qualifiedName)) := by
  have hindexed := (coherent_registry h).indexed
  obtain ⟨key, hkey⟩ := (Table.mem_values _ _).1 he
  have hname : g.registry.IsDeclared e.qualifiedName :=
    ⟨e, (hindexed.stored hkey).symm ▸ hkey, hkind⟩
  obtain ⟨found, hsorted, hmem, hmatch⟩ := Registry.matchFragment_of_isDeclared hindexed hname
  -- Another name found would have to be the name itself if that were all.
  have hother {q : String} (hq : g.registry.IsDeclared q)
      (hextends : Name.Extends q e.qualifiedName) : found ≠ [e.qualifiedName] := by
    intro hone
    have hqmem := (hmem q).2 ⟨hq, .inr hextends⟩
    rw [hone] at hqmem
    have hlength := hextends.length_lt
    rw [List.mem_singleton.1 hqmem] at hlength
    exact Nat.lt_irrefl _ hlength
  rw [hmatch]
  refine ⟨⟨fun hok q hq hextends => ?_, fun hnone => ?_⟩, fun ⟨q, hq, hextends⟩ => ?_⟩
  · rw [if_neg (hother hq hextends)] at hok
    cases hok
  · refine if_pos (eq_singleton_of_nodup (hsorted.imp KeyOrder.ne_of_lt) fun q => ?_)
    rw [hmem]
    constructor
    · rintro ⟨hq, heq | hextends⟩
      · exact heq
      · exact absurd hextends (hnone q hq)
    · rintro rfl
      exact ⟨hname, .inl rfl⟩
  · exact ⟨found, if_neg (hother hq hextends), hsorted, hmem⟩

/-- Three messages of one short name, two of them inside others. -/
def shortNameTexts : Table String String :=
  .ofList [("a", "message C\x7b\x7dmessage P\x7bmessage C\x7b\x7d\x7d" ++
    "message PP\x7bmessage C\x7b\x7d\x7d")]

/-- The name of a message inside another one selects that message. -/
theorem matchFragment_shortNameTexts : ∃ (g : LoadedGraph) (e : Entity),
    load (.ofTable shortNameTexts) ⟨true, true⟩ Dot.renderEntity "a" = .ok g ∧
      e ∈ g.registry.all ∧ e.kind ≠ .missing ∧ e.qualifiedName = "P.C" ∧
      g.registry.declaredNames = ["C", "P", "P.C", "PP", "PP.C"] ∧
      g.registry.matchFragment e.qualifiedName = .ok e.qualifiedName := by
  have hloaded : ((load (.ofTable shortNameTexts) ⟨true, true⟩ Dot.renderEntity "a").toOption.any
      fun g => decide (g.registry.declaredNames = ["C", "P", "P.C", "PP", "PP.C"]) &&
        g.registry.all.any fun e => decide (e.kind ≠ .missing ∧ e.qualifiedName = "P.C")) =
          true := by
    decide +kernel
  obtain ⟨g, hload, hg⟩ := exists_ok_of_any hloaded
  obtain ⟨hnames, hentity⟩ := Bool.and_eq_true_iff.1 hg
  have hnames := of_decide_eq_true hnames
  obtain ⟨e, he, hentity⟩ := List.any_eq_true.1 hentity
  obtain ⟨hkind, hname⟩ := of_decide_eq_true hentity
  refine ⟨g, e, hload, he, hkind, hname, hnames, (matchFragment_name hload he hkind).1.2 ?_⟩
  intro q hq hextends
  have hmem := (Registry.mem_declaredNames (coherent_registry hload).indexed).2 hq
  have hends : ∀ q ∈ ["C", "P", "P.C", "PP", "PP.C"],
      Name.hasComponentSuffix q "P.C" = true → q = "P.C" := by decide
  rw [hnames] at hmem
  rw [hname] at hextends
  have hlength := hextends.length_lt
  rw [hends q hmem (Name.hasComponentSuffix_iff_extends.2 (.inr hextends))] at hlength
  exact Nat.lt_irrefl _ hlength

/-- The name of the message inside no other one is refused. -/
theorem matchFragment_outerName : ∃ (g : LoadedGraph) (e : Entity),
    load (.ofTable shortNameTexts) ⟨true, true⟩ Dot.renderEntity "a" = .ok g ∧
      e ∈ g.registry.all ∧ e.kind ≠ .missing ∧ e.qualifiedName = "C" ∧
      g.registry.matchFragment e.qualifiedName ≠ .ok e.qualifiedName := by
  have hloaded : ((load (.ofTable shortNameTexts) ⟨true, true⟩ Dot.renderEntity "a").toOption.any
      fun g => !(g.registry.matchFragment "C").isOk &&
        g.registry.all.any fun e => decide (e.kind ≠ .missing ∧ e.qualifiedName = "C")) = true := by
    decide +kernel
  obtain ⟨g, hload, hg⟩ := exists_ok_of_any hloaded
  obtain ⟨hrefused, hentity⟩ := Bool.and_eq_true_iff.1 hg
  obtain ⟨e, he, hentity⟩ := List.any_eq_true.1 hentity
  obtain ⟨hkind, hname⟩ := of_decide_eq_true hentity
  refine ⟨g, e, hload, he, hkind, hname, fun hok => ?_⟩
  rw [hname] at hok
  rw [hok] at hrefused
  cases hrefused

end LoadedGraph
end SchemaGraph
