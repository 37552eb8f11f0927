import SchemaGraph.Proofs.Graph.Methods
import SchemaGraph.Proofs.Graph.MissingTypes
import SchemaGraph.Proofs.Graph.Readings
import SchemaGraph.Proofs.Import.Reordering
/-!
# The graph depends on the files reached only

From another root, or with the import statements in another order, the same files are declared and
built in another order. Then node identifiers get other numbers, short names list their candidates
in another order, and placeholders get other names. `LoadedGraph.Coincides` says that two graphs are
the same apart from this, and `load_coincides` that graphs of the same files are, if no declaration
is rejected. They are not if a declaration has the name of a placeholder
(`load_placeholderTexts`).
-/

namespace SchemaGraph

/-- What has been declared under a qualified name. -/
def Registry.declaration? (r : Registry) (q : String) : Option Entity :=
  ((r.get? q).filter (·.kind ≠ .missing)).map Entity.declaration

/-- What has been declared remains. -/
theorem Registry.Populates.declaration?_eq {r r' : Registry} {showMissing : Bool}
    (h : r.Populates showMissing r') (q : String) :
    r'.declaration? q = (r.get? q).map Entity.declaration := by
  unfold declaration?
  cases hq : r.get? q with
  | none =>
    cases hq' : r'.get? q with
    | none => rfl
    | some e' => simp [h.grows.added hq hq']
  | some e =>
    obtain ⟨e', hq', hundrawn⟩ := h.grows.kept hq
    have hkind : e'.kind ≠ .missing := by
      rw [Entity.kind_eq_of_undrawn hundrawn]
      exact h.declared hq
    rw [hq', Option.filter_some, if_pos (decide_eq_true hkind)]
    exact congrArg some (Entity.declaration_eq_of_undrawn hundrawn)

namespace LoadedGraph

/-- Both ends of every edge that the graph records are read, each in one way. -/
def EdgesRead (g : LoadedGraph) : Prop :=
  ∀ key targets id n, g.graph.edges.get? key = some targets → targets.get? id = some n →
    ∃ source target, (∀ m, g.registry.Reads key.owner m ↔ m = source) ∧
      (∀ m, g.registry.Reads id m ↔ m = target) ∧
      g.graph.Edge g.registry source key.field target n

/-- The graphs are the same, apart from node identifiers: the same has been declared, the units have
the same flags, and all edges are read as the same ones. -/
structure Coincides (g g' : LoadedGraph) : Prop where
  declarations : ∀ q, g.registry.declaration? q = g'.registry.declaration? q
  flags : ∀ id, (g.units.get? id).map (fun unit => (unit.missing, unit.weak)) =
    (g'.units.get? id).map fun unit => (unit.missing, unit.weak)
  edges : ∀ source field target n, g.graph.Edge g.registry source field target n ↔
    g'.graph.Edge g'.registry source field target n
  read : g.EdgesRead
  read' : g'.EdgesRead

variable {loader loader' : Loader} {options : RunOptions} {renderer renderer' : Renderer}
  {root root' : String} {g g' : LoadedGraph} {walk walk' : Walk}
  {entered entered' : List (String × SchemaFile)}

/-- What a build adds to the declarations of a walk are placeholders. -/
theorem populates_buildOf (h : Walk.Traverses (.start .empty) walk entered) (renderer : Renderer)
    (hspares : options.showMissingTypes = true → walk.registry.SparesPlaceholders) :
    walk.registry.Populates options.showMissingTypes
      (buildOf renderer options walk).symbols.registry := by
  have hregistry := h.of_start.2
  have hsymbols := (tracks_buildOf h renderer options).symbols
  refine ⟨hregistry ▸ Registry.coherent_declareFiles entered, hsymbols.coherent, hsymbols.grows,
    fun hget => ?_, places_buildOf h renderer options.allowMissingImports options.showMissingTypes,
    hspares⟩
  rw [hregistry] at hget
  exact Registry.kind_ne_missing_of_declareFiles hget

/-- Both ends of every edge of a loaded graph are read. -/
theorem edgesRead_of_load (h : load loader options renderer root = .ok g)
    (hrun : Walk.run loader options root .empty = (.ok (), walk))
    (hspares : options.showMissingTypes = true → walk.registry.SparesPlaceholders) :
    g.EdgesRead := by
  obtain ⟨entered, htraverses, -, hsymbols, hgraph, -⟩ := load_built h hrun
  have hpopulates := populates_buildOf htraverses renderer hspares
  have hids := hpopulates.coherent'.identified
  intro key targets id n hget hn
  unfold registry
  rw [hgraph] at hget ⊢
  rw [hsymbols]
  obtain ⟨source, target, hsource, htarget, hedge⟩ :=
    (tracks_buildOf htraverses renderer options).exists_edge hpopulates hget hn
  refine ⟨source, target, fun m => ⟨fun hm => hm.meaning_eq hids hsource, ?_⟩,
    fun m => ⟨fun hm => hm.meaning_eq hids htarget, ?_⟩, hedge⟩
  · rintro rfl
    exact hsource
  · rintro rfl
    exact htarget

/--
**The graph depends on the files reached only.** Of two loads whose walks reach the same files, from
whatever roots and with the import statements in whatever order, let one reject no declaration. Then
neither does the other, and their graphs are the same apart from node identifiers, unless a
declaration is named like a placeholder. The bounds of a table of texts suffice for any root
(`Loader.Lists.suffices`), and so do those of a file tree (`ImportLookup.suffices_loader`).
-/
theorem load_coincides (hsuffices : loader.Suffices root) (hsuffices' : loader'.Suffices root')
    (h : load loader options renderer root = .ok g)
    (h' : load loader' options renderer' root' = .ok g')
    (hrun : Walk.run loader options root .empty = (.ok (), walk))
    (hrun' : Walk.run loader' options root' .empty = (.ok (), walk'))
    (hcorresponds : walk.Corresponds walk') (hkept : walk.duplicates = [])
    (hspares : options.showMissingTypes = true → walk.registry.SparesPlaceholders) :
    walk'.duplicates = [] ∧ g.Coincides g' := by
  obtain ⟨entered, htraverses, hrejected, hsymbols, hgraph, -, hunits, -⟩ := load_built h hrun
  obtain ⟨entered', htraverses', hrejected', hsymbols', hgraph', -, hunits', -⟩ :=
    load_built h' hrun'
  obtain ⟨hlost', hwinners⟩ :=
    hcorresponds.winners htraverses htraverses' (by rw [← hrejected, hkept]; rfl)
  have halike := Walk.alike_of_winners htraverses htraverses' hwinners
  have hspares' : options.showMissingTypes = true → walk'.registry.SparesPlaceholders :=
    fun hshow q hq => hspares hshow q ((halike.isSome_iff q).2 hq)
  have hpopulates := populates_buildOf htraverses renderer hspares
  have hpopulates' := populates_buildOf htraverses' renderer' hspares'
  refine ⟨?_, fun q => ?_, fun id => ?_, fun source field target n => ?_,
    edgesRead_of_load h hrun hspares, edgesRead_of_load h' hrun' hspares'⟩
  · rw [hlost', List.map_eq_nil_iff] at hrejected'
    exact hrejected'
  · unfold registry
    rw [hsymbols, hsymbols', hpopulates.declaration?_eq, hpopulates'.declaration?_eq, halike]
  · rw [hunits, hunits']
    exact hcorresponds.flags hsuffices hsuffices' hrun hrun' id
  · unfold registry
    rw [hgraph, hgraph', hsymbols, hsymbols',
      (tracks_buildOf htraverses renderer options).edge_iff hpopulates,
      (tracks_buildOf htraverses' renderer' options).edge_iff hpopulates',
      (hwinners.flatMap_right _).countP_eq]
    -- Only what the references mean could still differ.
    have hmeans : Reference.means walk.registry options.showMissingTypes source field target =
        Reference.means walk'.registry options.showMissingTypes source field target := by
      funext ref
      unfold Reference.means
      rw [halike.meaning?_eq hpopulates.coherent.indexed hpopulates'.coherent.indexed]
    rw [hmeans]

/-- Three units of which the first imports the others, which import it. The import statements of the
first one are given. -/
def textsAround (statements : String) : Table String String :=
  .ofList
    [("m", statements), ("a", "import \"m\";message A\x7bB x=1;\x7d"),
      ("b", "import \"m\";import weak \"c\";message B\x7bA x=1;Y y=2;\x7d")]

def hubTexts : Table String String :=
  textsAround "import \"a\";import \"b\";"

/-- The same with the statements turned round. -/
def turnedTexts : Table String String :=
  textsAround "import \"b\";import \"a\";"

/-- The first units of both read the same up to the order of their import statements. -/
theorem readsAlike_hubTexts {name : String} (h : name ∈ ["m", "a", "b", "c"]) :
    Walk.ReadsAlike (.ofTable hubTexts) (.ofTable turnedTexts) name := by
  have hparsed : ((parseSchema "m" "import \"a\";import \"b\";").toOption.any fun file =>
      (parseSchema "m" "import \"b\";import \"a\";").toOption.any fun file' =>
        file.elements.isEmpty && file'.elements.isEmpty &&
          file.packageName == file'.packageName &&
          decide ((file.imports.map fun s => (s.path, s.modifier)).Perm
            (file'.imports.map fun s => (s.path, s.modifier)))) = true := by
    decide +kernel
  simp only [List.mem_cons, List.not_mem_nil, or_false] at h
  rcases h with rfl | rfl | rfl | rfl
  · obtain ⟨file, hfile, hparsed'⟩ := exists_ok_of_any hparsed
    obtain ⟨file', hfile', hfiles⟩ := exists_ok_of_any hparsed'
    simp only [Bool.and_eq_true, List.isEmpty_iff, beq_iff_eq, decide_eq_true_eq] at hfiles
    obtain ⟨⟨⟨hnone, hnone'⟩, hpackage⟩, himports⟩ := hfiles
    have hreads : Walk.Reads (.ofTable hubTexts) "m" file := ⟨_, rfl, hfile⟩
    have hreads' : Walk.Reads (.ofTable turnedTexts) "m" file' := ⟨_, rfl, hfile'⟩
    exact .of_reads hreads hreads' (.of_elements hpackage (hnone.trans hnone'.symm) himports)
  · exact .of_textOf_eq rfl
  · exact .of_textOf_eq rfl
  · exact .of_textOf_eq rfl

/-- The walks from different units of them correspond. -/
theorem corresponds_hubTexts
    (hrun : Walk.run (.ofTable hubTexts) ⟨true, true⟩ "m" .empty = (.ok (), walk))
    (hrun' : Walk.run (.ofTable turnedTexts) ⟨true, true⟩ "b" .empty = (.ok (), walk'))
    (hkeys : walk.units.keys = walk'.units.keys) : walk.Corresponds walk' := by
  have hnames : ∀ name ∈ ["m", "a", "b", "c"], unitIdentifier name = name := by decide
  have hreach {name : String} (h : Walk.Reach (.ofTable hubTexts) "m" name) :
      name ∈ ["m", "a", "b", "c"] :=
    h.mem_of_closed (by simp) (by decide +kernel)
  have hreach' {name : String} (h : Walk.Reach (.ofTable turnedTexts) "b" name) :
      name ∈ ["m", "a", "b", "c"] :=
    h.mem_of_closed (by simp) (by decide +kernel)
  refine .of_loaders hrun hrun' (Table.contains_eq_of_keys_eq hkeys)
    (fun p q hp hq heq => ?_) fun name hname => readsAlike_hubTexts (hname.elim hreach hreach')
  rwa [hnames p (hreach hp), hnames q (hreach' hq)] at heq

/-- Loaded from the first unit, and from the last one with the statements turned round: `B` is
declared before `A` in the second graph, and its edges are the same. -/
theorem load_hubTexts : ∃ g g' walk walk',
    load (.ofTable hubTexts) ⟨true, true⟩ (fun _ _ => "") "m" = .ok g ∧
      load (.ofTable turnedTexts) ⟨true, true⟩ (fun _ _ => "") "b" = .ok g' ∧
      Walk.run (.ofTable hubTexts) ⟨true, true⟩ "m" .empty = (.ok (), walk) ∧
      Walk.run (.ofTable turnedTexts) ⟨true, true⟩ "b" .empty = (.ok (), walk') ∧
      walk.Corresponds walk' ∧ walk.duplicates = [] ∧ walk.registry.SparesPlaceholders ∧
      walk'.duplicates = [] ∧ g.Coincides g' := by
  have hloaded : ((load (.ofTable hubTexts) ⟨true, true⟩ (fun _ _ => "") "m").toOption.any fun _ =>
      (load (.ofTable turnedTexts) ⟨true, true⟩ (fun _ _ => "") "b").toOption.any fun _ => true) =
      true := by
    decide +kernel
  have hwalked :
      (Walk.run (.ofTable hubTexts) ⟨true, true⟩ "m" .empty).2.units.keys =
          (Walk.run (.ofTable turnedTexts) ⟨true, true⟩ "b" .empty).2.units.keys ∧
        (Walk.run (.ofTable hubTexts) ⟨true, true⟩ "m" .empty).2.duplicates.isEmpty = true ∧
        (Walk.run (.ofTable hubTexts) ⟨true, true⟩ "m" .empty).2.registry.entities.keys =
          ["A", "B"] := by
    decide +kernel
  obtain ⟨g, hload, hloaded'⟩ := exists_ok_of_any hloaded
  obtain ⟨g', hload', -⟩ := exists_ok_of_any hloaded'
  obtain ⟨walk, hrun, -⟩ := load_eq_ok hload
  obtain ⟨walk', hrun', -⟩ := load_eq_ok hload'
  rw [hrun, hrun'] at hwalked
  obtain ⟨hkeys, hkept, hnames⟩ := hwalked
  rw [List.isEmpty_iff] at hkept
  have hspares : walk.registry.SparesPlaceholders := by
    rw [Registry.sparesPlaceholders_iff, hnames]
    decide
  have hcorresponds := corresponds_hubTexts hrun hrun' hkeys
  exact ⟨g, g', walk, walk', hload, hload', hrun, hrun', hcorresponds, hkept, hspares,
    load_coincides ((Loader.lists_ofTable _).suffices _) ((Loader.lists_ofTable _).suffices _)
      hload hload' hrun hrun' hcorresponds hkept fun _ => hspares⟩

/-- Two units that import each other. The message of the first one names a type that neither
declares, and the service of the second one is named like the placeholder for it in case the first
unit is the root. -/
def placeholderTexts : Table String String :=
  .ofList
    [("a", "import \"b\";message Foo\x7bBar x=1;\x7d"),
      ("b", "package missing.Foo_100;import \"a\";service Bar\x7b\x7d")]

theorem corresponds_placeholderTexts
    (hrun : Walk.run (.ofTable placeholderTexts) ⟨false, true⟩ "a" .empty = (.ok (), walk))
    (hrun' : Walk.run (.ofTable placeholderTexts) ⟨false, true⟩ "b" .empty = (.ok (), walk'))
    (hkeys : walk.units.keys = walk'.units.keys) : walk.Corresponds walk' := by
  have hnames : ∀ name ∈ ["a", "b"], unitIdentifier name = name := by decide
  have hreach {root name : String} (hroot : root ∈ ["a", "b"])
      (h : Walk.Reach (.ofTable placeholderTexts) root name) : name ∈ ["a", "b"] :=
    h.mem_of_closed hroot (by decide +kernel)
  refine .of_loaders hrun hrun' (Table.contains_eq_of_keys_eq hkeys)
    (fun p q hp hq heq => ?_) fun name _ => .of_textOf_eq rfl
  rwa [hnames p (hreach (by simp) hp), hnames q (hreach (by simp) hq)] at heq

/-- From the first unit the type leads to the service, and from the second one to a placeholder. -/
theorem load_placeholderTexts : ∃ g g' walk walk',
    load (.ofTable placeholderTexts) ⟨false, true⟩ (fun _ _ => "") "a" = .ok g ∧
      load (.ofTable placeholderTexts) ⟨false, true⟩ (fun _ _ => "") "b" = .ok g' ∧
      Walk.run (.ofTable placeholderTexts) ⟨false, true⟩ "a" .empty = (.ok (), walk) ∧
      Walk.run (.ofTable placeholderTexts) ⟨false, true⟩ "b" .empty = (.ok (), walk') ∧
      walk.Corresponds walk' ∧ walk.duplicates = [] ∧ walk'.duplicates = [] ∧
      ¬ g.Coincides g' := by
  have hloaded : ((load (.ofTable placeholderTexts) ⟨false, true⟩ (fun _ _ => "") "a").toOption.any
      fun g => (load (.ofTable placeholderTexts) ⟨false, true⟩ (fun _ _ => "") "b").toOption.any
        fun g' =>
          (g.registry.get? "Foo").map (fun e => (e.kind, e.nodeId)) == some (.message, "Foo_100") &&
            (g.registry.get? "missing.Foo_100.Bar").map (fun e => (e.kind, e.nodeId)) ==
              some (.service, "Bar_101") &&
            (g.graph.edges.get? ⟨"Foo_100", "x"⟩).bind (·.get? "Bar_101") == some 1 &&
            (g'.registry.get? "Foo").map (·.nodeId) == some "Foo_101" &&
            (g'.registry.get? "missing.Foo_100.Bar").map (·.nodeId) == some "Bar_100" &&
            (g'.graph.edges.get? ⟨"Foo_101", "x"⟩).bind (·.get? "Bar_100") == none) = true := by
    decide +kernel
  have hwalked :
      (Walk.run (.ofTable placeholderTexts) ⟨false, true⟩ "a" .empty).2.units.keys =
          (Walk.run (.ofTable placeholderTexts) ⟨false, true⟩ "b" .empty).2.units.keys ∧
        (Walk.run (.ofTable placeholderTexts) ⟨false, true⟩ "a" .empty).2.duplicates.isEmpty =
          true ∧
        (Walk.run (.ofTable placeholderTexts) ⟨false, true⟩ "b" .empty).2.duplicates.isEmpty =
          true := by
    decide +kernel
  obtain ⟨g, hload, hloaded'⟩ := exists_ok_of_any hloaded
  obtain ⟨g', hload', hgraphs⟩ := exists_ok_of_any hloaded'
  obtain ⟨walk, hrun, -⟩ := load_eq_ok hload
  obtain ⟨walk', hrun', -⟩ := load_eq_ok hload'
  rw [hrun, hrun'] at hwalked
  simp only [Bool.and_eq_true, List.isEmpty_iff, beq_iff_eq, Option.map_eq_some_iff,
    Option.bind_eq_some_iff, Prod.mk.injEq] at hwalked hgraphs
  obtain ⟨⟨⟨⟨⟨⟨foo, hfoo, hfooKind, hfooId⟩, bar, hbar, hbarKind, hbarId⟩, targets, htargets,
    hone⟩, foo', hfoo', hfooId'⟩, bar', hbar', hbarId'⟩, hnone⟩ := hgraphs
  obtain ⟨hkeys, hkept, hkept'⟩ := hwalked
  refine ⟨g, g', walk, walk', hload, hload', hrun, hrun',
    corresponds_placeholderTexts hrun hrun' hkeys, hkept, hkept', fun hcoincides => ?_⟩
  have hedge : g.graph.Edge g.registry (.declared "Foo") "x"
      (.declared "missing.Foo_100.Bar") 1 :=
    ⟨"Foo_100", "Bar_101", targets, ⟨foo, hfoo, by rw [hfooKind]; decide, hfooId⟩,
      ⟨bar, hbar, by rw [hbarKind]; decide, hbarId⟩, htargets, hone⟩
  obtain ⟨ownerId, id, targets', ⟨e, he, -, rfl⟩, ⟨t, ht, -, rfl⟩, htargets', hone'⟩ :=
    (hcoincides.edges _ _ _ _).1 hedge
  rw [he] at hfoo'
  rw [ht] at hbar'
  rw [Option.some.inj hfoo', hfooId'] at htargets'
  rw [Option.some.inj hbar', hbarId'] at hone'
  simp [htargets', hone'] at hnone

end LoadedGraph
end SchemaGraph
