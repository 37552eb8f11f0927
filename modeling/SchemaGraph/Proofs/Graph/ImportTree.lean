import SchemaGraph.Proofs.Dot.Imports
import SchemaGraph.Proofs.Import.Units
/-!
# The document of the imports

`LoadedGraph.renderImports` draws a node for each unit and an arrow for each import statement. The
nodes have names made from the identifiers of units, the arrows from the paths of statements. A path
that is the name of a file is the identifier of its unit, so that its arrow ends at a node
(`LoadedGraph.renderImports_importTree`). A path that is a schema text is not, and its arrow ends
where no node is.
-/

namespace SchemaGraph

/-- A filter that passes all that a member gives, or nothing of it, passes members. -/
theorem filter_flatMap_eq {α β : Type} {f : α → List β} {p : β → Bool} {q : α → Bool}
    (h : ∀ a, ∀ b ∈ f a, p b = q a) (l : List α) :
    (l.flatMap f).filter p = (l.filter q).flatMap f := by
  induction l with
  | nil => rfl
  | cons a l ih =>
    rw [List.flatMap_cons, List.filter_append, ih]
    cases hq : q a with
    | true =>
      have hall : (f a).filter p = f a := List.filter_eq_self.2 fun b hb => (h a b hb).trans hq
      rw [hall, List.filter_cons_of_pos hq, List.flatMap_cons]
    | false =>
      have hnone : (f a).filter p = [] := List.filter_eq_nil_iff.2 fun b hb => by
        simp [h a b hb, hq]
      rw [hnone, List.filter_cons_of_neg (by simp [hq]), List.nil_append]

namespace LoadedGraph

variable {loader : Loader} {options : RunOptions} {renderer : Renderer} {root : String}
  {g : LoadedGraph} {walk : Walk}

/-! ## The document -/

/-- The arrow of an import statement: the unit that imports, the path in the statement and the line
of the document. -/
structure DrawnImport where
  source : String
  path : String
  line : String

/-- The arrow runs from the node of the unit that imports to that of the unit which the path stands
for, and both nodes are among the given ones. -/
structure DrawnImport.Joins (a : DrawnImport) (nodes : List (String × String)) : Prop where
  source : a.source ∈ nodes.map (·.1)
  target : unitIdentifier a.path ∈ nodes.map (·.1)
  arrow : Dot.IsArrow (Dot.stableId a.source) (Dot.stableId (unitIdentifier a.path)) a.line

/-- `g.ImportTree files nodes arrows`: the document of the imports consists of the nodes, which are
lines under the identifiers of units, and of the arrows, where these are the files that have been
read. -/
structure ImportTree (g : LoadedGraph) (files : List (String × SchemaFile))
    (nodes : List (String × String)) (arrows : List DrawnImport) : Prop where
  document : g.renderImports = Dot.document (g.header (some selectImports)) (nodes.map (·.2))
    "imports" (arrows.map (·.line))
  /-- Each unit has one node. -/
  units : nodes.map (·.1) = g.units.keys
  node : ∀ n ∈ nodes, Dot.IsNode (Dot.stableId n.1) n.2
  /-- No two nodes share their name. -/
  ids : (nodes.map fun n => Dot.stableId n.1).Nodup
  /-- Each file has one arrow for each of its import statements, in their order. -/
  statements : ∀ file ∈ files, (arrows.filter (·.source = file.1)).map (·.path) =
    file.2.imports.map (·.path)
  /-- There are no other arrows. -/
  source : ∀ a ∈ arrows, a.source ∈ files.map (·.1)
  /-- Each arrow starts at the node of its file. -/
  start : ∀ a ∈ arrows, a.source ∈ nodes.map (·.1) ∧
    ∃ target, Dot.IsArrow (Dot.stableId a.source) target a.line

/-- The paths of the arrows of a file. -/
theorem ImportTree.paths {files : List (String × SchemaFile)} {nodes : List (String × String)}
    {arrows : List DrawnImport} (h : g.ImportTree files nodes arrows)
    {imports : List (String × List String)}
    (hfiles : files.map (fun file => (file.1, file.2.imports.map (·.path))) = imports)
    {id : String} {paths : List String} (hid : (id, paths) ∈ imports) :
    (arrows.filter (·.source = id)).map (·.path) = paths := by
  rw [← hfiles] at hid
  obtain ⟨file, hfile, heq⟩ := List.mem_map.1 hid
  obtain ⟨rfl, rfl⟩ := Prod.mk.inj heq
  exact h.statements file hfile

/-- Where one file has one import statement and the other one has none, there is one arrow. -/
theorem ImportTree.eq_singleton {files : List (String × SchemaFile)}
    {nodes : List (String × String)} {arrows : List DrawnImport}
    (h : g.ImportTree files nodes arrows) {id id' path : String}
    (hfiles : files.map (fun file => (file.1, file.2.imports.map (·.path))) =
      [(id', []), (id, [path])]) : ∃ a, arrows = [a] ∧ a.path = path := by
  have hnone := h.paths hfiles List.mem_cons_self
  have hone := h.paths hfiles (List.mem_cons_of_mem _ List.mem_cons_self)
  have hnames : files.map (·.1) = [id', id] := by
    have hfst := congrArg (List.map (·.1)) hfiles
    rwa [List.map_map] at hfst
  have hall : arrows.filter (·.source = id) = arrows := by
    refine List.filter_eq_self.2 fun a ha => decide_eq_true ?_
    have hsource := h.source a ha
    rw [hnames, List.mem_cons, List.mem_singleton] at hsource
    refine hsource.resolve_left fun heq => ?_
    have hmem : a ∈ arrows.filter (·.source = id') := List.mem_filter.2 ⟨ha, decide_eq_true heq⟩
    rw [List.map_eq_nil_iff.1 hnone] at hmem
    cases hmem
  rw [hall, List.map_eq_singleton_iff] at hone
  exact hone

/-- Units whose identifiers are listed have different names in the document if those of the list
have. -/
theorem injOn_stableId {units : UnitTable} {ids : List String} (hkeys : units.keys = ids)
    (hdistinct : (ids.map Dot.stableId).Nodup) : ∀ p q, units.contains p → units.contains q →
      Dot.stableId p = Dot.stableId q → p = q := by
  intro p q hp hq
  have hp : p ∈ units.keys := (units.mem_keys p).2 hp
  have hq : q ∈ units.keys := (units.mem_keys q).2 hq
  rw [hkeys] at hp hq
  exact List.inj_on_of_nodup_map hdistinct hp hq

/-- The nodes of units, with their identifiers. -/
def importNodes (units : UnitTable) : List (String × String) :=
  units.entries.map fun e => (e.1, Dot.unitNode e.2)

/-- The arrows of a unit. -/
def importArrowsOf (units : UnitTable) (id : String) (unit : SourceUnit) : List DrawnImport :=
  unit.imports.map fun path => ⟨id, path, Dot.importArrow units unit path⟩

/-- The arrows of units. -/
def importArrows (units : UnitTable) : List DrawnImport :=
  units.entries.flatMap fun e => importArrowsOf units e.1 e.2

theorem renderImports_eq (g : LoadedGraph) :
    g.renderImports = Dot.document (g.header (some selectImports))
      ((importNodes g.units).map (·.2)) "imports" ((importArrows g.units).map (·.line)) := by
  have hnodes : (importNodes g.units).map (·.2) = g.units.values.map Dot.unitNode := by
    rw [importNodes, Table.values, List.map_map, List.map_map]
    rfl
  have harrows : (importArrows g.units).map (·.line) = g.units.values.flatMap fun unit =>
      unit.imports.map (Dot.importArrow g.units unit) := by
    rw [importArrows, Table.values, List.map_flatMap, List.flatMap_map]
    refine List.flatMap_congr fun e _ => ?_
    rw [importArrowsOf, List.map_map]
    rfl
  rw [hnodes, harrows]
  rfl

theorem map_fst_importNodes (units : UnitTable) : (importNodes units).map (·.1) = units.keys := by
  rw [importNodes, Table.keys, List.map_map]
  rfl

theorem mem_importArrows {units : UnitTable} {a : DrawnImport} :
    a ∈ importArrows units ↔ ∃ unit, units.get? a.source = some unit ∧ a.path ∈ unit.imports ∧
      a.line = Dot.importArrow units unit a.path := by
  unfold importArrows importArrowsOf
  rw [List.mem_flatMap]
  constructor
  · rintro ⟨⟨id, unit⟩, he, ha⟩
    obtain ⟨path, hpath, rfl⟩ := List.mem_map.1 ha
    exact ⟨unit, (units.mem_entries _ _).1 he, hpath, rfl⟩
  · rintro ⟨unit, hunit, hpath, hline⟩
    refine ⟨(a.source, unit), (units.mem_entries _ _).2 hunit, List.mem_map.2 ⟨a.path, hpath, ?_⟩⟩
    rw [← hline]

/-- The arrows with a source are those of its unit. -/
theorem filter_importArrows {units : UnitTable} {id : String} {unit : SourceUnit}
    (hunit : units.get? id = some unit) :
    (importArrows units).filter (·.source = id) = importArrowsOf units id unit := by
  have hentry : units.entries.filter (·.1 = id) = [(id, unit)] := by
    refine eq_singleton_of_nodup ((units.keys_nodup.of_map _).filter _) fun e => ?_
    rw [List.mem_filter, decide_eq_true_eq]
    constructor
    · rintro ⟨he, rfl⟩
      exact Table.eq_of_mem_of_key_eq he ((units.mem_entries _ _).2 hunit) rfl
    · rintro rfl
      exact ⟨(units.mem_entries _ _).2 hunit, rfl⟩
  have hsource (e : String × SourceUnit) : ∀ a ∈ importArrowsOf units e.1 e.2,
      decide (a.source = id) = decide (e.1 = id) := fun a ha => by
    obtain ⟨path, -, rfl⟩ := List.mem_map.1 ha
    rfl
  rw [importArrows, filter_flatMap_eq hsource, hentry, List.flatMap_singleton]

theorem exists_walk (h : load loader options renderer root = .ok g) :
    ∃ walk, Walk.run loader options root .empty = (.ok (), walk) ∧ g.units = walk.units := by
  obtain ⟨walk, hrun, -, -, -, hunits, -⟩ := load_eq_ok h
  exact ⟨walk, hrun, hunits⟩

theorem mem_importNodes {id : String} :
    id ∈ (importNodes g.units).map (·.1) ↔ g.units.contains id := by
  rw [map_fst_importNodes, Table.mem_keys]
  rfl

/-- An arrow runs from the node of its source to the name made from its path. -/
theorem isArrow_of_mem (hrun : Walk.run loader options root .empty = (.ok (), walk))
    (hunits : g.units = walk.units) {a : DrawnImport} (ha : a ∈ importArrows g.units) :
    a.source ∈ (importNodes g.units).map (·.1) ∧
      Dot.IsArrow (Dot.stableId a.source) (Dot.stableId a.path) a.line := by
  obtain ⟨unit, hunit, -, hline⟩ := mem_importArrows.1 ha
  have hid : unit.identifier = a.source := Walk.run_identifier hrun (hunits ▸ hunit)
  refine ⟨mem_importNodes.2 (Option.isSome_iff_exists.2 ⟨unit, hunit⟩), ?_⟩
  rw [hline, ← hid]
  exact Dot.isArrow_importArrow g.units unit a.path

/-- Where a path is the name of a file, it is also the identifier of the unit. -/
theorem joins_of_mem (hsuffices : loader.Suffices root)
    (hrun : Walk.run loader options root .empty = (.ok (), walk)) (hunits : g.units = walk.units)
    {a : DrawnImport} (ha : a ∈ importArrows g.units) (hname : isInlineText a.path = false) :
    a.Joins (importNodes g.units) := by
  obtain ⟨hsource, harrow⟩ := isArrow_of_mem hrun hunits ha
  obtain ⟨unit, hunit, hpath, -⟩ := mem_importArrows.1 ha
  have htarget := Walk.run_imports hsuffices hrun (hunits ▸ hunit) hpath
  rw [← hunits] at htarget
  exact ⟨hsource, mem_importNodes.2 htarget, (unitIdentifier_eq_self hname).symm ▸ harrow⟩

/-- Whatever has been imported, the document has a node for each unit and an arrow for each import
statement. -/
theorem importTree_units (hrun : Walk.run loader options root .empty = (.ok (), walk))
    (hunits : g.units = walk.units)
    (hids : ∀ p q, g.units.contains p → g.units.contains q →
      Dot.stableId p = Dot.stableId q → p = q) :
    g.ImportTree walk.files (importNodes g.units) (importArrows g.units) := by
  refine ⟨renderImports_eq g, map_fst_importNodes g.units, fun n hn => ?_, ?_, fun file hfile => ?_,
    fun a ha => ?_, fun a ha => ?_⟩
  · obtain ⟨e, he, rfl⟩ := List.mem_map.1 hn
    have hget := (g.units.mem_entries _ _).1 he
    have hid : e.2.identifier = e.1 := Walk.run_identifier hrun (hunits ▸ hget)
    exact hid ▸ Dot.isNode_unitNode e.2
  · have hkeys : (importNodes g.units).map (fun n => Dot.stableId n.1) =
        g.units.keys.map Dot.stableId := by
      rw [← map_fst_importNodes, List.map_map]
      rfl
    rw [hkeys]
    exact g.units.keys_nodup.map_on fun p hp q hq =>
      hids p q ((g.units.mem_keys p).1 hp) ((g.units.mem_keys q).1 hq)
  · obtain ⟨weak, hget⟩ := Walk.run_file hrun hfile
    rw [filter_importArrows (hunits ▸ hget), importArrowsOf, List.map_map]
    exact List.map_id _
  · obtain ⟨unit, hget, hpath, -⟩ := mem_importArrows.1 ha
    rcases Walk.run_unit hrun (hunits ▸ hget) with ⟨file, weak, hfile, rfl⟩ | ⟨weak, rfl⟩
    · exact List.mem_map_of_mem hfile
    -- A name without a text imports nothing.
    · cases hpath
  · obtain ⟨hsource, harrow⟩ := isArrow_of_mem hrun hunits ha
    exact ⟨hsource, _, harrow⟩

/--
**The document of the imports is complete, and closed apart from imported schema texts.** Let
different units have different names in the document. Then each unit has its node, and each file
that has been read has its arrows, one for each import statement and in their order, from the node
of the file. Where the statement names a file, the arrow runs to the node of the unit that has been
loaded or found missing. Where it holds a schema text, the arrow runs to a name made from the text,
while the node of the unit has one made from its identifier. The loaders of finitely many texts
suffice (`Loader.Lists.suffices`), and so do those of a file tree (`ImportLookup.suffices_loader`).
-/
theorem renderImports_importTree (hsuffices : loader.Suffices root)
    (h : load loader options renderer root = .ok g)
    (hids : ∀ p q, g.units.contains p → g.units.contains q →
      Dot.stableId p = Dot.stableId q → p = q) :
    ∃ walk nodes arrows, Walk.run loader options root .empty = (.ok (), walk) ∧
      g.units = walk.units ∧ g.ImportTree walk.files nodes arrows ∧
      (∀ a ∈ arrows, isInlineText a.path = false → a.Joins nodes) ∧
      ∀ a ∈ arrows, isInlineText a.path = true →
        Dot.IsArrow (Dot.stableId a.source) (Dot.stableId a.path) a.line := by
  obtain ⟨walk, hrun, hunits⟩ := exists_walk h
  exact ⟨walk, importNodes g.units, importArrows g.units, hrun, hunits,
    importTree_units hrun hunits hids,
    fun _ ha hname => joins_of_mem hsuffices hrun hunits ha hname,
    fun _ ha _ => (isArrow_of_mem hrun hunits ha).2⟩

/-- Two files that import each other, one of them twice and once under an escaped path, and a name
without a text. -/
def treeTexts : Table String String :=
  .ofList [("a", "import \"b\";import weak \"m\";import \"\\b\";"), ("b", "import \"a\";")]

/-- Each of the four import statements has its arrow from node to node. -/
theorem renderImports_treeTexts : ∃ (g : LoadedGraph) (walk : Walk) (nodes : List (String × String))
    (arrows : List DrawnImport),
    load (.ofTable treeTexts) ⟨true, true⟩ Dot.renderEntity "a" = .ok g ∧
      (∀ p q, g.units.contains p → g.units.contains q →
        Dot.stableId p = Dot.stableId q → p = q) ∧
      g.ImportTree walk.files nodes arrows ∧ nodes.map (·.1) = ["a", "b", "m"] ∧
      (arrows.filter (·.source = "a")).map (·.path) = ["b", "m", "b"] ∧
      ∀ a ∈ arrows, isInlineText a.path = false → a.Joins nodes := by
  have hloaded : ((load (.ofTable treeTexts) ⟨true, true⟩ Dot.renderEntity "a").toOption.any
      fun g => decide (g.units.keys = ["a", "b", "m"])) = true := by decide +kernel
  have hdistinct : (["a", "b", "m"].map Dot.stableId).Nodup := by decide +kernel
  have hwalked : (Walk.run (.ofTable treeTexts) ⟨true, true⟩ "a" .empty).2.files.map
      (fun file => (file.1, file.2.imports.map (·.path))) =
        [("b", ["a"]), ("a", ["b", "m", "b"])] := by decide +kernel
  obtain ⟨g, hload, hkeys⟩ := exists_ok_of_any hloaded
  have hkeys : g.units.keys = ["a", "b", "m"] := of_decide_eq_true hkeys
  have hids := injOn_stableId hkeys hdistinct
  obtain ⟨walk, nodes, arrows, hrun, -, htree, hjoins, -⟩ :=
    renderImports_importTree ((Loader.lists_ofTable treeTexts).suffices "a") hload hids
  rw [hrun] at hwalked
  refine ⟨g, walk, nodes, arrows, hload, hids, htree, htree.units.trans hkeys, ?_, hjoins⟩
  exact htree.paths hwalked (by decide)

/-- The text of a schema. -/
def inlineText : String :=
  "message A\x7b\x7d\n\n"

/-- A file that imports the text. -/
def inlineTreeTexts : Table String String :=
  .ofList [("a", "import \"message A\x7b\x7d\\n\\n\";")]

/-- The document has no arrow to the unit of the schema text. -/
theorem renderImports_inlineTreeTexts : ∃ (g : LoadedGraph) (walk : Walk),
    load (.ofTable inlineTreeTexts) ⟨true, true⟩ Dot.renderEntity "a" = .ok g ∧
      Walk.run (.ofTable inlineTreeTexts) ⟨true, true⟩ "a" .empty = (.ok (), walk) ∧
      (∀ p q, g.units.contains p → g.units.contains q →
        Dot.stableId p = Dot.stableId q → p = q) ∧
      ¬ ∃ nodes arrows, g.ImportTree walk.files nodes arrows ∧ ∀ a ∈ arrows, a.Joins nodes := by
  have hloaded : ((load (.ofTable inlineTreeTexts) ⟨true, true⟩ Dot.renderEntity "a").toOption.any
      fun g => decide (g.units.keys = ["a", unitIdentifier inlineText])) = true := by
    decide +kernel
  have hdistinct : (["a", unitIdentifier inlineText].map Dot.stableId).Nodup := by decide +kernel
  have hwalked : (Walk.run (.ofTable inlineTreeTexts) ⟨true, true⟩ "a" .empty).2.files.map
      (fun file => (file.1, file.2.imports.map (·.path))) =
        [(unitIdentifier inlineText, []), ("a", [inlineText])] := by decide +kernel
  obtain ⟨g, hload, hkeys⟩ := exists_ok_of_any hloaded
  have hids := injOn_stableId (of_decide_eq_true hkeys) hdistinct
  obtain ⟨walk, hrun, hunits⟩ := exists_walk hload
  rw [hrun] at hwalked
  refine ⟨g, walk, hload, hrun, hids, ?_⟩
  rintro ⟨nodes, arrows, htree, hjoins⟩
  -- The document as it is, and as it would have to be, has one arrow.
  obtain ⟨a, hone, hpath⟩ := htree.eq_singleton hwalked
  obtain ⟨b, hone', hpath'⟩ := (importTree_units hrun hunits hids).eq_singleton hwalked
  have harrow := (isArrow_of_mem hrun hunits (hone' ▸ List.mem_singleton_self b)).2
  have hjoined := (hjoins a (hone ▸ List.mem_singleton_self a)).arrow
  rw [hpath] at hjoined
  rw [hpath'] at harrow
  have hdocument := htree.document.symm.trans (renderImports_eq g)
  rw [hone, hone'] at hdocument
  have hsame := hjoined.target_eq (Dot.isWord_stableId _) (Dot.isWord_stableId _) harrow hdocument
  have hdifferent : Dot.stableId (unitIdentifier inlineText) ≠ Dot.stableId inlineText := by
    decide +kernel
  exact hdifferent hsame

end LoadedGraph
end SchemaGraph
