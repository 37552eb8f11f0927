import SchemaGraph.Proofs.Graph.Methods
import SchemaGraph.Proofs.Registry.Holding
/-!
# Every body is drawn

A message, an enum or a service ends with the fragment of the declaration that holds its name, a
placeholder with that of no rows, and a method with none (`LoadedGraph.load_bodies`). The kind that
a row shows for a type is that of the entity that the edge of the row leads to
(`Build.Tracks.shows`). -/

namespace SchemaGraph

/-! ## Drawings and declarations -/

namespace Outline

variable {o : Outline} {os : List Outline} {taken : List String} {w : Winner}
  {rows : (String → FieldKind) → List BodyRow} {inside : List Outline}

/-- What holds its name is drawn with its rows. -/
theorem Holds.draw_mem (kinds : String → String → FieldKind)
    (h : (Outline.declaration w (some rows) inside).Holds os taken) :
    .draw w.qualifiedName (rows (kinds w.qualifiedName)) ∈ tasksIn kinds os taken := by
  induction h with
  | here ho free =>
    cases ho
    exact List.mem_append_left _ (draw_mem_tasks kinds free rows inside)
  | @inside v rows' _ _ _ free _ ih =>
    refine List.mem_append_left _ ?_
    cases rows' <;> rw [tasks, if_neg free]
    · exact ih
    · exact List.mem_append_left _ (List.mem_cons_of_mem _ ih)
  | after _ ih => exact List.mem_append_right _ ih

mutual

theorem exists_holds_of_drawn (kinds : String → String → FieldKind) (o : Outline)
    {taken : List String} {q : String} (h : q ∈ (tasks kinds o taken).filterMap (·.drawn?)) :
    ∃ w rows inside, (Outline.declaration w (some rows) inside).Holds [o] taken ∧
      w.qualifiedName = q := by
  cases o with
  | reference | skipped => cases h
  | declaration v rows inside =>
    have hinside (free : v.qualifiedName ∉ taken)
        (h : q ∈ (tasksIn kinds inside (taken ++ [v.qualifiedName])).filterMap (·.drawn?)) :
        ∃ w rows' inside', (Outline.declaration w (some rows') inside').Holds
          [.declaration v rows inside] taken ∧ w.qualifiedName = q := by
      obtain ⟨w, rows', inside', hholds, hq⟩ := exists_holds_of_drawnIn kinds inside h
      exact ⟨w, rows', inside', .inside free hholds, hq⟩
    cases rows <;> rw [tasks] at h <;> split at h
    · cases h
    · exact hinside ‹_› h
    · cases h
    · rename_i rows free
      rw [List.filterMap_append, List.filterMap_cons_none rfl] at h
      rcases List.mem_append.1 h with h | h
      · exact hinside free h
      · exact ⟨v, rows, inside, .here rfl free, (List.mem_singleton.1 h).symm⟩

/-- Whatever is drawn holds its name. -/
theorem exists_holds_of_drawnIn (kinds : String → String → FieldKind) (os : List Outline)
    {taken : List String} {q : String} (h : q ∈ (tasksIn kinds os taken).filterMap (·.drawn?)) :
    ∃ w rows inside, (Outline.declaration w (some rows) inside).Holds os taken ∧
      w.qualifiedName = q := by
  cases os with
  | nil => cases h
  | cons o os =>
    rw [tasksIn, List.filterMap_append] at h
    rcases List.mem_append.1 h with h | h
    · obtain ⟨w, rows, inside, hholds, hq⟩ := exists_holds_of_drawn kinds o h
      exact ⟨w, rows, inside, hholds.of_head os, hq⟩
    · obtain ⟨w, rows, inside, hholds, hq⟩ := exists_holds_of_drawnIn kinds os h
      exact ⟨w, rows, inside, .after hholds, hq⟩

end

end Outline

namespace Build

variable {entered files : List (String × SchemaFile)}

/-- A declaration that holds its name is drawn, in whatever order the files are processed. -/
theorem draw_mem_tasks_of_holds (hnodup : (entered.map (·.1)).Nodup) (hperm : files.Perm entered)
    (kinds : String → String → FieldKind) {w : Winner}
    {rows : (String → FieldKind) → List BodyRow} {inside : List Outline}
    (h : (Outline.declaration w (some rows) inside).Holds (entered.flatMap Outline.ofFile) []) :
    .draw w.qualifiedName (rows (kinds w.qualifiedName)) ∈ tasks kinds entered files := by
  obtain ⟨first, file, others, rfl, hfile⟩ := Outline.exists_of_holds_flatMap h
  rw [← Outline.takenBefore_eq_takesIn hnodup] at hfile
  exact List.mem_flatMap.2 ⟨file, hperm.mem_iff.2 (by simp), hfile.draw_mem kinds⟩

variable {r : Registry} {showMissing : Bool} {b : Build} {context : BuildContext}

end Build

/-! ## What rows show -/

/-- A type that a row shows: the field of its edge, the type as written and the kind shown. -/
structure ShownType where
  field : String
  typeName : String
  kind : FieldKind
  deriving DecidableEq, Repr

/-- The types that a row shows. -/
def BodyRow.types : BodyRow → List ShownType
  | .field _ typeName name _ kind _ => [⟨name, typeName, kind⟩]
  | .map _ valueType name _ kind => [⟨name, valueType, kind⟩]
  | .value _ _ => []
  | .rpc name request response _ _ requestKind responseKind =>
    [⟨Build.requestField name, request, requestKind⟩,
      ⟨Build.responseField name, response, responseKind⟩]

/-- Each type that the rows of a message element show is a reference of the element. -/
theorem MessageElement.mem_references_of_rows {kind : String → FieldKind} (owner : String)
    {e : MessageElement} {row : BodyRow} (hrow : row ∈ e.rows kind) {t : ShownType}
    (ht : t ∈ row.types) : ⟨owner, t.field, t.typeName⟩ ∈ e.references owner ∧
      t.kind = kind t.typeName := by
  cases e with
  | field f =>
    rw [List.mem_singleton.1 hrow] at ht
    rw [List.mem_singleton.1 ht]
    exact ⟨List.mem_cons_self, rfl⟩
  | map m =>
    rw [List.mem_singleton.1 hrow] at ht
    rw [List.mem_singleton.1 ht]
    exact ⟨List.mem_cons_self, rfl⟩
  | oneof name members =>
    obtain ⟨member, hmember, hrow⟩ := List.mem_flatMap.1 hrow
    cases member with
    | field f =>
      rw [List.mem_singleton.1 hrow] at ht
      rw [List.mem_singleton.1 ht]
      exact ⟨List.mem_flatMap.2 ⟨_, hmember, List.mem_cons_self⟩, rfl⟩
    | option | comment | group => cases hrow
  | enum | message | reserved | extensions | option | comment | group | extend => cases hrow

/-- Each type that the rows of a body show is a reference of the body. -/
theorem Declaration.mem_references_of_rows {kind : String → FieldKind} (owner : String)
    {d : Declaration} {row : BodyRow} (hrow : row ∈ d.rows kind) {t : ShownType}
    (ht : t ∈ row.types) : ⟨owner, t.field, t.typeName⟩ ∈ d.references owner ∧
      t.kind = kind t.typeName := by
  cases d with
  | message decl =>
    obtain ⟨e, he, hrow⟩ := List.mem_flatMap.1 hrow
    obtain ⟨href, hkind⟩ := e.mem_references_of_rows owner hrow ht
    exact ⟨List.mem_flatMap.2 ⟨e, he, href⟩, hkind⟩
  | enum decl =>
    obtain ⟨e, -, hrow⟩ := List.mem_filterMap.1 hrow
    cases e with
    | value v =>
      rw [← Option.some.inj hrow] at ht
      cases ht
    | option | reserved | comment => cases hrow
  | service decl =>
    obtain ⟨rpc, hrpc, rfl⟩ := List.mem_map.1 hrow
    rcases List.mem_cons.1 ht with rfl | ht
    · exact ⟨List.mem_flatMap.2 ⟨rpc, hrpc, List.mem_cons_self⟩, rfl⟩
    · rw [List.mem_singleton.1 ht]
      exact ⟨List.mem_flatMap.2 ⟨rpc, hrpc, List.mem_cons_of_mem _ List.mem_cons_self⟩, rfl⟩

/-- `e.DrawnWith renderer entered rows`: some declaration holds the name of the entity in the files,
these are all rows of its body, and the entity carries what the renderer gives for them. -/
def Entity.DrawnWith (e : Entity) (renderer : Renderer) (entered : List (String × SchemaFile))
    (rows : List BodyRow) : Prop :=
  ∃ (site : DeclarationSite) (d : Declaration) (kind : String → FieldKind),
    (d.outline site).Holds (entered.flatMap Outline.ofFile) [] ∧
    Name.qualify site.scope d.name = e.qualifiedName ∧ (d.winner site).Describes e ∧
    rows = d.rows kind ∧ e.artifact = some (renderer e.undrawn rows)

/-- `g.Shows owner t`: the kind is `scalar` just for the names of scalars. Any other type resolves
to an entity, the field of the owner has an edge to it, and the kind is the one of this entity. -/
structure LoadedGraph.Shows (g : LoadedGraph) (owner : Entity) (t : ShownType) : Prop where
  scalar : t.kind = .scalar ↔ Name.isScalar t.typeName = true
  target : Name.isScalar t.typeName = false → ∃ q target,
    (g.symbols.resolve g.options.showMissingTypes owner.qualifiedName t.typeName).1 =
      .ok (.entity q) ∧
    g.registry.get? q = some target ∧
    (g.graph.count? ⟨owner.nodeId, t.field⟩ target.nodeId).isSome ∧
    t.kind = .ofEntityKind target.kind

theorem FieldKind.ofEntityKind_ne_scalar (kind : EntityKind) : ofEntityKind kind ≠ .scalar := by
  cases kind <;> simp [ofEntityKind]

/-- Only the names of scalars stand for scalars. -/
theorem Registry.referent_eq_scalar_iff {r : Registry} (hr : r.Indexed) {showMissing : Bool}
    {scope reference : String} :
    r.referent showMissing scope reference = .ok .scalar ↔ Name.isScalar reference = true := by
  rw [referent_eq hr]
  constructor
  · intro h
    split at h
    · assumption
    · split at h
      · cases h
      · cases h
      · split at h <;> cases h
  · intro h
    rw [if_pos h]

/-- The kind of a type that resolves to an entity is the one of this entity. -/
theorem Registry.Grows.fieldKind_eq {r r' : Registry} (h : r.Grows r') {showMissing : Bool}
    {scope typeName q : String}
    (hreferent : r.referent showMissing scope typeName = .ok (.entity q))
    {target : Entity} (htarget : r'.get? q = some target) :
    r.fieldKind showMissing scope typeName = .ofEntityKind target.kind := by
  simp only [fieldKind, hreferent]
  cases hq : r.get? q with
  | none =>
    rw [h.added hq htarget]
    rfl
  | some e =>
    obtain ⟨target', htarget', hundrawn⟩ := h.kept hq
    rw [htarget] at htarget'
    rw [Option.some.inj htarget', Entity.kind_eq_of_undrawn hundrawn]
    rfl

namespace LoadedGraph

variable {loader : Loader} {options : RunOptions} {renderer : Renderer} {root : String}
  {g : LoadedGraph} {walk : Walk} {entered : List (String × SchemaFile)}

/-- The kind that a reference has during the build is the one that the loaded graph shows. -/
theorem shows_of_mem (h : Walk.Traverses (.start .empty) walk entered)
    (hsymbols : g.symbols = (buildOf renderer options walk).symbols)
    (hgraph : g.graph = (buildOf renderer options walk).graph) (hoptions : g.options = options)
    (hnil : (buildOf renderer options walk).report.errors = []) {q : String} {t : ShownType}
    (href : ⟨q, t.field, t.typeName⟩ ∈ (Winner.ofFiles entered).flatMap (·.references))
    (hkind : t.kind = walk.registry.fieldKind options.showMissingTypes q t.typeName)
    {owner : Entity} (howner : g.registry.get? q = some owner) : g.Shows owner t := by
  obtain ⟨-, hregistry⟩ := h.of_start
  have hindexed := (hregistry ▸ Registry.coherent_declareFiles entered).indexed
  have htracks := tracks_buildOf h renderer options
  unfold registry at howner
  rw [hsymbols] at howner
  have hname := htracks.symbols.coherent.indexed.stored howner
  obtain ⟨referent, hreferent⟩ := htracks.errors hnil _ href
  have hscalar : walk.registry.referent options.showMissingTypes q t.typeName = .ok .scalar ↔
      Name.isScalar t.typeName = true :=
    Registry.referent_eq_scalar_iff hindexed
  cases referent with
  | scalar =>
    have hyes := hscalar.1 hreferent
    refine ⟨⟨fun _ => hyes, fun _ => ?_⟩, fun hno => absurd (hyes.symm.trans hno) (by decide)⟩
    rw [hkind]
    simp only [Registry.fieldKind, hreferent]
  | entity p =>
    have hno : ¬ Name.isScalar t.typeName = true := fun hyes => by
      rw [hscalar.2 hyes] at hreferent
      cases hreferent
    obtain ⟨target, htarget⟩ := Option.isSome_iff_exists.1 (htracks.registered _ href hreferent)
    have hshown := hkind.trans (htracks.symbols.grows.fieldKind_eq hreferent htarget)
    refine ⟨⟨fun h => absurd (hshown.symm.trans h) (FieldKind.ofEntityKind_ne_scalar _),
      fun hyes => absurd hyes hno⟩, fun _ => ⟨p, target, ?_, ?_, ?_, hshown⟩⟩
    · rw [hsymbols, hoptions, hname, htracks.symbols.resolve_eq hindexed (htracks.owned _ href)]
      exact hreferent
    · rw [registry, hsymbols, htarget]
    · rw [hgraph]
      exact Registry.isSome_count?_of_counts htracks.counts href hreferent howner htarget

/-- Every message, enum and service is drawn with the rows of its declaration, and these show the
kinds of their types. -/
theorem exists_drawnWith (h : load loader options renderer root = .ok g)
    (hrun : Walk.run loader options root .empty = (.ok (), walk))
    (htraverses : Walk.Traverses (.start .empty) walk entered) {q : String} {e : Entity}
    (he : g.registry.get? q = some e) (hrpc : e.kind ≠ .rpc) (hmissing : e.kind ≠ .missing) :
    ∃ rows, e.DrawnWith renderer entered rows ∧
      ∀ row ∈ rows, ∀ t ∈ row.types, g.Shows e t := by
  obtain ⟨-, -, -, hsymbols, hgraph, hoptions, -, hnil⟩ := load_built h hrun
  obtain ⟨hperm, hregistry⟩ := htraverses.of_start
  have hnodup := htraverses.nodup
  have hextends := (tracks_buildOf htraverses renderer options).symbols
  have hregistered := he
  unfold registry at he
  rw [hsymbols] at he
  have htakes := hregistry ▸ Registry.takes_declareFiles entered
  obtain ⟨w, hw, rfl, hdescribes⟩ := htakes.exists_describes hextends.grows he hmissing
  obtain ⟨site, d, hholds, rfl⟩ :=
    Outline.exists_declaration hw fun hkind => hrpc (hdescribes.kind.trans hkind)
  obtain ⟨declared, hdeclared, -⟩ := hextends.grows.declared he hmissing
  rw [hregistry] at hdeclared
  have hdraw := Build.draw_mem_tasks_of_holds hnodup hperm
    ((Registry.empty.declareFiles entered).fieldKind options.showMissingTypes) hholds
  obtain ⟨e', he', hundrawn, hartifact⟩ :=
    Build.drawn_buildAll hnodup hperm renderer options.showMissingTypes hdeclared hdraw
  have hname := hextends.coherent.indexed.stored he
  unfold buildOf at he
  rw [hregistry] at he
  obtain rfl : e' = e := Option.some.inj (he'.symm.trans he)
  rw [← hundrawn] at hartifact
  refine ⟨_, ⟨site, d, _, hholds, hname.symm, hdescribes, rfl, hartifact⟩, fun row hrow t ht => ?_⟩
  obtain ⟨href, hkind⟩ := d.mem_references_of_rows (Name.qualify site.scope d.name) hrow ht
  exact shows_of_mem htraverses hsymbols hgraph hoptions hnil (List.mem_flatMap.2 ⟨_, hw, href⟩)
    (hregistry ▸ hkind) hregistered

end LoadedGraph
end SchemaGraph
