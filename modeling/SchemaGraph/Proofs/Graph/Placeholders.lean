import SchemaGraph.Proofs.Graph.Bodies
import SchemaGraph.Proofs.Graph.MissingTypes
/-!
# Edges to placeholders

Where missing types are shown, every reference has an edge. A reference that no message or enum
answers leads to a placeholder, and two of them lead to the same one just when they have the same
owner and the same text (`LoadedGraph.load_placeholders`). This rests on the names of placeholders:
a declared entity of such a name takes the place of the placeholder, whatever its kind is.
-/

namespace SchemaGraph

/-- What a reference stands for is a message or an enum, or else a placeholder. -/
theorem Registry.Distinguishes.kind_of_referent {r r' : Registry} (h : r.Distinguishes)
    (hr : r.Indexed) (hgrows : r.Grows r') {scope reference q : String} {owner target : Entity}
    (howner : r.get? scope = some owner) {showMissing : Bool}
    (hreferent : r.referent showMissing scope reference = .ok (.entity q))
    (htarget : r'.get? q = some target) :
    target.kind.isType = true ∨ target.kind = .missing := by
  rw [referent_eq hr, Symbols.ownerId_of_get? howner] at hreferent
  split at hreferent
  · cases hreferent
  · split at hreferent
    · cases hreferent
    · rename_i bound hbind
      cases hreferent
      obtain ⟨e, he⟩ := Option.isSome_iff_exists.1 (type?_isSome_of_bind hr hbind)
      obtain ⟨hget, htype⟩ := type?_eq_some.1 he
      obtain ⟨e', he', hundrawn⟩ := hgrows.kept hget
      rw [htarget] at he'
      rw [Option.some.inj he', Entity.kind_eq_of_undrawn hundrawn]
      exact .inl htype
    · split at hreferent
      · cases hreferent
        exact .inr (hgrows.added (h _ _ _ howner) htarget)
      · cases hreferent

theorem FieldKind.ofEntityKind_ne_unresolved {kind : EntityKind}
    (h : kind.isType = true ∨ kind = .missing) : ofEntityKind kind ≠ .unresolved := by
  cases kind <;> simp_all [ofEntityKind, EntityKind.isType]

namespace LoadedGraph

/-- `g.Leads ref target`: the reference resolves to the entity, and the edge to it is recorded in
the field of the reference. -/
def Leads (g : LoadedGraph) (ref : Reference) (target : Entity) : Prop :=
  ∃ owner q, g.registry.get? ref.owner = some owner ∧
    (g.symbols.resolve g.options.showMissingTypes ref.owner ref.typeName).1 = .ok (.entity q) ∧
    g.registry.get? q = some target ∧
    (g.graph.count? ⟨owner.nodeId, ref.field⟩ target.nodeId).isSome

variable {loader : Loader} {options : RunOptions} {renderer : Renderer} {root : String}
  {g : LoadedGraph} {walk : Walk} {entered : List (String × SchemaFile)}

/-- A reference that nothing answers leads to the placeholder of its owner. -/
theorem leads_of_not_answers (h : Walk.Traverses (.start .empty) walk entered)
    (hdistinct : walk.registry.Distinguishes) (hshow : options.showMissingTypes = true)
    (hsymbols : g.symbols = (buildOf renderer options walk).symbols)
    (hgraph : g.graph = (buildOf renderer options walk).graph) (hoptions : g.options = options)
    {ref : Reference} (href : ref ∈ (Winner.ofFiles entered).flatMap (·.references))
    (hanswers : ¬ walk.registry.Answers ref.owner ref.typeName) :
    ∃ owner target, walk.registry.get? ref.owner = some owner ∧
      target.qualifiedName = Registry.placeholderName owner.nodeId ref.typeName ∧
      target.kind = .missing ∧ target.name = ref.typeName ∧
      ∀ target', g.Leads ref target' ↔ target' = target := by
  obtain ⟨-, hregistry⟩ := h.of_start
  have hcoherent := hregistry ▸ Registry.coherent_declareFiles entered
  have hqualified := hregistry ▸ Registry.qualified_declareFiles entered
  have htracks := tracks_buildOf h renderer options
  obtain ⟨allow, showMissing⟩ := options
  obtain rfl : showMissing = true := hshow
  obtain ⟨owner, target, howner, htarget, hkind, hname, -⟩ :=
    exists_placeholder h hdistinct renderer allow href hanswers
  obtain ⟨declared, hdeclared⟩ := Option.isSome_iff_exists.1 (htracks.owned ref href)
  have hid := htracks.symbols.grows.nodeId_eq hdeclared howner
  have hreferent :=
    Reference.referent_of_not_answers hcoherent.indexed hqualified hanswers hdeclared
  have hresolve := htracks.symbols.resolve_eq hcoherent.indexed (htracks.owned ref href) true
    ref.typeName
  rw [hid] at htarget
  refine ⟨declared, target, hdeclared, htracks.symbols.coherent.indexed.stored htarget, hkind,
    hname, fun target' => ⟨?_, ?_⟩⟩
  · rintro ⟨owner', q, -, hq, htarget', -⟩
    unfold registry at htarget'
    rw [hsymbols, hoptions, hresolve, hreferent] at hq
    cases hq
    rw [hsymbols, htarget] at htarget'
    exact (Option.some.inj htarget').symm
  · rintro rfl
    unfold Leads registry
    rw [hsymbols, hoptions, hresolve, hgraph]
    exact ⟨owner, _, howner, hreferent, htarget,
      Registry.isSome_count?_of_counts htracks.counts href hreferent howner htarget⟩

/-- Every edge leads to a message, an enum or a placeholder. -/
theorem kind_of_edge (h : Walk.Traverses (.start .empty) walk entered)
    (hdistinct : walk.registry.Distinguishes)
    (hsymbols : g.symbols = (buildOf renderer options walk).symbols)
    (hgraph : g.graph = (buildOf renderer options walk).graph) {key : EdgeKey}
    {targets : EdgeTargets} (hkey : g.graph.edges.get? key = some targets) {id : String}
    (hid : (targets.get? id).isSome) :
    ∃ q target, g.registry.get? q = some target ∧ target.nodeId = id ∧
      (target.kind.isType = true ∨ target.kind = .missing) := by
  obtain ⟨-, hregistry⟩ := h.of_start
  have hindexed := (hregistry ▸ Registry.coherent_declareFiles entered).indexed
  have htracks := tracks_buildOf h renderer options
  rw [hgraph] at hkey
  obtain ⟨ref, href, hedge⟩ :=
    List.mem_filterMap.1 ((htracks.counts.mem_iff key id).2 ⟨targets, hkey, hid⟩)
  obtain ⟨q, _, target, hreferent, -, htarget, heq⟩ := Registry.edgeOf?_eq_some_iff.1 hedge
  obtain ⟨owner, howner⟩ := Option.isSome_iff_exists.1 (htracks.owned ref href)
  refine ⟨q, target, ?_, (Prod.mk.inj heq).2,
    hdistinct.kind_of_referent hindexed htracks.symbols.grows howner hreferent htarget⟩
  unfold registry
  rw [hsymbols, htarget]

/-- What a row shows of an edge is the kind of a message, an enum or a placeholder. -/
theorem Shows.kind_ne_unresolved {owner : Entity} {t : ShownType} (h : g.Shows owner t)
    (hids : g.registry.Identified)
    (hedges : ∀ key targets, g.graph.edges.get? key = some targets → ∀ id,
      (targets.get? id).isSome → ∃ q target, g.registry.get? q = some target ∧
        target.nodeId = id ∧ (target.kind.isType = true ∨ target.kind = .missing)) :
    t.kind ≠ .unresolved := by
  cases hscalar : Name.isScalar t.typeName with
  | true =>
    rw [h.scalar.2 hscalar]
    decide
  | false =>
    obtain ⟨q, target, -, htarget, hedge, hkind⟩ := h.target hscalar
    obtain ⟨targets, hkey, hsome⟩ := InclusionGraph.isSome_count?_iff.1 hedge
    obtain ⟨q', target', htarget', hid, htype⟩ := hedges _ _ hkey _ hsome
    -- Node identifiers tell the entities apart.
    have hq := hids.qualifiedName_eq htarget' htarget hid
    rw [hq, htarget] at htarget'
    rw [hkind, Option.some.inj htarget']
    exact FieldKind.ofEntityKind_ne_unresolved htype

/--
**What nothing answers becomes a placeholder.** Let a load show missing types, and let no entity
declared have the name of a placeholder inside another one. Then each reference that no message or
enum answers leads to a placeholder of its text, two of them to the same one just when they have the
same owner and the same text. Every edge leads to a message, an enum or a placeholder, and no row of
a body shows a type as unresolved.
-/
theorem load_placeholders (h : load loader options renderer root = .ok g)
    (hrun : Walk.run loader options root .empty = (.ok (), walk))
    (hshow : options.showMissingTypes = true) (hdistinct : walk.registry.Distinguishes) :
    ∃ entered, Walk.Traverses (.start .empty) walk entered ∧
      (∀ ref ∈ (Winner.ofFiles entered).flatMap (·.references),
        ¬ walk.registry.Answers ref.owner ref.typeName →
        ∃ target, g.Leads ref target ∧ target.kind = .missing ∧ target.name = ref.typeName) ∧
      (∀ ref ∈ (Winner.ofFiles entered).flatMap (·.references),
        ∀ ref' ∈ (Winner.ofFiles entered).flatMap (·.references),
        ¬ walk.registry.Answers ref.owner ref.typeName →
        ¬ walk.registry.Answers ref'.owner ref'.typeName →
        ∀ target target', g.Leads ref target → g.Leads ref' target' →
          (target = target' ↔ ref.owner = ref'.owner ∧ ref.typeName = ref'.typeName)) ∧
      (∀ key targets, g.graph.edges.get? key = some targets → ∀ id, (targets.get? id).isSome →
        ∃ q target, g.registry.get? q = some target ∧ target.nodeId = id ∧
          (target.kind.isType = true ∨ target.kind = .missing)) ∧
      ∀ q e, g.registry.get? q = some e → e.kind ≠ .rpc → e.kind ≠ .missing →
        ∃ rows, e.DrawnWith renderer entered rows ∧
          ∀ row ∈ rows, ∀ t ∈ row.types, t.kind ≠ .unresolved := by
  obtain ⟨entered, htraverses, -, hsymbols, hgraph, hoptions, -, -⟩ := load_built h hrun
  obtain ⟨-, hregistry⟩ := htraverses.of_start
  have hids := (hregistry ▸ Registry.coherent_declareFiles entered).identified
  have hextends := (tracks_buildOf htraverses renderer options).symbols
  have hedges : ∀ key targets, g.graph.edges.get? key = some targets → ∀ id,
      (targets.get? id).isSome → ∃ q target, g.registry.get? q = some target ∧
        target.nodeId = id ∧ (target.kind.isType = true ∨ target.kind = .missing) :=
    fun _ _ hkey _ hid => kind_of_edge htraverses hdistinct hsymbols hgraph hkey hid
  refine ⟨entered, htraverses, fun ref href hno => ?_,
    fun ref href ref' href' hno hno' target target' hleads hleads' => ?_, hedges,
    fun q e he hrpc hmissing => ?_⟩
  · obtain ⟨_, target, -, -, hkind, hname, hleads⟩ :=
      leads_of_not_answers htraverses hdistinct hshow hsymbols hgraph hoptions href hno
    exact ⟨target, (hleads target).2 rfl, hkind, hname⟩
  · obtain ⟨owner, p, howner, hp, -, -, hone⟩ :=
      leads_of_not_answers htraverses hdistinct hshow hsymbols hgraph hoptions href hno
    obtain ⟨owner', p', howner', hp', -, -, hone'⟩ :=
      leads_of_not_answers htraverses hdistinct hshow hsymbols hgraph hoptions href' hno'
    obtain rfl := (hone target).1 hleads
    obtain rfl := (hone' target').1 hleads'
    constructor
    · rintro rfl
      -- The name of the placeholder tells the owner and the text.
      obtain ⟨hid, htext⟩ := Registry.placeholderName_inj (hids.dot_not_mem howner)
        (hids.dot_not_mem howner') (hp.symm.trans hp')
      exact ⟨hids.qualifiedName_eq howner howner' hid, htext⟩
    · rintro ⟨howners, htexts⟩
      obtain ⟨o, q, ho, hq, htarget, -⟩ := hleads
      obtain ⟨o', q', ho', hq', htarget', -⟩ := hleads'
      rw [howners, htexts, hq'] at hq
      cases hq
      exact Option.some.inj (htarget.symm.trans htarget')
  · obtain ⟨rows, hdrawn, hshows⟩ := exists_drawnWith h hrun htraverses he hrpc hmissing
    have hids' : g.registry.Identified := by
      unfold registry
      rw [hsymbols]
      exact hextends.coherent.identified
    exact ⟨rows, hdrawn, fun row hrow t ht =>
      (hshows row hrow t ht).kind_ne_unresolved hids' hedges⟩

/-- A type that nothing declares, named in a message and in the one inside it. -/
def edgeTexts : Table String String :=
  .ofList [("a", "message A\x7bX x=1;X y=2;message B\x7bX z=3;\x7d\x7d")]

/-- They are one file with three references, which nothing answers. -/
theorem run_edgeTexts :
    let walk := (Walk.run (.ofTable edgeTexts) ⟨false, true⟩ "a" .empty).2
    walk.registry.SparesPlaceholders ∧ walk.files.length = 1 ∧
      (Winner.ofFiles walk.files).flatMap (·.references) =
        [⟨"A", "x", "X"⟩, ⟨"A", "y", "X"⟩, ⟨"A.B", "z", "X"⟩] ∧
      ∀ owner ∈ ["A", "A.B"], ¬ walk.registry.Answers owner "X" := by
  dsimp only
  rw [Registry.sparesPlaceholders_iff]
  decide +kernel

/-- Both fields of the outer message lead to one placeholder, and that of the inner one to another.
The body of the outer message shows no type as unresolved. -/
theorem load_edgeTexts : ∃ g walk outer inner message rows,
    load (.ofTable edgeTexts) ⟨false, true⟩ (fun _ _ => "") "a" = .ok g ∧
      Walk.run (.ofTable edgeTexts) ⟨false, true⟩ "a" .empty = (.ok (), walk) ∧
      walk.registry.Distinguishes ∧
      g.Leads ⟨"A", "x", "X"⟩ outer ∧ g.Leads ⟨"A", "y", "X"⟩ outer ∧
      g.Leads ⟨"A.B", "z", "X"⟩ inner ∧ outer ≠ inner ∧ outer.kind = .missing ∧
      outer.name = "X" ∧ inner.kind = .missing ∧ inner.name = "X" ∧
      (∃ targets, g.graph.edges.get? ⟨"A_100", "x"⟩ = some targets ∧
        (targets.get? "X_102").isSome ∧ ∃ q target, g.registry.get? q = some target ∧
          target.nodeId = "X_102" ∧ (target.kind.isType = true ∨ target.kind = .missing)) ∧
      g.registry.get? "A" = some message ∧
      message.DrawnWith (fun _ _ => "") walk.files rows ∧
      ∀ row ∈ rows, ∀ t ∈ row.types, t.kind ≠ .unresolved := by
  have hloaded : ((load (.ofTable edgeTexts) ⟨false, true⟩ (fun _ _ => "") "a").toOption.any
      fun g => ((g.graph.edges.get? ⟨"A_100", "x"⟩).any fun targets =>
          (targets.get? "X_102").isSome) &&
        (g.registry.get? "A").any fun message => message.kind == .message) = true := by
    decide +kernel
  obtain ⟨g, hload, hg⟩ := exists_ok_of_any hloaded
  simp only [Bool.and_eq_true, Option.any_eq_true, beq_iff_eq] at hg
  obtain ⟨⟨targets, htargets, hsome⟩, message, hmessage, hkind⟩ := hg
  obtain ⟨walk, hrun, -⟩ := load_eq_ok hload
  have hwalked := run_edgeTexts
  rw [hrun] at hwalked
  obtain ⟨hspares, hone, hreferences, hno⟩ := hwalked
  obtain ⟨entered, htraverses, hleads, hsame, hedges, hrows⟩ :=
    load_placeholders hload hrun rfl hspares.distinguishes
  obtain rfl := htraverses.entered_eq_files hone
  rw [hreferences] at hleads hsame
  obtain ⟨outer, hx, houter, houterName⟩ := hleads ⟨"A", "x", "X"⟩ (by simp) (hno "A" (by simp))
  obtain ⟨other, hy, -, -⟩ := hleads ⟨"A", "y", "X"⟩ (by simp) (hno "A" (by simp))
  obtain ⟨inner, hz, hinner, hinnerName⟩ :=
    hleads ⟨"A.B", "z", "X"⟩ (by simp) (hno "A.B" (by simp))
  obtain rfl : outer = other := (hsame _ (by simp) _ (by simp) (hno "A" (by simp))
    (hno "A" (by simp)) _ _ hx hy).2 ⟨rfl, rfl⟩
  have hapart : outer ≠ inner := fun heq => absurd ((hsame _ (by simp) _ (by simp)
    (hno "A" (by simp)) (hno "A.B" (by simp)) _ _ hx hz).1 heq).1 (by decide)
  obtain ⟨q, target, htarget, hid, htype⟩ := hedges _ _ htargets _ hsome
  obtain ⟨rows, hdrawn, hshown⟩ :=
    hrows _ _ hmessage (by rw [hkind]; decide) (by rw [hkind]; decide)
  exact ⟨g, walk, outer, inner, message, rows, hload, hrun, hspares.distinguishes, hx, hy, hz,
    hapart, houter, houterName, hinner, hinnerName,
    ⟨targets, htargets, hsome, q, target, htarget, hid, htype⟩, hmessage, hdrawn, hshown⟩

/-- A service with the name that the placeholder for `Bar` inside `Foo` would have. -/
def takenNameTexts : Table String String :=
  .ofList [("a", "package missing.Foo_100;message Foo\x7bBar x=1;\x7dservice Bar\x7b\x7d")]

/-- No message or enum answers the reference to `Bar`, but the edge leads to the service, and the
row shows the type as unresolved. -/
theorem load_takenNameTexts : ∃ g walk foo bar targets,
    load (.ofTable takenNameTexts) ⟨false, true⟩
        (fun _ rows => if rows.any (·.types.any (·.kind == .unresolved)) then "unresolved" else "")
        "a" = .ok g ∧
      Walk.run (.ofTable takenNameTexts) ⟨false, true⟩ "a" .empty = (.ok (), walk) ∧
      ¬ walk.registry.Answers "missing.Foo_100.Foo" "Bar" ∧
      g.registry.get? "missing.Foo_100.Foo" = some foo ∧ foo.artifact = some "unresolved" ∧
      g.graph.edges.get? ⟨foo.nodeId, "x"⟩ = some targets ∧
      g.registry.get? "missing.Foo_100.Bar" = some bar ∧ (targets.get? bar.nodeId).isSome ∧
      bar.kind = .service := by
  have hloaded : ((load (.ofTable takenNameTexts) ⟨false, true⟩
      (fun _ rows => if rows.any (·.types.any (·.kind == .unresolved)) then "unresolved" else "")
      "a").toOption.any fun g =>
        (g.registry.get? "missing.Foo_100.Foo").any fun foo =>
          (g.registry.get? "missing.Foo_100.Bar").any fun bar =>
            foo.artifact == some "unresolved" && bar.kind == .service &&
              (g.graph.edges.get? ⟨foo.nodeId, "x"⟩).any fun targets =>
                (targets.get? bar.nodeId).isSome) = true := by
    decide +kernel
  have hwalked : ((Walk.run (.ofTable takenNameTexts) ⟨false, true⟩ "a" .empty).2.registry.bind
      "missing.Foo_100.Foo" "Bar").toOption = some none := by
    decide +kernel
  obtain ⟨g, hload, hg⟩ := exists_ok_of_any hloaded
  simp only [Bool.and_eq_true, Option.any_eq_true, beq_iff_eq] at hg
  obtain ⟨foo, hfoo, bar, hbar, ⟨hartifact, hkind⟩, targets, htargets, hsome⟩ := hg
  obtain ⟨walk, hrun, -⟩ := load_eq_ok hload
  rw [hrun] at hwalked
  have hanswers : ¬ walk.registry.Answers "missing.Foo_100.Foo" "Bar" := by
    rintro (hscalar | ⟨q, hq⟩)
    · exact absurd hscalar (by decide)
    · rw [hq] at hwalked
      cases hwalked
  exact ⟨g, walk, foo, bar, targets, hload, hrun, hanswers, hfoo, hartifact, htargets, hbar, hsome,
    hkind⟩

end LoadedGraph
end SchemaGraph
