import SchemaGraph.Loaded
import SchemaGraph.Proofs.Graph.Tracking
import SchemaGraph.Proofs.Import.Traversal
/-!
# A loaded graph counts the references of the winners

Declaring and building go through the files of a walk in different orders: a file is declared before
the files that it imports and built after them. `tracks_buildAll` brings both together, because the
winners of a file are the same in both. `LoadedGraph.load_counts_references` is the result.
-/

namespace SchemaGraph

/-- Every member of a list has one of the keys, so grouping the list by the keys rearranges it. -/
theorem perm_flatMap_filter {α κ : Type} [DecidableEq κ] (key : α → κ) {ks : List κ}
    (hks : ks.Nodup) {xs : List α} (h : ∀ x ∈ xs, key x ∈ ks) :
    (ks.flatMap fun k => xs.filter (key · = k)).Perm xs := by
  induction ks generalizing xs with
  | nil =>
    have hnil : xs = [] := List.eq_nil_iff_forall_not_mem.2 fun x hx => by simpa using h x hx
    rw [hnil]
    exact .nil
  | cons k ks ih =>
    rw [List.nodup_cons] at hks
    have hothers : ∀ x ∈ xs.filter (key · ≠ k), key x ∈ ks := by
      intro x hx
      obtain ⟨hx, hne⟩ := List.mem_filter.1 hx
      rcases List.mem_cons.1 (h x hx) with heq | hmem
      · simp [heq] at hne
      · exact hmem
    have hrest := ih hks.2 hothers
    have hgroups : (ks.flatMap fun k' => (xs.filter (key · ≠ k)).filter (key · = k')) =
        ks.flatMap fun k' => xs.filter (key · = k') := by
      refine List.flatMap_congr fun k' hk' => ?_
      rw [List.filter_filter]
      refine List.filter_congr fun x _ => ?_
      by_cases hx : key x = k'
      · have hne : k' ≠ k := fun heq => hks.1 (heq ▸ hk')
        simp [hx, hne]
      · simp [hx]
    rw [hgroups] at hrest
    rw [List.flatMap_cons]
    refine (hrest.append_left _).trans ?_
    have hsplit := List.filter_append_perm (fun x => decide (key x = k)) xs
    simpa using hsplit

namespace Winner

/-- Each winner belongs to one of the files, in whatever order these are. -/
theorem flatMap_filter_perm {entered files : List (String × SchemaFile)}
    (hnodup : (entered.map (·.1)).Nodup) (hperm : files.Perm entered) :
    ((files.map (·.1)).flatMap fun source =>
      (ofFiles entered).filter (·.source = source)).Perm (ofFiles entered) := by
  have hsources := hperm.map (·.1)
  refine perm_flatMap_filter source (hsources.nodup_iff.2 hnodup) fun w hw => ?_
  obtain ⟨file, hfile, taken, hw, -⟩ := mem_inTurn hw
  rw [source_of_mem_ofFile hw]
  exact List.mem_map_of_mem (hperm.mem_iff.2 hfile)

end Winner

namespace Build

variable {r : Registry} {showMissing : Bool} {refs : List Reference} {b : Build}

/-- Before the file of a unit of which nothing has been processed. What was taken before it are
names of other units. -/
theorem Tracks.atFile {entered : List (String × SchemaFile)} (hnodup : (entered.map (·.1)).Nodup)
    (hr : Registry.Takes .empty (Winner.ofFiles entered) r) {file : String × SchemaFile}
    (hfile : file ∈ entered)
    (hbuilt : ∀ w ∈ Winner.ofFiles entered, w.source = file.1 → w.qualifiedName ∉ b.built)
    (h : Tracks r showMissing refs b) :
    At r showMissing (Winner.ofFiles entered) file.1 b.built refs
      (Winner.takenBefore entered file.1) b := by
  obtain ⟨-, htaken⟩ := Winner.ofFile_eq_filter hnodup hfile
  refine ⟨h, fun w hw hsource _ => ⟨fun hmem => absurd hmem (hbuilt w hw hsource), fun hmem => ?_⟩,
    fun _ _ _ => Iff.rfl⟩
  obtain ⟨v, hv, hname, hne⟩ := htaken _ hmem
  exact absurd hsource (hr.eq_of_qualifiedName_eq hv hw hname ▸ hne)

/-- Processing the file of one unit leaves the others as they were. -/
theorem At.notBuilt {winners : List Winner} {source : String} {before taken : List String}
    (h : At r showMissing winners source before refs taken b) {sources : List String}
    (hsource : source ∉ sources)
    (hbefore : ∀ w ∈ winners, w.source ∈ sources → w.qualifiedName ∉ before) :
    ∀ w ∈ winners, w.source ∈ sources → w.qualifiedName ∉ b.built :=
  fun w hw hmem hbuilt => hbefore w hw hmem
    ((h.claims.elsewhere w hw fun heq => hsource (heq ▸ hmem)).1 hbuilt)

/-- Files of different units are gone through in any order. -/
theorem tracks_files {entered : List (String × SchemaFile)} (hnodup : (entered.map (·.1)).Nodup)
    (hr : Registry.Takes .empty (Winner.ofFiles entered) r) (hindexed : r.Indexed)
    (renderer : Renderer) {files : List (String × SchemaFile)}
    (hfiles : ∀ file ∈ files, file ∈ entered) (hdistinct : (files.map (·.1)).Nodup)
    (hbuilt : ∀ w ∈ Winner.ofFiles entered, w.source ∈ files.map (·.1) →
      w.qualifiedName ∉ b.built)
    (h : Tracks r showMissing refs b) :
    Tracks r showMissing
      (refs ++ (files.map (·.1)).flatMap fun source =>
        ((Winner.ofFiles entered).filter (·.source = source)).flatMap (·.references))
      (files.forM (fun file => buildFile ⟨renderer, showMissing⟩ file.1 file.2) b).2 := by
  induction files generalizing refs b with
  | nil =>
    rw [List.map_nil, List.flatMap_nil, List.append_nil]
    exact h
  | cons file files ih =>
    obtain ⟨hwinners, -⟩ := Winner.ofFile_eq_filter hnodup (hfiles file (by simp))
    rw [List.map_cons, List.nodup_cons] at hdistinct
    have hat := h.atFile hnodup hr (hfiles file (by simp)) fun w hw hsource =>
      hbuilt w hw (by simp [hsource])
    have hfile := At.file hr hindexed renderer file hat fun v hv =>
      (List.mem_filter.1 (hwinners ▸ hv)).1
    have hrest := ih (fun f hf => hfiles f (by simp [hf])) hdistinct.2
      (hfile.notBuilt hdistinct.1 fun w hw hsource => hbuilt w hw (by simp [hsource])) hfile.tracks
    rw [hwinners, List.append_assoc] at hrest
    exact hrest

theorem forM_induction {α : Type} {P : Build → Prop} {f : α → Step Unit} {xs : List α}
    (h : ∀ x ∈ xs, ∀ b, P b → P (f x b).2) {b : Build} (hb : P b) : P (xs.forM f b).2 := by
  induction xs generalizing b with
  | nil => exact hb
  | cons x xs ih =>
    exact ih (fun y hy => h y (List.mem_cons_of_mem _ hy)) (h x List.mem_cons_self b hb)

/-- Drawing the placeholders keeps what drawing each of them keeps. -/
theorem drawPlaceholders_induction {P : Build → Prop} {context : BuildContext}
    (hattach : ∀ e ∈ b.symbols.registry.all, e.kind = .missing → ∀ b', P b' →
      P (attach context e [] b').2) (hb : P b) : P (drawPlaceholders context b).2 :=
  forM_induction (f := fun e => attach context e []) (fun e he => by
    obtain ⟨he, hcond⟩ := List.mem_filter.1 he
    exact hattach e he (of_decide_eq_true hcond).1) hb

theorem Tracks.drawPlaceholders (h : Tracks r showMissing refs b) (context : BuildContext) :
    Tracks r showMissing refs (drawPlaceholders context b).2 :=
  drawPlaceholders_induction (fun e _ _ _ hb => hb.attach context e []) h

/-- A build that starts has gone through nothing. -/
theorem tracks_start (hr : r.Coherent) (showMissing : Bool) :
    Tracks r showMissing [] (start (.ofRegistry r) .empty) :=
  ⟨Symbols.extends_ofRegistry hr, InclusionGraph.counts_empty, by simp, by simp, by simp⟩

/-- The build over the files of a walk goes through the references of all winners. -/
theorem tracks_buildAll {entered files : List (String × SchemaFile)}
    (hnodup : (entered.map (·.1)).Nodup) (hperm : files.Perm entered) (renderer : Renderer)
    (showMissing : Bool) :
    Tracks (Registry.empty.declareFiles entered) showMissing
      ((Winner.ofFiles entered).flatMap (·.references))
      (buildAll ⟨renderer, showMissing⟩ files
        (start (.ofRegistry (Registry.empty.declareFiles entered)) .empty)).2 := by
  have hcoherent := Registry.coherent_declareFiles entered
  have hfiles := tracks_files hnodup (Registry.takes_declareFiles entered) hcoherent.indexed
    renderer (fun file hfile => hperm.mem_iff.1 hfile)
    ((hperm.map (·.1)).nodup_iff.2 hnodup) (fun w _ _ hmem => by cases hmem)
    (tracks_start hcoherent showMissing)
  -- Building goes unit by unit, and each winner belongs to one of the units.
  have hreferences := (Winner.flatMap_filter_perm hnodup hperm).flatMap_right (f := (·.references))
  rw [List.flatMap_assoc] at hreferences
  rw [List.nil_append] at hfiles
  have hdone := hfiles.perm hreferences
  exact hdone.drawPlaceholders ⟨renderer, showMissing⟩

end Build

namespace LoadedGraph

/-- What loading successfully means: the walk succeeds, and the build over its files reports no
error. -/
theorem load_eq_ok {loader : Loader} {options : RunOptions} {renderer : Renderer} {root : String}
    {g : LoadedGraph} (h : load loader options renderer root = .ok g) :
    ∃ walk, Walk.run loader options root .empty = (.ok (), walk) ∧
      g.symbols = (buildOf renderer options walk).symbols ∧
      g.graph = (buildOf renderer options walk).graph ∧ g.options = options ∧
      g.units = walk.units ∧ (buildOf renderer options walk).report.errors = [] := by
  unfold load at h
  split at h
  · cases h
  · rename_i walk hrun
    dsimp only at h
    split at h
    · cases h
    · rename_i hnil
      simp only [Except.ok.injEq] at h
      subst h
      exact ⟨walk, hrun, rfl, rfl, rfl, rfl, hnil⟩

/-- The build over the files of a walk goes through the references of all winners among them. -/
theorem tracks_buildOf {walk : Walk} {entered : List (String × SchemaFile)}
    (h : Walk.Traverses (.start .empty) walk entered) (renderer : Renderer) (options : RunOptions) :
    Build.Tracks walk.registry options.showMissingTypes
      ((Winner.ofFiles entered).flatMap (·.references)) (buildOf renderer options walk) := by
  obtain ⟨hperm, hregistry⟩ := h.of_start
  have htracks := Build.tracks_buildAll h.nodup hperm renderer options.showMissingTypes
  rw [← hregistry] at htracks
  exact htracks

/-- A loaded graph has gone through the references of all winners of its files. -/
theorem load_tracks {loader : Loader} {options : RunOptions} {renderer : Renderer} {root : String}
    {g : LoadedGraph} (h : load loader options renderer root = .ok g) :
    ∃ walk entered b, Walk.run loader options root .empty = (.ok (), walk) ∧
      walk.files.Perm entered ∧ walk.registry = Registry.empty.declareFiles entered ∧
      Build.Tracks walk.registry options.showMissingTypes
        ((Winner.ofFiles entered).flatMap (·.references)) b ∧
      g.symbols = b.symbols ∧ g.graph = b.graph ∧ g.options = options ∧ b.report.errors = [] := by
  obtain ⟨walk, hrun, hsymbols, hgraph, hoptions, -, hnil⟩ := load_eq_ok h
  obtain ⟨entered, htraverses⟩ := Walk.run_traverses hrun
  obtain ⟨hperm, hregistry⟩ := htraverses.of_start
  exact ⟨walk, entered, buildOf renderer options walk, hrun, hperm, hregistry,
    tracks_buildOf htraverses renderer options, hsymbols, hgraph, hoptions, hnil⟩

end LoadedGraph

/-- Whether a reference stands in the given field of the entity `o` and means the entity `t`. -/
def Reference.leads (r : Registry) (showMissing : Bool) (o field t : String) (ref : Reference) :
    Bool :=
  ref.owner = o && ref.field = field &&
    match r.referent showMissing o ref.typeName with
    | .ok (.entity q) => q = t
    | _ => false

/-- Node identifiers tell the entities apart, so the edge of a reference tells where it stands and
what it means. -/
theorem Registry.edgeOf?_eq_some_iff_leads {r r' : Registry} (hids : r'.Identified)
    {showMissing : Bool} {ref : Reference} {o t field : String} {owner target : Entity}
    (howner : r'.get? o = some owner) (htarget : r'.get? t = some target) :
    r.edgeOf? r' showMissing ref = some (⟨owner.nodeId, field⟩, target.nodeId) ↔
      ref.leads r showMissing o field t = true := by
  unfold Reference.leads
  rw [edgeOf?_eq_some_iff, Bool.and_eq_true, Bool.and_eq_true, decide_eq_true_eq,
    decide_eq_true_eq]
  constructor
  · rintro ⟨q, owner', target', hreferent, howner', htarget', heq⟩
    rw [Prod.mk.injEq, EdgeKey.mk.injEq] at heq
    obtain ⟨⟨hownerId, hfield⟩, htargetId⟩ := heq
    have ho := hids.qualifiedName_eq howner' howner hownerId
    have ht := hids.qualifiedName_eq htarget' htarget htargetId
    rw [ho] at hreferent
    simp [ho, hfield, hreferent, ht]
  · rintro ⟨⟨ho, hfield⟩, hleads⟩
    split at hleads
    · rename_i q hreferent
      have hq : q = t := of_decide_eq_true hleads
      exact ⟨t, owner, target, by rw [ho, hreferent, hq], ho ▸ howner, htarget, by rw [hfield]⟩
    · cases hleads

namespace LoadedGraph

/--
**The inclusion graph is the reference graph.** The winners among the declarations of all files that
the walk has entered are the entities of its registry. Every reference in the body of a winner means
something there; its owner is an entity of the graph, and so is the entity or the placeholder that
it means, to which an edge is recorded. The count between two entities is how many references in
that field of the one mean the other: in 32 bits, and exactly as long as the number fits. Nothing
else is recorded.
-/
theorem load_counts_references {loader : Loader} {options : RunOptions} {renderer : Renderer}
    {root : String} {g : LoadedGraph} (h : load loader options renderer root = .ok g) :
    ∃ walk entered, Walk.run loader options root .empty = (.ok (), walk) ∧
      walk.files.Perm entered ∧
      Registry.empty.Takes (Winner.ofFiles entered) walk.registry ∧
      (∀ w ∈ Winner.ofFiles entered, ∀ ref ∈ w.references, ∃ owner referent,
        g.registry.get? ref.owner = some owner ∧
        walk.registry.referent options.showMissingTypes ref.owner ref.typeName = .ok referent ∧
        ∀ t, referent = .entity t → ∃ target, g.registry.get? t = some target ∧
          (g.graph.count? ⟨owner.nodeId, ref.field⟩ target.nodeId).isSome) ∧
      (∀ o t owner target field, g.registry.get? o = some owner → g.registry.get? t = some target →
        let n := ((Winner.ofFiles entered).flatMap (·.references)).countP
          (Reference.leads walk.registry options.showMissingTypes o field t)
        g.graph.count? ⟨owner.nodeId, field⟩ target.nodeId = InclusionGraph.storedCount n ∧
          (n < 2 ^ 32 → ((g.graph.count? ⟨owner.nodeId, field⟩ target.nodeId).getD 0 : Nat) = n)) ∧
      ∀ key targets, g.graph.edges.get? key = some targets →
        (∃ id, (targets.get? id).isSome) ∧ ∀ id, (targets.get? id).isSome →
          ∃ o t owner target, g.registry.get? o = some owner ∧ g.registry.get? t = some target ∧
            key.owner = owner.nodeId ∧ id = target.nodeId := by
  obtain ⟨walk, entered, b, hrun, hperm, hregistry, htracks, hsymbols, hgraph, -, hnil⟩ :=
    load_tracks h
  rw [registry, hsymbols, hgraph]
  refine ⟨walk, entered, hrun, hperm, hregistry ▸ Registry.takes_declareFiles entered,
    fun w hw ref href => ?_, ?_, ?_⟩
  · have hmem := List.mem_flatMap.2 ⟨w, hw, href⟩
    obtain ⟨owner, howner⟩ :=
      Option.isSome_iff_exists.1 (htracks.symbols.grows.isSome (htracks.owned ref hmem))
    obtain ⟨referent, hreferent⟩ := htracks.errors hnil ref hmem
    refine ⟨owner, referent, howner, hreferent, ?_⟩
    rintro t rfl
    obtain ⟨target, htarget⟩ := Option.isSome_iff_exists.1 (htracks.registered ref hmem hreferent)
    exact ⟨target, htarget,
      Registry.isSome_count?_of_counts htracks.counts hmem hreferent howner htarget⟩
  · intro o t owner target field howner htarget n
    have hids := htracks.symbols.coherent.identified
    have hcount : b.graph.count? ⟨owner.nodeId, field⟩ target.nodeId =
        InclusionGraph.storedCount n := by
      rw [htracks.counts.count, List.count_filterMap]
      refine congrArg _ (List.countP_congr fun ref _ => ?_)
      rw [beq_iff_eq, Registry.edgeOf?_eq_some_iff_leads hids howner htarget]
    exact ⟨hcount, fun hfits => by rw [hcount, InclusionGraph.storedCount_getD hfits]⟩
  · exact fun key targets hget => ⟨htracks.counts.inhabited hget, fun id hid =>
      Registry.ends_of_counts htracks.counts hget hid⟩

/-- Two units: the message `A` of the first names the message `B` of the second, twice in one field
of a oneof and once in a nested message, and so does a method; it also names a missing type. -/
def pairTexts : Table String String :=
  .ofList
    [("a", "import \"b\";" ++
        "message A\x7boneof o\x7bB x=1;B x=2;\x7dGone y=4;message N\x7bB x=3;\x7d\x7d" ++
        "service S\x7brpc M(A)returns(B);\x7d"),
      ("b", "message B\x7b\x7dmessage A\x7bB x=1;\x7d")]

/-- Loading them succeeds. The field `x` of the first `A` leads to `B`, and the field `y` to the
placeholder for `Gone`. -/
theorem load_pairTexts : ∃ g walk entered owner target gone,
    load (.ofTable pairTexts) ⟨false, true⟩ (fun _ _ => "") "a" = .ok g ∧
      Walk.run (.ofTable pairTexts) ⟨false, true⟩ "a" .empty = (.ok (), walk) ∧
      Registry.empty.Takes (Winner.ofFiles entered) walk.registry ∧
      g.registry.get? "A" = some owner ∧ g.registry.get? "B" = some target ∧
      g.registry.get? "missing.A_100.Gone" = some gone ∧ gone.kind = .missing ∧
      g.graph.count? ⟨owner.nodeId, "x"⟩ target.nodeId = some 2 ∧
      InclusionGraph.storedCount (((Winner.ofFiles entered).flatMap (·.references)).countP
        (Reference.leads walk.registry true "A" "x" "B")) = some 2 ∧
      g.graph.count? ⟨owner.nodeId, "y"⟩ gone.nodeId = some 1 ∧
      InclusionGraph.storedCount (((Winner.ofFiles entered).flatMap (·.references)).countP
        (Reference.leads walk.registry true "A" "y" "missing.A_100.Gone")) = some 1 := by
  have hloaded : ((load (.ofTable pairTexts) ⟨false, true⟩ (fun _ _ => "") "a").toOption.any
      fun g => (g.registry.get? "A").any fun owner => (g.registry.get? "B").any fun target =>
        (g.registry.get? "missing.A_100.Gone").any fun gone => gone.kind == .missing &&
          g.graph.count? ⟨owner.nodeId, "x"⟩ target.nodeId == some 2 &&
            g.graph.count? ⟨owner.nodeId, "y"⟩ gone.nodeId == some 1) = true := by
    decide +kernel
  obtain ⟨g, hload, hg⟩ := exists_ok_of_any hloaded
  simp only [Option.any_eq_true, Bool.and_eq_true, beq_iff_eq] at hg
  obtain ⟨owner, howner, target, htarget, gone, hgone, ⟨hkind, htwo⟩, hone⟩ := hg
  obtain ⟨walk, entered, hrun, -, htakes, -, hcount, -⟩ := load_counts_references hload
  exact ⟨g, walk, entered, owner, target, gone, hload, hrun, htakes, howner, htarget, hgone, hkind,
    htwo, (hcount "A" "B" owner target "x" howner htarget).1.symm.trans htwo, hone,
    (hcount "A" "missing.A_100.Gone" owner gone "y" howner hgone).1.symm.trans hone⟩

end LoadedGraph
end SchemaGraph
