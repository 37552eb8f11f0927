import SchemaGraph.Proofs.Graph.Drawings
import SchemaGraph.Proofs.Graph.Expansion
import SchemaGraph.Proofs.Import.Rejections
import SchemaGraph.Proofs.Registry.Services
/-!
# Methods in the registry and in the graph

A service is processed with all methods of its declaration, also with those that have been rejected
because their names were taken. Where none has been, registry and graph agree
(`LoadedGraph.load_methods_agree`): each method leads to the two types of its signature and to
nothing else, and the service is drawn with one row for each of its methods.
-/

namespace SchemaGraph

/-- The targets in a field of the owner are what one type stands for: none for a scalar, and
otherwise one entity, recorded once. -/
def InclusionGraph.LeadsTo (graph : InclusionGraph) (r : Registry) (owner : Entity)
    (field : String) : Referent → Prop
  | .scalar => graph.targets? owner.nodeId field = none
  | .entity t => ∃ target targets, r.get? t = some target ∧
      graph.targets? owner.nodeId field = some targets ∧
      ∀ id n, targets.get? id = some n ↔ id = target.nodeId ∧ n = 1

/-- The only reference in a field decides what its targets are. -/
theorem InclusionGraph.Counts.leadsTo {graph : InclusionGraph} {r r' : Registry}
    {showMissing : Bool} {refs others : List Reference} {ref : Reference}
    (h : graph.Counts (refs.filterMap (r.edgeOf? r' showMissing)))
    (hperm : refs.Perm (ref :: others))
    (hothers : ∀ other ∈ others, other.owner = ref.owner → other.field ≠ ref.field)
    (hids : r'.Identified) {owner : Entity} (howner : r'.get? ref.owner = some owner)
    {referent : Referent}
    (hreferent : r.referent showMissing ref.owner ref.typeName = .ok referent)
    (hregistered : ∀ t, referent = .entity t → (r'.get? t).isSome) :
    graph.LeadsTo r' owner ref.field referent := by
  have hcounts := h.perm (hperm.filterMap _)
  have hkeys : ∀ e ∈ others.filterMap (r.edgeOf? r' showMissing),
      e.1 ≠ ⟨owner.nodeId, ref.field⟩ := by
    intro e he heq
    obtain ⟨other, hother, he⟩ := List.mem_filterMap.1 he
    obtain ⟨t, owner', target, -, howner', -, rfl⟩ := Registry.edgeOf?_eq_some_iff.1 he
    obtain ⟨hid, hfield⟩ := EdgeKey.mk.inj heq
    exact hothers other hother (hids.qualifiedName_eq howner' howner hid) hfield
  cases referent with
  | scalar =>
    have hnone : r.edgeOf? r' showMissing ref = none :=
      Registry.edgeOf?_eq_none fun t ht => by
        rw [hreferent] at ht
        cases ht
    rw [List.filterMap_cons_none hnone] at hcounts
    exact hcounts.get?_eq_none hkeys
  | entity t =>
    obtain ⟨target, htarget⟩ := Option.isSome_iff_exists.1 (hregistered t rfl)
    rw [List.filterMap_cons_some (Registry.edgeOf?_eq_some hreferent howner htarget)] at hcounts
    obtain ⟨targets, hget, htargets⟩ := hcounts.targets_of_cons hkeys
    exact ⟨target, targets, htarget, hget, htargets⟩

namespace Build

variable {r : Registry} {showMissing : Bool} {refs others : List Reference} {b : Build}

/-- The only reference in a field has been resolved, and the field leads to what it stands for. -/
theorem Tracks.leadsTo (h : Tracks r showMissing refs b) (hr : r.Indexed)
    (hnil : b.report.errors = []) {ref : Reference} (hperm : refs.Perm (ref :: others))
    (hothers : ∀ other ∈ others, other.owner = ref.owner → other.field ≠ ref.field)
    {owner : Entity} (howner : b.symbols.registry.get? ref.owner = some owner) :
    ∃ referent, (b.symbols.resolve showMissing ref.owner ref.typeName).1 = .ok referent ∧
      b.graph.LeadsTo b.symbols.registry owner ref.field referent := by
  have href : ref ∈ refs := hperm.mem_iff.2 List.mem_cons_self
  obtain ⟨referent, hreferent⟩ := h.errors hnil ref href
  refine ⟨referent, ?_, h.counts.leadsTo hperm hothers h.symbols.coherent.identified howner
    hreferent fun t ht => h.registered ref href (ht ▸ hreferent)⟩
  rw [h.symbols.resolve_eq hr (h.owned ref href), hreferent]

end Build

namespace Service.HoldsAt

variable {decl : Service} {entered files : List (String × SchemaFile)}
  {file : String × SchemaFile} {before after : List Outline}

/-- The service is drawn with the methods of its declaration. -/
theorem draw_mem (h : decl.HoldsAt entered file before after) (hfile : file ∈ files)
    (kinds : String → String → FieldKind) :
    .draw (decl.nameIn file) (decl.rpcs.map (Rpc.row (kinds (decl.nameIn file)))) ∈
      Build.tasks kinds entered files := by
  refine List.mem_flatMap.2 ⟨file, hfile, ?_⟩
  rw [h.outline, Outline.tasksIn_append, Outline.tasksIn]
  exact List.mem_append_right _ (List.mem_append_left _ (Outline.draw_mem_tasks kinds h.free _ _))

end Service.HoldsAt

/-- The row of a method with the given name and signature, for the kinds of types. -/
def RpcSignature.row (kind : String → FieldKind) (name : String) (s : RpcSignature) : BodyRow :=
  .rpc name s.request s.response s.clientStreaming s.serverStreaming (kind s.request)
    (kind s.response)

/-- Nothing that stands inside the entity `q` has been rejected. -/
def Walk.Keeps (walk : Walk) (q : String) : Prop :=
  ∀ d ∈ walk.duplicates, ∀ name, d.qualifiedName ≠ Name.qualify q name

namespace LoadedGraph

/-- The request and the response of a method lead to what the types of its signature stand for. -/
def MethodAgrees (g : LoadedGraph) (method : Entity) (signature : RpcSignature) : Prop :=
  ∃ service request response, g.registry.get? signature.service = some service ∧
    (g.symbols.resolve g.options.showMissingTypes signature.service signature.request).1 =
      .ok request ∧
    (g.symbols.resolve g.options.showMissingTypes signature.service signature.response).1 =
      .ok response ∧
    g.graph.LeadsTo g.registry service (Build.requestField method.name) request ∧
    g.graph.LeadsTo g.registry service (Build.responseField method.name) response

variable {loader : Loader} {options : RunOptions} {renderer : Renderer} {root : String}
  {g : LoadedGraph} {walk : Walk} {entered : List (String × SchemaFile)}

/-- A successful load after the given walk, with what the walk has entered and rejected. -/
theorem load_built (h : load loader options renderer root = .ok g)
    (hrun : Walk.run loader options root .empty = (.ok (), walk)) :
    ∃ entered, Walk.Traverses (.start .empty) walk entered ∧
      walk.duplicates.map (·.qualifiedName) =
        Outline.lostIn (entered.flatMap Outline.ofFile) [] ∧
      g.symbols = (buildOf renderer options walk).symbols ∧
      g.graph = (buildOf renderer options walk).graph ∧ g.options = options ∧
      g.units = walk.units ∧ (buildOf renderer options walk).report.errors = [] := by
  obtain ⟨walk', hrun', hsymbols, hgraph, hoptions, hunits, hnil⟩ := load_eq_ok h
  obtain rfl : walk' = walk := (Prod.mk.inj (hrun'.symm.trans hrun)).2
  obtain ⟨entered, htraverses, hrejected⟩ := Walk.run_rejected hrun
  exact ⟨entered, htraverses, hrejected, hsymbols, hgraph, hoptions, hunits, hnil⟩

/-- What keeps all names inside a service has lost none of them. -/
theorem not_mem_lostIn_of_keeps (hrejected : walk.duplicates.map (·.qualifiedName) =
    Outline.lostIn (entered.flatMap Outline.ofFile) []) {service : String}
    (hkeeps : walk.Keeps service) (name : String) :
    Name.qualify service name ∉ Outline.lostIn (entered.flatMap Outline.ofFile) [] := by
  intro hmem
  rw [← hrejected] at hmem
  obtain ⟨d, hd, heq⟩ := List.mem_map.1 hmem
  exact hkeeps d hd name heq

/-- A service that is registered stands in one of the files. -/
theorem exists_service (h : Walk.Traverses (.start .empty) walk entered) {service : String}
    {owner : Entity}
    (howner : (buildOf renderer options walk).symbols.registry.get? service = some owner)
    (hkind : owner.kind = .service) :
    ∃ (decl : Service) (file : String × SchemaFile) (before after : List Outline),
      decl.HoldsAt entered file before after ∧ service = decl.nameIn file := by
  obtain ⟨-, hregistry⟩ := h.of_start
  have htakes := hregistry ▸ Registry.takes_declareFiles entered
  obtain ⟨w, hw, rfl, hdescribes⟩ := htakes.exists_describes
    (tracks_buildOf h renderer options).symbols.grows howner (by rw [hkind]; decide)
  exact Winner.exists_service h.nodup hw (hdescribes.kind.symm.trans hkind)

/-- What is registered of a method whose service keeps all its names. -/
theorem method_of_rpc (h : Walk.Traverses (.start .empty) walk entered) {decl : Service}
    {file : String × SchemaFile} {before after : List Outline}
    (hholds : decl.HoldsAt entered file before after)
    (hkept : ∀ name, Name.qualify (decl.nameIn file) name ∉
      Outline.lostIn (entered.flatMap Outline.ofFile) [])
    {q : String} {method : Entity} {signature : RpcSignature} :
    (buildOf renderer options walk).symbols.registry.Method q method signature ∧
        signature.service = decl.nameIn file ↔
      ∃ rpc ∈ decl.rpcs, q = Name.qualify (decl.nameIn file) rpc.name ∧
        (buildOf renderer options walk).symbols.registry.get? q = some method ∧
        method.name = rpc.name ∧
        signature = ⟨decl.nameIn file, rpc.requestType, rpc.responseType, rpc.clientStreaming,
          rpc.serverStreaming⟩ := by
  obtain ⟨-, hregistry⟩ := h.of_start
  have htakes := hregistry ▸ Registry.takes_declareFiles entered
  have hgrows := (tracks_buildOf h renderer options).symbols.grows
  constructor
  · rintro ⟨⟨hget, hkind, hsignature⟩, hservice⟩
    obtain ⟨w, hw, rfl, hdescribes⟩ :=
      htakes.exists_describes hgrows hget (by rw [hkind]; decide)
    have hwrpc := hdescribes.rpc.symm.trans hsignature
    obtain ⟨rpc, hrpc, rfl⟩ := hholds.exists_rpc h.nodup hkept hw
      (hdescribes.kind.symm.trans hkind) hwrpc hservice
    exact ⟨rpc, hrpc, rfl, hget, hdescribes.name, (Option.some.inj hwrpc).symm⟩
  · rintro ⟨rpc, hrpc, rfl, hget, hname, rfl⟩
    obtain ⟨e, he, hdescribes⟩ :=
      htakes.exists_registered hgrows ((hholds.methods h.nodup hkept).1 rpc hrpc)
    rw [Option.some.inj (hget.symm.trans he)]
    exact ⟨⟨he, hdescribes.kind, hdescribes.rpc⟩, rfl⟩

/-- Both fields of a method lead to what its types stand for, if its service keeps all its names. -/
theorem exists_leadsTo (h : Walk.Traverses (.start .empty) walk entered)
    (hnil : (buildOf renderer options walk).report.errors = []) {decl : Service}
    {file : String × SchemaFile} {before after : List Outline}
    (hholds : decl.HoldsAt entered file before after)
    (hkept : ∀ name, Name.qualify (decl.nameIn file) name ∉
      Outline.lostIn (entered.flatMap Outline.ofFile) [])
    {owner : Entity}
    (howner : (buildOf renderer options walk).symbols.registry.get? (decl.nameIn file) = some owner)
    {rpc : Rpc} (hrpc : rpc ∈ decl.rpcs) {ref : Reference}
    (href : ref ∈ rpc.references (decl.nameIn file)) :
    ∃ referent, ((buildOf renderer options walk).symbols.resolve options.showMissingTypes
        (decl.nameIn file) ref.typeName).1 = .ok referent ∧
      (buildOf renderer options walk).graph.LeadsTo
        (buildOf renderer options walk).symbols.registry owner ref.field referent := by
  obtain ⟨-, hregistry⟩ := h.of_start
  have hindexed := (hregistry ▸ Registry.coherent_declareFiles entered).indexed
  have htracks := tracks_buildOf h renderer options
  obtain ⟨others, hperm, hothers⟩ := hholds.references_perm h.nodup hkept hrpc
  rcases List.mem_cons.1 href with rfl | href
  · refine htracks.leadsTo hindexed hnil hperm (fun other hother heq => ?_) howner
    rcases List.mem_cons.1 hother with rfl | hother
    · exact (Build.requestField_ne_responseField _ _).symm
    · exact (hothers other hother heq).1
  · obtain rfl := List.mem_singleton.1 href
    refine htracks.leadsTo hindexed hnil (hperm.trans (.swap _ _ _)) (fun other hother heq => ?_)
      howner
    rcases List.mem_cons.1 hother with rfl | hother
    · exact Build.requestField_ne_responseField _ _
    · exact (hothers other hother heq).2

/-- The methods registered for a service that keeps all its names have the rows of its
declaration. -/
theorem exists_methods (h : Walk.Traverses (.start .empty) walk entered) {decl : Service}
    {file : String × SchemaFile} {before after : List Outline}
    (hholds : decl.HoldsAt entered file before after)
    (hkept : ∀ name, Name.qualify (decl.nameIn file) name ∉
      Outline.lostIn (entered.flatMap Outline.ofFile) [])
    (kind : String → FieldKind) :
    ∃ methods : List (Entity × RpcSignature), methods.Nodup ∧
      (∀ m, m ∈ methods ↔
        (buildOf renderer options walk).symbols.registry.Method m.1.qualifiedName m.1 m.2 ∧
          m.2.service = decl.nameIn file) ∧
      methods.map (fun m => m.2.row kind m.1.name) = decl.rpcs.map (Rpc.row kind) := by
  obtain ⟨-, hregistry⟩ := h.of_start
  have htakes := hregistry ▸ Registry.takes_declareFiles entered
  have hsymbols := (tracks_buildOf h renderer options).symbols
  obtain ⟨hwinners, hnames⟩ := hholds.methods h.nodup hkept
  have hregistered (rpc : {rpc // rpc ∈ decl.rpcs}) :
      ∃ e, (buildOf renderer options walk).symbols.registry.get?
          (Name.qualify (decl.nameIn file) rpc.1.name) = some e ∧ e.name = rpc.1.name := by
    obtain ⟨e, he, hdescribes⟩ := htakes.exists_registered hsymbols.grows (hwinners rpc.1 rpc.2)
    exact ⟨e, he, hdescribes.name⟩
  choose entity hget hname using hregistered
  let method (rpc : {rpc // rpc ∈ decl.rpcs}) : Entity × RpcSignature :=
    (entity rpc, ⟨decl.nameIn file, rpc.1.requestType, rpc.1.responseType, rpc.1.clientStreaming,
      rpc.1.serverStreaming⟩)
  have hinj : Function.Injective method := by
    intro rpc rpc' heq
    have hsame := congrArg (fun m => m.1.name) heq
    simp only [method, hname] at hsame
    exact Subtype.ext (List.inj_on_of_nodup_map hnames rpc.2 rpc'.2 hsame)
  refine ⟨decl.rpcs.attach.map method, (List.nodup_attach.2 hnames.of_map).map hinj, fun m => ?_,
    ?_⟩
  · rw [method_of_rpc h hholds hkept, List.mem_map]
    constructor
    · rintro ⟨rpc, -, rfl⟩
      have hstored := hsymbols.coherent.indexed.stored (hget rpc)
      exact ⟨rpc.1, rpc.2, hstored, hstored ▸ hget rpc, hname rpc, rfl⟩
    · rintro ⟨rpc, hrpc, hq, hm, -, hsignature⟩
      have hsame := (hget ⟨rpc, hrpc⟩).symm.trans (hq ▸ hm)
      exact ⟨⟨rpc, hrpc⟩, List.mem_attach _ _,
        Prod.ext (Option.some.inj hsame) hsignature.symm⟩
  · rw [List.map_map]
    have hrow : (fun m : Entity × RpcSignature => m.2.row kind m.1.name) ∘ method =
        fun rpc => Rpc.row kind rpc.1 := by
      funext rpc
      simp only [Function.comp, method, hname]
      rfl
    rw [hrow]
    exact List.attach_map_val ..

/-- The service of a method is registered. If it keeps all its names, both fields of the method lead
to what its types stand for. -/
theorem method_agrees (h : load loader options renderer root = .ok g)
    (hrun : Walk.run loader options root .empty = (.ok (), walk)) {q : String} {method : Entity}
    {signature : RpcSignature} (hmethod : g.registry.Method q method signature) :
    (∃ owner, g.registry.get? signature.service = some owner ∧ owner.kind = .service) ∧
      (walk.Keeps signature.service → g.MethodAgrees method signature) := by
  obtain ⟨entered, htraverses, hrejected, hsymbols, hgraph, hoptions, -, hnil⟩ := load_built h hrun
  obtain ⟨-, hregistry⟩ := htraverses.of_start
  have htakes := hregistry ▸ Registry.takes_declareFiles entered
  have hgrows := (tracks_buildOf htraverses renderer options).symbols.grows
  unfold MethodAgrees registry at *
  rw [hsymbols] at hmethod ⊢
  rw [hgraph, hoptions]
  obtain ⟨hget, hkind, hsignature⟩ := id hmethod
  obtain ⟨w, hw, -, hdescribes⟩ := htakes.exists_describes hgrows hget (by rw [hkind]; decide)
  obtain ⟨-, v, hv, hv', hservice⟩ := Winner.of_rpc hw (hdescribes.kind.symm.trans hkind)
    (hdescribes.rpc.symm.trans hsignature)
  obtain ⟨owner, howner, hdescribes'⟩ := htakes.exists_registered hgrows hv
  rw [hv'] at howner
  have hkind' : owner.kind = .service := hdescribes'.kind.trans hservice
  refine ⟨⟨owner, howner, hkind'⟩, fun hkeeps => ?_⟩
  obtain ⟨decl, file, before, after, hholds, hdecl⟩ := exists_service htraverses howner hkind'
  rw [hdecl] at howner hkeeps
  have hkept := not_mem_lostIn_of_keeps hrejected hkeeps
  obtain ⟨rpc, hrpc, -, -, hname, rfl⟩ :=
    (method_of_rpc htraverses hholds hkept).1 ⟨hmethod, hdecl⟩
  obtain ⟨request, hrequest, hleads⟩ := exists_leadsTo htraverses hnil hholds hkept howner hrpc
    List.mem_cons_self
  obtain ⟨response, hresponse, hleads'⟩ := exists_leadsTo htraverses hnil hholds hkept howner
    hrpc (List.mem_cons_of_mem _ List.mem_cons_self)
  rw [hname]
  exact ⟨owner, request, response, howner, hrequest, hresponse, hleads, hleads'⟩

/-- A service that keeps all its names is drawn with one row for each of its methods. -/
theorem service_artifact (h : load loader options renderer root = .ok g)
    (hrun : Walk.run loader options root .empty = (.ok (), walk)) {service : String}
    {owner : Entity} (howner : g.registry.get? service = some owner)
    (hkind : owner.kind = .service) (hkeeps : walk.Keeps service) :
    ∃ methods : List (Entity × RpcSignature), methods.Nodup ∧
      (∀ m, m ∈ methods ↔
        g.registry.Method m.1.qualifiedName m.1 m.2 ∧ m.2.service = service) ∧
      owner.artifact = some (renderer owner.undrawn (methods.map fun m =>
        m.2.row (walk.registry.fieldKind options.showMissingTypes service) m.1.name)) := by
  obtain ⟨entered, htraverses, hrejected, hsymbols, -⟩ := load_built h hrun
  obtain ⟨hperm, hregistry⟩ := htraverses.of_start
  unfold registry at *
  rw [hsymbols] at howner ⊢
  obtain ⟨decl, file, before, after, hholds, rfl⟩ := exists_service htraverses howner hkind
  obtain ⟨methods, hnodup, hmem, hrows⟩ := exists_methods htraverses hholds
    (not_mem_lostIn_of_keeps hrejected hkeeps)
    (walk.registry.fieldKind options.showMissingTypes (decl.nameIn file))
  refine ⟨methods, hnodup, hmem, ?_⟩
  obtain ⟨e, he, -⟩ := (tracks_buildOf htraverses renderer options).symbols.grows.declared howner
    (by rw [hkind]; decide)
  have hdraw := hholds.draw_mem (hperm.mem_iff.2 hholds.mem)
    (walk.registry.fieldKind options.showMissingTypes)
  rw [hregistry] at he hdraw
  obtain ⟨e', he', hundrawn, hartifact⟩ :=
    Build.drawn_buildAll htraverses.nodup hperm renderer options.showMissingTypes he hdraw
  rw [← hregistry] at he'
  have hsame : owner = e' := Option.some.inj (howner.symm.trans he')
  rw [hrows, hsame, hundrawn, hartifact, hregistry]

/--
**Registry and graph agree on methods.** Every method that is registered belongs to a service that
is. If nothing inside a service has been rejected, the request and the response of each of its
methods lead to what the types of the signature stand for, and the service is drawn with one row for
each of its methods.
-/
theorem load_methods_agree (h : load loader options renderer root = .ok g) :
    ∃ walk, Walk.run loader options root .empty = (.ok (), walk) ∧
      (∀ q method signature, g.registry.Method q method signature →
        ∃ owner, g.registry.get? signature.service = some owner ∧ owner.kind = .service) ∧
      ∀ service owner, g.registry.get? service = some owner → owner.kind = .service →
        walk.Keeps service →
        (∀ q method signature, g.registry.Method q method signature →
          signature.service = service → g.MethodAgrees method signature) ∧
        ∃ methods : List (Entity × RpcSignature), methods.Nodup ∧
          (∀ m, m ∈ methods ↔
            g.registry.Method m.1.qualifiedName m.1 m.2 ∧ m.2.service = service) ∧
          owner.artifact = some (renderer owner.undrawn (methods.map fun m =>
            m.2.row (walk.registry.fieldKind options.showMissingTypes service) m.1.name)) := by
  obtain ⟨walk, hrun, -⟩ := load_eq_ok h
  refine ⟨walk, hrun, fun q method signature hmethod => (method_agrees h hrun hmethod).1,
    fun service owner howner hkind hkeeps => ⟨fun q method signature hmethod hservice => ?_,
      service_artifact h hrun howner hkind hkeeps⟩⟩
  exact (method_agrees h hrun hmethod).2 (hservice ▸ hkeeps)

/-- A service of two methods: both lead to their types, and the service has two rows. -/
theorem load_serviceTexts : ∃ g walk service method signature,
    load (.ofTable serviceTexts) ⟨false, true⟩ (fun _ rows => toString rows.length) "a" = .ok g ∧
      Walk.run (.ofTable serviceTexts) ⟨false, true⟩ "a" .empty = (.ok (), walk) ∧
      g.registry.get? "S" = some service ∧ service.kind = .service ∧ walk.Keeps "S" ∧
      g.registry.Method "S.M" method signature ∧ signature.service = "S" ∧
      g.MethodAgrees method signature := by
  have hloaded : ((load (.ofTable serviceTexts) ⟨false, true⟩
      (fun _ rows => toString rows.length) "a").toOption.any fun g =>
        ((g.registry.get? "S").any (·.kind == .service)) &&
          (g.registry.get? "S.M").any fun method =>
            method.kind == .rpc && method.rpc == some ⟨"S", "A", "A", false, false⟩) = true := by
    decide +kernel
  have hwalked :
      (Walk.run (.ofTable serviceTexts) ⟨false, true⟩ "a" .empty).2.duplicates.isEmpty = true := by
    decide +kernel
  obtain ⟨g, hload, hg⟩ := exists_ok_of_any hloaded
  simp only [Bool.and_eq_true, Option.any_eq_true, beq_iff_eq] at hg
  obtain ⟨⟨service, hservice, hkind⟩, method, hmethod, hrpc, hsignature⟩ := hg
  obtain ⟨walk, hrun, -, hagree⟩ := load_methods_agree hload
  rw [hrun] at hwalked
  have hkept : walk.duplicates = [] := List.isEmpty_iff.1 hwalked
  have hkeeps : walk.Keeps "S" := fun d hd => by simp [hkept] at hd
  have hmethod : g.registry.Method "S.M" method ⟨"S", "A", "A", false, false⟩ :=
    ⟨hmethod, hrpc, hsignature⟩
  exact ⟨g, walk, service, method, _, hload, hrun, hservice, hkind, hkeeps, hmethod, rfl,
    (hagree "S" service hservice hkind hkeeps).1 "S.M" method _ hmethod rfl⟩

/-- A service that declares two methods of one name. -/
def repeatedTexts : Table String String :=
  .ofList
    [("a", "message A\x7b\x7dmessage C\x7b\x7d" ++
        "service S\x7brpc M(A)returns(A);rpc M(C)returns(C);\x7d")]

/-- Registry and graph disagree on it: the second declaration is rejected, but its types are
recorded with those of the first, and the service has two rows. -/
theorem load_repeatedTexts : ∃ g service method signature,
    load (.ofTable repeatedTexts) ⟨false, true⟩ (fun _ rows => toString rows.length) "a" = .ok g ∧
      g.registry.get? "S" = some service ∧ service.artifact = some "2" ∧
      g.registry.Method "S.M" method signature ∧ signature.service = "S" ∧
      ¬ g.MethodAgrees method signature := by
  have hloaded : ((load (.ofTable repeatedTexts) ⟨false, true⟩
      (fun _ rows => toString rows.length) "a").toOption.any fun g =>
        (g.registry.get? "S").any fun service =>
          service.artifact == some "2" && (g.registry.get? "S.M").any fun method =>
            method.kind == .rpc && method.rpc == some ⟨"S", "A", "A", false, false⟩ &&
              ((g.graph.targets? service.nodeId (Build.requestField method.name)).map
                fun targets => (targets.get? "A_100", targets.get? "C_101")) ==
                  some (some 1, some 1)) = true := by
    decide +kernel
  obtain ⟨g, hload, hg⟩ := exists_ok_of_any hloaded
  simp only [Bool.and_eq_true, Option.any_eq_true, beq_iff_eq, Option.map_eq_some_iff,
    Prod.mk.injEq] at hg
  obtain ⟨service, hservice, hartifact, method, hmethod, ⟨hrpc, hsignature⟩, targets, htargets,
    hfirst, hsecond⟩ := hg
  refine ⟨g, service, method, _, hload, hservice, hartifact, ⟨hmethod, hrpc, hsignature⟩, rfl, ?_⟩
  rintro ⟨service', request, -, hservice', -, -, hleads, -⟩
  rw [hservice, Option.some.injEq] at hservice'
  subst hservice'
  cases request with
  | scalar => exact absurd (htargets.symm.trans hleads) (by simp)
  | entity t =>
    obtain ⟨target, targets', -, htargets', hone⟩ := hleads
    rw [htargets, Option.some.injEq] at htargets'
    subst htargets'
    -- Two targets stand where there is at most one.
    exact absurd (((hone _ _).1 hfirst).1.trans ((hone _ _).1 hsecond).1.symm) (by decide)

end LoadedGraph
end SchemaGraph
