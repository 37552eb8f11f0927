import SchemaGraph.Proofs.Graph.MissingTypes
import SchemaGraph.Proofs.Graph.Closed
import SchemaGraph.Proofs.Import.Entered
import SchemaGraph.Proofs.Registry.Labels
import SchemaGraph.Proofs.Registry.Nesting
/-!
# The entities of a loaded graph are well formed

What a walk declares and what a build adds keep the tables of the registry in step: an entity stands
under its own name, its node identifier leads back to it, and it has the place that its unit or the
entity around it gives it (`LoadedGraph.load_wellFormed`).
-/

namespace SchemaGraph

/-- What has been declared of an entity fits its kind, and its short name is a label. -/
def Entity.Fits (e : Entity) : Prop :=
  IsLabel e.name ∧ (e.rpc.isSome ↔ e.kind = .rpc)

theorem Name.qualify_ne_empty {short : String} (h : short ≠ "") (parent : String) :
    Name.qualify parent short ≠ "" := by
  unfold Name.qualify
  split
  · exact h
  · simp

theorem Name.qualify_of_ne_empty {parent : String} (h : parent ≠ "") (short : String) :
    Name.qualify parent short = parent ++ "." ++ short :=
  if_neg h

namespace Walk.Enters

variable {w w' : Walk} {entered : List (String × SchemaFile)}

/-- The names in the files that have been entered are labels. -/
theorem labelled (h : Enters w w' entered) {file : String × SchemaFile} (hfile : file ∈ entered) :
    Outline.Labelled (Outline.ofFile file) := by
  obtain ⟨text, hparse⟩ := h.parsed file hfile
  exact labelled_of_parseSchema hparse file.1

theorem isLabel_name (h : Enters w w' entered) {v : Winner} (hv : v ∈ Winner.ofFiles entered) :
    IsLabel v.name := by
  rw [Outline.ofFiles_eq_winnersIn] at hv
  exact Outline.labelled_flatMap (fun file hfile => h.labelled hfile) _
    (Outline.name_mem_namesIn _ hv)

/-- What encloses a declaration has a name. -/
theorem qualifiedName_ne_empty (h : Enters w w' entered) {v : Winner}
    (hv : v ∈ Winner.ofFiles entered) : v.qualifiedName ≠ "" := by
  have hne := (h.isLabel_name hv).ne_empty
  obtain ⟨_, -, -, hplaced⟩ := Winner.exists_placed hv
  cases hplaced with
  | top _ hname => exact hname ▸ Name.qualify_ne_empty hne _
  | type _ hinside => exact hinside.name ▸ Name.qualify_ne_empty hne _
  | method _ hinside => exact hinside.name ▸ Name.qualify_ne_empty hne _

end Walk.Enters

namespace Build

variable {p : Entity → Prop} {r : Registry} {b : Build} {context : BuildContext}

/-- Resolving a reference adds at most the placeholder for it. -/
theorem labels_resolve {s : Symbols} (hs : s.registry.Labels p) {reference : String}
    (hreference : ∀ q source, p ⟨q, reference, .missing, "", source, none, none, none⟩)
    (showMissing : Bool) (scope : String) :
    (s.resolve showMissing scope reference).2.registry.Labels p := by
  rcases registry_resolve s showMissing scope reference with heq | ⟨-, heq⟩
  · rw [heq]
    exact hs
  · obtain ⟨source, hplaceholder⟩ := s.placeholder_eq scope reference
    rw [heq, hplaceholder]
    exact hs.placeholder _ _ _ (hreference _ _)

/-- Tasks keep how identifiers are spelled. -/
theorem labels_perform (hb : b.symbols.registry.Labels p) {tasks : List Task}
    (htasks : ∀ ref ∈ tasks.filterMap (·.reference?), ∀ q source,
      p ⟨q, ref.typeName, .missing, "", source, none, none, none⟩) :
    (perform context r tasks b).symbols.registry.Labels p := by
  induction tasks generalizing b with
  | nil => exact hb
  | cons task tasks ih =>
    refine ih (b := task.perform context r b) ?_ fun ref href => htasks ref (by
      rw [List.filterMap_cons]
      split
      · exact href
      · exact List.mem_cons_of_mem _ href)
    cases task with
    | claim | skip => exact hb
    | link ref =>
      rw [Task.perform]
      split
      · rw [symbols_link]
        exact labels_resolve hb (htasks ref List.mem_cons_self) _ _
      · exact hb
    | draw q rows =>
      rw [Task.perform]
      split
      · exact hb.setArtifact _ _
      · exact hb

end Build

namespace LoadedGraph

variable {loader : Loader} {options : RunOptions} {renderer : Renderer} {root : String}
  {g g' : LoadedGraph} {walk : Walk} {entered : List (String × SchemaFile)}

/-- What a walk declares fits its kind, and its identifiers are spelled from labels. -/
theorem labels_of_enters (h : Walk.Traverses (.start .empty) walk entered)
    (hentered : Walk.Enters (.start .empty) walk entered) :
    walk.registry.Labels Entity.Fits := by
  obtain ⟨-, hregistry⟩ := h.of_start
  rw [hregistry]
  refine Registry.labels_declareFiles fun w hw e hdescribes => ⟨?_, ?_⟩
  · show IsLabel e.name
    rw [hdescribes.name]
    exact hentered.isLabel_name hw
  · show e.rpc.isSome ↔ e.kind = .rpc
    rw [hdescribes.rpc, hdescribes.kind]
    obtain ⟨_, -, -, hplaced⟩ := Winner.exists_placed hw
    cases hplaced with
    | top _ _ hkind hrpc => simp [hrpc, hkind]
    | type _ _ _ hkind hrpc =>
      have hne : w.kind ≠ .rpc := fun heq => by
        rw [heq] at hkind
        cases hkind
      simp [hrpc, hne]
    | method _ _ _ hkind hrpc => simp [hrpc, hkind]

/-- The same holds after a build: references are labels too. -/
theorem labels_buildOf (h : Walk.Traverses (.start .empty) walk entered)
    (hentered : Walk.Enters (.start .empty) walk entered) (renderer : Renderer)
    (options : RunOptions) :
    (buildOf renderer options walk).symbols.registry.Labels Entity.Fits := by
  obtain ⟨hperm, hregistry⟩ := h.of_start
  have hstart := labels_of_enters h hentered
  unfold buildOf
  rw [hregistry] at hstart ⊢
  rw [Build.buildAll_eq h.nodup hperm]
  refine Build.drawPlaceholders_induction (P := fun b => b.symbols.registry.Labels Entity.Fits)
    (fun e _ _ b hb => hb.setArtifact _ _) (Build.labels_perform hstart fun ref href q source => ?_)
  rw [Build.filterMap_tasks] at href
  obtain ⟨file, hfile, href⟩ := List.mem_flatMap.1 href
  have hlabel := hentered.labelled (hperm.mem_iff.1 hfile) _
    (Outline.typeName_mem_namesIn _ href)
  exact ⟨hlabel, by simp⟩

/-- The entity `e` has the place among the units and entities of the graph that its kind and its
declaration give it. -/
structure WellFormed (g : LoadedGraph) (q : String) (e : Entity) : Prop where
  /-- The entity stands under its own name. -/
  stored : e.qualifiedName = q
  /-- Its node identifier leads back to it. -/
  found : g.registry.byNodeId? e.nodeId = some e
  /-- The node identifier is a letter or an underscore, and then letters, digits and underscores. -/
  spelled : IsName e.nodeId.toList
  /-- What has been declared comes from a unit that could be loaded; what nothing encloses is
  qualified by the package of the unit. -/
  unit : e.kind ≠ .missing → ∃ unit, g.units.get? e.source = some unit ∧ unit.missing = false ∧
    (e.parent = none → e.qualifiedName = Name.qualify unit.package e.name)
  /-- Methods stand in services, messages and enums in messages, of the same unit, and are qualified
  by what is around them. -/
  parent : e.kind ≠ .missing → ∀ p, e.parent = some p → ∃ parent, g.registry.get? p = some parent ∧
    parent.source = e.source ∧ e.qualifiedName = p ++ "." ++ e.name ∧
    (e.kind = .rpc ∧ parent.kind = .service ∨ e.kind.isType = true ∧ parent.kind = .message)
  /-- Methods have a signature, and nothing else has one. -/
  signed : e.rpc.isSome ↔ e.kind = .rpc
  /-- The signature of a method belongs to the service around it. -/
  service : ∀ signature, e.rpc = some signature → e.parent = some signature.service
  /-- A placeholder is named after its owner, and has the source of it. -/
  owner : e.kind = .missing → ∃ p owner, g.registry.get? p = some owner ∧
    q = Registry.placeholderName owner.nodeId e.name ∧ e.source = owner.source

theorem Follows.units_eq (h : g.Follows g') : g'.units = g.units := by
  induction h with
  | refl => rfl
  | select selection _ ih => exact ih

/-- The registry has grown from what the walk has declared of the files that it has entered. -/
structure GrowsFrom (r : Registry) (walk : Walk) (entered : List (String × SchemaFile)) :
    Prop where
  declared : walk.registry = Registry.empty.declareFiles entered
  grows : walk.registry.Grows r
  entered : Walk.Enters (.start .empty) walk entered
  indexed : r.Indexed

/-- What is no placeholder is what a winner declares. -/
theorem GrowsFrom.exists_winner {r : Registry} (h : GrowsFrom r walk entered) {q : String}
    {e : Entity} (he : r.get? q = some e) (hkind : e.kind ≠ .missing) :
    ∃ w ∈ Winner.ofFiles entered, w.qualifiedName = e.qualifiedName ∧ w.Describes e := by
  have htakes := h.declared ▸ Registry.takes_declareFiles entered
  rw [h.indexed.stored he]
  exact htakes.exists_describes h.grows he hkind

/-- What has been declared has a unit, and the package of the unit where nothing encloses it. -/
theorem GrowsFrom.exists_unit {r : Registry} (h : GrowsFrom r walk entered) {q : String}
    {e : Entity} (he : r.get? q = some e) (hkind : e.kind ≠ .missing) :
    ∃ unit, walk.units.get? e.source = some unit ∧ unit.missing = false ∧
      (e.parent = none → e.qualifiedName = Name.qualify unit.package e.name) := by
  obtain ⟨w, hw, hname, hdescribes⟩ := h.exists_winner he hkind
  obtain ⟨file, hfile, hsource, hplaced⟩ := Winner.exists_placed hw
  obtain ⟨unit, hunit, hmissing, hpackage⟩ := h.entered.unit file hfile
  rw [hdescribes.source, hsource, hdescribes.parent, hdescribes.name, ← hname]
  refine ⟨unit, hunit, hmissing, fun hnone => ?_⟩
  cases hplaced with
  | top _ hname => exact hpackage ▸ hname
  | type _ hinside | method _ hinside =>
    rw [hinside.parent] at hnone
    cases hnone

/-- What encloses a declaration is registered, and its kind is that of what can enclose it. -/
theorem GrowsFrom.exists_parent {r : Registry} (h : GrowsFrom r walk entered) {q p : String}
    {e : Entity} (he : r.get? q = some e) (hkind : e.kind ≠ .missing) (hp : e.parent = some p) :
    ∃ parent, r.get? p = some parent ∧ parent.source = e.source ∧
      e.qualifiedName = p ++ "." ++ e.name ∧
      (e.kind = .rpc ∧ parent.kind = .service ∨
        e.kind.isType = true ∧ parent.kind = .message) := by
  have htakes := h.declared ▸ Registry.takes_declareFiles entered
  obtain ⟨w, hw, hname, hdescribes⟩ := h.exists_winner he hkind
  obtain ⟨file, hfile, hsource, hplaced⟩ := Winner.exists_placed hw
  have hparent {v : Winner} (hv : v ∈ Winner.ofFiles entered) (hinside : v.Encloses w) :
      ∃ parent, r.get? p = some parent ∧ v.Describes parent ∧
        parent.source = e.source ∧ e.qualifiedName = p ++ "." ++ e.name := by
    obtain ⟨parent, hget, hdescribes'⟩ := htakes.exists_registered h.grows hv
    have hvp : v.qualifiedName = p :=
      Option.some.inj (hinside.parent.symm.trans (hdescribes.parent.symm.trans hp))
    have hne := h.entered.qualifiedName_ne_empty hv
    rw [hvp] at hget hne
    refine ⟨parent, hget, hdescribes', ?_, ?_⟩
    · rw [hdescribes'.source, hdescribes.source, hinside.source]
    · rw [← hname, hinside.name, hvp, hdescribes.name, Name.qualify_of_ne_empty hne]
  cases hplaced with
  | top hnone =>
    rw [hdescribes.parent, hnone] at hp
    cases hp
  | type hv hinside hmessage htype =>
    obtain ⟨parent, hget, hdescribes', hsources, hqualified⟩ := hparent hv hinside
    refine ⟨parent, hget, hsources, hqualified, .inr ⟨?_, hdescribes'.kind.trans hmessage⟩⟩
    rw [hdescribes.kind, htype]
  | method hv hinside hservice hrpc =>
    obtain ⟨parent, hget, hdescribes', hsources, hqualified⟩ := hparent hv hinside
    exact ⟨parent, hget, hsources, hqualified,
      .inl ⟨hdescribes.kind.trans hrpc, hdescribes'.kind.trans hservice⟩⟩

/-- The service of a signature is what encloses the method. -/
theorem GrowsFrom.parent_of_rpc {r : Registry} (h : GrowsFrom r walk entered) {q : String}
    {e : Entity} (he : r.get? q = some e) (hkind : e.kind ≠ .missing) {signature : RpcSignature}
    (hrpc : e.rpc = some signature) : e.parent = some signature.service := by
  obtain ⟨w, hw, -, hdescribes⟩ := h.exists_winner he hkind
  obtain ⟨_, -, -, hplaced⟩ := Winner.exists_placed hw
  rw [hdescribes.rpc] at hrpc
  rw [hdescribes.parent]
  cases hplaced with
  | top _ _ _ hnone | type _ _ _ _ hnone =>
    rw [hnone] at hrpc
    cases hrpc
  | method _ hinside _ _ hsome hservice =>
    rw [hinside.parent, ← hservice, Option.some.inj (hsome.symm.trans hrpc)]

/-- A placeholder is there for a reference inside an entity. -/
theorem GrowsFrom.exists_owner {r : Registry} (h : GrowsFrom r walk entered)
    {showMissing : Bool} (hplaces : walk.registry.Places showMissing r) {q : String} {e : Entity}
    (he : r.get? q = some e) (hkind : e.kind = .missing) :
    ∃ p owner, r.get? p = some owner ∧ q = Registry.placeholderName owner.nodeId e.name ∧
      e.source = owner.source := by
  have hnew : walk.registry.get? q = none := by
    cases hq : walk.registry.get? q with
    | none => rfl
    | some declared =>
      obtain ⟨e', he', hundrawn⟩ := h.grows.kept hq
      rw [he] at he'
      rw [Option.some.inj he', Entity.kind_eq_of_undrawn hundrawn] at hkind
      rw [h.declared] at hq
      exact absurd hkind (Registry.kind_ne_missing_of_declareFiles hq)
  obtain ⟨-, p, declared, hdeclared, hname, hsource⟩ := hplaces q e hnew he
  obtain ⟨owner, howner, hundrawn⟩ := h.grows.kept hdeclared
  refine ⟨p, owner, howner, ?_, ?_⟩
  · rw [h.grows.nodeId_eq hdeclared howner, hname]
  · rw [Entity.eq_of_undrawn hundrawn, hsource]

/--
**Every entity of a loaded graph is well formed.** Whatever has been selected before, it stands
under its own name, its node identifier is a name that leads back to it and to no other entity, and
its unit, the entity around it, its signature and, for a placeholder, its owner fit together.
-/
theorem load_wellFormed (h : load loader options renderer root = .ok g) (hg : g.Follows g') :
    (∀ q e, g'.registry.get? q = some e → g'.WellFormed q e) ∧
      ∀ p q e f, g'.registry.get? p = some e → g'.registry.get? q = some f →
        e.nodeId = f.nodeId → p = q := by
  obtain ⟨r, winners, hsettled⟩ := load_settled h
  obtain ⟨-, hsame, -, -⟩ := hg.settled hsettled
  obtain ⟨walk, hrun, hsymbols, -, -, hunits, -⟩ := load_eq_ok h
  obtain ⟨entered, htraverses, hentered⟩ := Walk.run_enters hrun
  obtain ⟨-, hregistry⟩ := htraverses.of_start
  have hbuild : g'.registry = (buildOf renderer options walk).symbols.registry := by
    rw [hsame, registry, hsymbols]
  obtain ⟨hgrows, hcoherent, -⟩ := (tracks_buildOf htraverses renderer options).symbols
  have hlabels := labels_buildOf htraverses hentered renderer options
  have hplaces := places_buildOf htraverses renderer options.allowMissingImports
    options.showMissingTypes
  rw [← hbuild] at hgrows hcoherent hlabels hplaces
  have hfrom : GrowsFrom g'.registry walk entered :=
    ⟨hregistry, hgrows, hentered, hcoherent.indexed⟩
  refine ⟨fun q e he => ?_, fun p q e f he hf heq =>
    hcoherent.identified.qualifiedName_eq he hf heq⟩
  obtain ⟨hlabel, hsigned⟩ := hlabels.declared he
  refine ⟨hcoherent.indexed.stored he, ?_, ?_, fun hkind => ?_,
    fun hkind p hp => hfrom.exists_parent he hkind hp, hsigned, fun signature hrpc => ?_,
    fun hkind => hfrom.exists_owner hplaces he hkind⟩
  · unfold Registry.byNodeId?
    rw [hcoherent.identified.entity he, Option.bind_some, he]
  · exact Registry.isName_of_isNodeIdOf hlabel (hlabels.entity he)
  · rw [hg.units_eq, hunits]
    exact hfrom.exists_unit he hkind
  · have hsome : e.rpc.isSome := Option.isSome_iff_exists.2 ⟨signature, hrpc⟩
    have hkind : e.kind = .rpc := hsigned.1 hsome
    exact hfrom.parent_of_rpc he (by rw [hkind]; decide) hrpc

/-- A method whose request nothing declares, and whose response another file declares. -/
def methodTexts : Table String String :=
  .ofList [("a", "package p;import \"b\";service S\x7brpc M(.q.X) returns(R);\x7d"),
    ("b", "package p;message R\x7benum E\x7bZ=0;\x7d\x7d")]

/-- After a selection the method is well formed, and so is the placeholder for its request. -/
theorem load_methodTexts : ∃ g method placeholder,
    load (.ofTable methodTexts) ⟨false, true⟩ (fun _ _ => "") "a" = .ok g ∧
      g.Follows (g.select "p.S.M").2 ∧
      (g.select "p.S.M").2.registry.get? "p.S.M" = some method ∧ method.kind = .rpc ∧
      (g.select "p.S.M").2.WellFormed "p.S.M" method ∧
      (g.select "p.S.M").2.registry.get? "missing.S_100..q.X" = some placeholder ∧
      placeholder.kind = .missing ∧
      (g.select "p.S.M").2.WellFormed "missing.S_100..q.X" placeholder := by
  have hloaded : ((load (.ofTable methodTexts) ⟨false, true⟩ (fun _ _ => "") "a").toOption.any
      fun g =>
        ((g.select "p.S.M").2.registry.get? "p.S.M").any (·.kind == .rpc) &&
          ((g.select "p.S.M").2.registry.get? "missing.S_100..q.X").any (·.kind == .missing)) =
      true := by
    decide +kernel
  obtain ⟨g, hload, hg⟩ := exists_ok_of_any hloaded
  simp only [Bool.and_eq_true, Option.any_eq_true, beq_iff_eq] at hg
  obtain ⟨⟨method, hmethod, hrpc⟩, placeholder, hplaceholder, hmissing⟩ := hg
  have hfollows : g.Follows (g.select "p.S.M").2 := .select "p.S.M" .refl
  obtain ⟨hformed, -⟩ := load_wellFormed hload hfollows
  exact ⟨g, method, placeholder, hload, hfollows, hmethod, hrpc, hformed _ _ hmethod,
    hplaceholder, hmissing, hformed _ _ hplaceholder⟩

end LoadedGraph
end SchemaGraph
