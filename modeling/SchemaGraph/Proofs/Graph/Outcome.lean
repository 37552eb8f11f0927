import Mathlib.Data.List.Perm.Basic
import SchemaGraph.Proofs.Graph.References
import SchemaGraph.Proofs.Graph.Tasks
/-!
# The outcome of a build

A build performs the tasks of its files one after the other (`does_files`). By induction over these
tasks one reads off what it leaves behind: the errors are those of the references that fail, in the
order in which they are bound (`errors_buildAll`), and what the registry holds beyond the entities
declared are placeholders for references inside these (`places_buildAll`), each of them what some
reference stands for (`accounts_buildAll`).
-/

namespace SchemaGraph

/-! ## References in build order -/

/-- The reference that a task binds. -/
def Build.Task.reference? : Build.Task → Option Reference
  | .link ref => some ref
  | .claim _ | .skip .. | .draw .. => none

namespace Outline

@[simp] theorem linkedIn_reference_cons (ref : Reference) (os : List Outline)
    (taken : List String) :
    linkedIn (.reference ref :: os) taken = ref :: linkedIn os taken := by
  rw [linkedIn, linked, takes, winners, List.map_nil, List.append_nil]
  rfl

@[simp] theorem linkedIn_skipped_cons (construct : Construct) (scope : String)
    (os : List Outline) (taken : List String) :
    linkedIn (.skipped construct scope :: os) taken = linkedIn os taken := by
  rw [linkedIn, linked, takes, winners, List.map_nil, List.append_nil]
  rfl

theorem linkedIn_singleton (o : Outline) (taken : List String) :
    linkedIn [o] taken = linked o taken := by
  rw [linkedIn, linkedIn, List.append_nil]

theorem linkedIn_oneof (owner : String) (members : List OneofElement) (taken : List String) :
    linkedIn (members.flatMap (OneofElement.outline owner)) taken =
      members.flatMap (OneofElement.references owner) := by
  induction members with
  | nil => rfl
  | cons member members ih =>
    cases member with
    | field field =>
      show linkedIn (.reference _ :: members.flatMap _) taken = _ :: members.flatMap _
      rw [linkedIn_reference_cons, ih]
    | group =>
      show linkedIn (.skipped _ _ :: members.flatMap _) taken = members.flatMap _
      rw [linkedIn_skipped_cons, ih]
    | option | comment => exact ih

mutual

/-- The references among the tasks of an outline. -/
theorem filterMap_tasks (kinds : String → String → FieldKind) (o : Outline)
    (taken : List String) : (tasks kinds o taken).filterMap (·.reference?) = linked o taken := by
  cases o with
  | reference ref => rfl
  | skipped => rfl
  | declaration w rows inside =>
    have hinside := filterMap_tasksIn kinds inside (taken ++ [w.qualifiedName])
    cases rows <;> rw [tasks, linked] <;> split
    · rfl
    · exact hinside
    · rfl
    · rw [List.filterMap_append, List.filterMap_cons_none rfl, hinside,
        List.filterMap_cons_none rfl, List.filterMap_nil, List.append_nil]

theorem filterMap_tasksIn (kinds : String → String → FieldKind) (os : List Outline)
    (taken : List String) :
    (tasksIn kinds os taken).filterMap (·.reference?) = linkedIn os taken := by
  cases os with
  | nil => rfl
  | cons o os =>
    rw [tasksIn, linkedIn, List.filterMap_append, filterMap_tasks, filterMap_tasksIn]

end

theorem linkedIn_rpcs (site : DeclarationSite) (service : String) (rpcs : List Rpc)
    (taken : List String) :
    linkedIn (rpcs.flatMap (Rpc.outline site service)) taken =
      rpcs.flatMap (Rpc.references service) := by
  rw [← filterMap_tasksIn fun _ _ => .scalar, tasksIn_rpcs, List.filterMap_flatMap]
  simp [Build.Task.reference?]

mutual

/-- The references that a part of a body leads to are its own and those of the winners in it. -/
theorem linkedIn_element_perm (site : DeclarationSite) (e : MessageElement)
    (taken : List String) :
    (linkedIn (MessageElement.outline site e) taken).Perm
      (e.references site.scope ++
        (winnersIn (MessageElement.outline site e) taken).flatMap (·.references)) := by
  cases e with
  | message name elements line =>
    rw [MessageElement.outline, linkedIn_singleton, winnersIn_singleton, linked, winners,
      Winner.contest]
    dsimp only
    split
    · exact .nil
    · exact linkedIn_body_perm (site.inside (Name.qualify site.scope name)) elements _
  | enum decl =>
    rw [MessageElement.outline, linkedIn_singleton, winnersIn_singleton, EnumDecl.outline, linked,
      winners, Winner.contest]
    split <;> exact .nil
  | oneof name members =>
    rw [MessageElement.outline, linkedIn_oneof,
      (eq_nil_of_declaredIn (declaredIn_oneof _ members) taken).1, MessageElement.references]
    simp
  | field | map =>
    rw [MessageElement.outline, linkedIn_reference_cons]
    exact .refl _
  | group | extend =>
    rw [MessageElement.outline, linkedIn_skipped_cons]
    exact .nil
  | reserved | extensions | option | comment => exact .nil

theorem linkedIn_body_perm (site : DeclarationSite) (es : List MessageElement)
    (taken : List String) :
    (linkedIn (bodyOutline site es) taken).Perm
      (es.flatMap (·.references site.scope) ++
        (winnersIn (bodyOutline site es) taken).flatMap (·.references)) := by
  cases es with
  | nil => exact .nil
  | cons e es =>
    have hfirst := linkedIn_element_perm site e taken
    have hrest := linkedIn_body_perm site es (takesIn (MessageElement.outline site e) taken)
    rw [bodyOutline, linkedIn_append, winnersIn_append, List.flatMap_cons, List.flatMap_append]
    refine (hfirst.append hrest).trans ?_
    -- The references of the body come before those of what the first element declares.
    simp only [List.append_assoc]
    exact ((List.perm_append_comm_assoc _ _ _).append_left _)

end

theorem linked_service_perm (site : DeclarationSite) (decl : Service) (taken : List String) :
    (linked (decl.outline site) taken).Perm
      ((winners (decl.outline site) taken).flatMap (·.references)) := by
  rw [Service.outline, linked, winners, Winner.contest]
  split
  · exact .nil
  · -- The references of a method are those of its service.
    have hnone (taken : List String) : (winnersIn
        (decl.rpcs.flatMap (Rpc.outline (site.inside (Name.qualify site.scope decl.name))
          (Name.qualify site.scope decl.name))) taken).flatMap (·.references) = [] := by
      rw [← inTurn_flatMap fun rpc _ => ofRpc_eq_winnersIn _ _ rpc]
      exact List.flatMap_eq_nil_iff.2 fun v hv => (Winner.of_mem_ofRpcs hv).2.2.1
    rw [List.flatMap_cons, hnone, List.append_nil, linkedIn_rpcs]

/-- The references that a file leads to are those of its winners. -/
theorem linkedIn_file_perm (file : String × SchemaFile) (taken : List String) :
    (linkedIn (ofFile file) taken).Perm
      ((winnersIn (ofFile file) taken).flatMap (·.references)) := by
  unfold ofFile
  generalize file.2.elements = elements
  induction elements generalizing taken with
  | nil => exact .nil
  | cons e elements ih =>
    rw [List.flatMap_cons, linkedIn_append, winnersIn_append, List.flatMap_append]
    refine List.Perm.append ?_ (ih _)
    cases e with
    | message decl => exact linkedIn_element_perm _ (.message decl.name decl.elements decl.line) _
    | enum decl => exact linkedIn_element_perm _ (.enum decl) _
    | service decl =>
      rw [FileElement.outline, linkedIn_singleton, winnersIn_singleton]
      exact linked_service_perm _ decl _
    | extend decl =>
      rw [FileElement.outline, linkedIn_skipped_cons]
      exact .nil
    | option | comment => exact .nil

end Outline

namespace Build

/-- The references of the files in the order in which a build binds them: file by file, and in each
file as they stand, without those of bodies that do not count. -/
def references (entered files : List (String × SchemaFile)) : List Reference :=
  files.flatMap fun file =>
    Outline.linkedIn (Outline.ofFile file) (Winner.takenBefore entered file.1)

/-- The tasks of the files, in the order in which a build performs them. -/
def tasks (kinds : String → String → FieldKind) (entered files : List (String × SchemaFile)) :
    List Task :=
  files.flatMap fun file =>
    Outline.tasksIn kinds (Outline.ofFile file) (Winner.takenBefore entered file.1)

theorem filterMap_tasks (kinds : String → String → FieldKind)
    (entered files : List (String × SchemaFile)) :
    (tasks kinds entered files).filterMap (·.reference?) = references entered files := by
  unfold tasks references
  rw [List.filterMap_flatMap]
  exact List.flatMap_congr fun file _ => Outline.filterMap_tasksIn kinds _ _

/-- The references that a build binds are those of the winners. -/
theorem references_perm {entered files : List (String × SchemaFile)}
    (hnodup : (entered.map (·.1)).Nodup) (hperm : files.Perm entered) :
    (references entered files).Perm ((Winner.ofFiles entered).flatMap (·.references)) := by
  have hwinners := (Winner.flatMap_filter_perm hnodup hperm).flatMap_right (f := (·.references))
  refine List.Perm.trans ?_ hwinners
  rw [List.flatMap_assoc, List.flatMap_map]
  unfold references
  refine List.Perm.flatMap_left _ fun file hfile => ?_
  have hfilter := (Winner.ofFile_eq_filter hnodup (hperm.mem_iff.1 hfile)).1
  rw [Outline.ofFile_eq_winnersIn] at hfilter
  rw [← hfilter]
  exact Outline.linkedIn_file_perm file _

/-! ## All files -/

/-- Declaring draws nothing. -/
theorem founds_declareFiles (entered : List (String × SchemaFile)) :
    Founds (Registry.empty.declareFiles entered) (Winner.ofFiles entered) := by
  refine ⟨Registry.takes_declareFiles entered, Registry.coherent_declareFiles entered, ?_⟩
  refine Registry.declareFiles_induction (P := fun r => ∀ q e, r.get? q = some e →
    e.artifact = none) (fun d site name kind rpc hd q e he => ?_) entered (by simp)
  rcases Declarations.declare_cases d site name kind rpc with ⟨-, -, hsame⟩ | ⟨-, -, hok⟩
  · rw [hsame, Registry.get?_nodeIdFor] at he
    exact hd q e he
  · rw [(Registry.declares_of_declare hok).get?] at he
    split at he
    · rw [← Option.some.inj he]
    · rw [Registry.get?_nodeIdFor] at he
      exact hd q e he

variable {r : Registry} {showMissing : Bool} {b : Build}

/-- Files of different units perform their tasks one after the other. -/
theorem does_files {entered : List (String × SchemaFile)} (hnodup : (entered.map (·.1)).Nodup)
    (hr : Founds r (Winner.ofFiles entered)) (renderer : Renderer)
    {files : List (String × SchemaFile)} (hfiles : ∀ file ∈ files, file ∈ entered)
    (hdistinct : (files.map (·.1)).Nodup)
    (hbuilt : ∀ w ∈ Winner.ofFiles entered, w.source ∈ files.map (·.1) →
      w.qualifiedName ∉ b.built)
    {refs : List Reference} (h : Tracks r showMissing refs b) (hundrawn : Undrawn b) :
    Does r ⟨renderer, showMissing⟩
      (files.forM fun file => buildFile ⟨renderer, showMissing⟩ file.1 file.2) ()
      (tasks (r.fieldKind showMissing) entered files) b := by
  induction files generalizing refs b with
  | nil => exact Does.pure hundrawn ()
  | cons file files ih =>
    obtain ⟨hwinners, -⟩ := Winner.ofFile_eq_filter hnodup (hfiles file (by simp))
    have hmem : ∀ v ∈ Winner.ofFile file (Winner.takenBefore entered file.1),
        v ∈ Winner.ofFiles entered := fun v hv => (List.mem_filter.1 (hwinners ▸ hv)).1
    rw [List.map_cons, List.nodup_cons] at hdistinct
    have hat := h.atFile hnodup hr.takes (hfiles file (by simp)) fun w hw hsource =>
      hbuilt w hw (by simp [hsource])
    have hfirst := Ready.file hr renderer file (.of_at hat hundrawn)
      (Outline.ofFile_eq_winnersIn file _ ▸ hmem)
    have hnext := At.file hr.takes hr.coherent.indexed renderer file hat hmem
    exact hfirst.bind (ih (fun f hf => hfiles f (by simp [hf])) hdistinct.2
      (hnext.notBuilt hdistinct.1 fun w hw hsource => hbuilt w hw (by simp [hsource]))
      hnext.tracks hfirst.undrawn)

/-- The build over the files of a walk performs their tasks and then draws the placeholders. -/
theorem buildAll_eq {entered files : List (String × SchemaFile)}
    (hnodup : (entered.map (·.1)).Nodup) (hperm : files.Perm entered) (renderer : Renderer)
    (showMissing : Bool) :
    (buildAll ⟨renderer, showMissing⟩ files
        (start (.ofRegistry (Registry.empty.declareFiles entered)) .empty)).2 =
      (drawPlaceholders ⟨renderer, showMissing⟩
        (perform ⟨renderer, showMissing⟩ (Registry.empty.declareFiles entered)
          (tasks ((Registry.empty.declareFiles entered).fieldKind showMissing) entered files)
          (start (.ofRegistry (Registry.empty.declareFiles entered)) .empty))).2 := by
  have hr := founds_declareFiles entered
  have hdoes := does_files hnodup hr renderer (fun file hfile => hperm.mem_iff.1 hfile)
    ((hperm.map (·.1)).nodup_iff.2 hnodup) (fun w _ _ hmem => by cases hmem)
    (tracks_start hr.coherent showMissing) fun q e he _ => hr.undrawn q e he
  rw [← hdoes.state]
  rfl

end Build

/-! ## What the tasks leave behind -/

/-- `r.Places showMissing r'`: what `r'` has beyond `r` are placeholders for references inside
entities of `r`, and nothing unless these are to be shown. -/
def Registry.Places (r : Registry) (showMissing : Bool) (r' : Registry) : Prop :=
  ∀ q e, r.get? q = none → r'.get? q = some e → showMissing = true ∧
    ∃ p owner, r.get? p = some owner ∧ q = placeholderName owner.nodeId e.name ∧
      e.source = owner.source

/-- Why a reference fails. -/
def Reference.failure? (r : Registry) (showMissing : Bool) (ref : Reference) :
    Option BindingError :=
  match r.referent showMissing ref.owner ref.typeName with
  | .error e => some e
  | .ok _ => none

theorem Registry.Places.setArtifact {r r' : Registry} {showMissing : Bool}
    (h : r.Places showMissing r') (qualifiedName artifact : String) :
    r.Places showMissing (r'.setArtifact qualifiedName artifact) := by
  intro q e hq he
  rw [get?_setArtifact] at he
  split at he
  · obtain ⟨e', he', rfl⟩ := Option.map_eq_some_iff.1 he
    exact h q e' hq he'
  · exact h q e hq he

/-- What resolving a reference inside an entity of `r` adds is a placeholder for it. -/
theorem Symbols.Extends.places_resolve {r : Registry} {s : Symbols} {showMissing : Bool}
    (h : s.Extends r) (hplaces : r.Places showMissing s.registry) {scope : String}
    {owner : Entity} (howner : r.get? scope = some owner) (reference : String) :
    r.Places showMissing (s.resolve showMissing scope reference).2.registry := by
  rcases Build.registry_resolve s showMissing scope reference with heq | ⟨hshow, heq⟩
  · rw [heq]
    exact hplaces
  · obtain ⟨owner', howner', hundrawn⟩ := h.grows.kept howner
    have hplaceholder : (s.placeholder scope reference).2.registry =
        (s.registry.placeholder owner'.nodeId reference owner'.source).2 := by
      unfold Symbols.placeholder
      rw [howner']
    rw [heq, hplaceholder]
    intro q e hq he
    rw [Registry.get?_placeholder] at he
    split at he
    · rename_i hname
      cases hpresent : s.registry.get? q with
      | some found =>
        rw [Registry.placeholder_of_present (hname ▸ hpresent)] at he
        exact hplaces q e hq (hpresent.trans he)
      | none =>
        rw [Registry.placeholder_of_absent (hname ▸ hpresent), Option.some.injEq] at he
        refine ⟨hshow, scope, owner, howner, ?_, ?_⟩
        · rw [hname, ← he, h.grows.nodeId_eq howner howner']
          rfl
        · rw [← he, Entity.eq_of_undrawn hundrawn]
          rfl
    · exact hplaces q e hq he

/-- `r.Accounts showMissing refs r'`: what `r'` has beyond `r` is what some of the references stand
for. -/
def Registry.Accounts (r : Registry) (showMissing : Bool) (refs : List Reference) (r' : Registry) :
    Prop :=
  ∀ q, r.get? q = none → (r'.get? q).isSome →
    ∃ ref ∈ refs, r.referent showMissing ref.owner ref.typeName = .ok (.entity q)

theorem Registry.accounts_refl (r : Registry) (showMissing : Bool) :
    r.Accounts showMissing [] r := by
  intro q hq hsome
  rw [hq] at hsome
  cases hsome

theorem Registry.Accounts.mono {r r' : Registry} {showMissing : Bool} {refs refs' : List Reference}
    (h : r.Accounts showMissing refs r') (hsubset : refs ⊆ refs') :
    r.Accounts showMissing refs' r' := by
  intro q hq hsome
  obtain ⟨ref, href, hreferent⟩ := h q hq hsome
  exact ⟨ref, hsubset href, hreferent⟩

theorem Registry.Accounts.setArtifact {r r' : Registry} {showMissing : Bool}
    {refs : List Reference} (h : r.Accounts showMissing refs r') (qualifiedName artifact : String) :
    r.Accounts showMissing refs (r'.setArtifact qualifiedName artifact) := by
  intro q hq hsome
  rw [get?_setArtifact] at hsome
  split at hsome
  · exact h q hq (by simpa using hsome)
  · exact h q hq hsome

/-- What resolving a reference adds is what the reference stands for. -/
theorem Symbols.Extends.referent_of_added {r : Registry} {s : Symbols} (h : s.Extends r)
    (hr : r.Indexed) {scope : String} (hscope : (r.get? scope).isSome) {showMissing : Bool}
    {reference q : String} (hnew : s.registry.get? q = none)
    (hadded : ((s.resolve showMissing scope reference).2.registry.get? q).isSome) :
    r.referent showMissing scope reference = .ok (.entity q) := by
  rw [← h.resolve_eq hr hscope showMissing reference]
  have hanswers := s.answers_resolve showMissing scope reference
  generalize (s.resolve showMissing scope reference).1 = outcome at hanswers
  generalize (s.resolve showMissing scope reference).2 = s' at hanswers hadded
  cases hanswers with
  | scalar | kept | bound | refused =>
    rw [hnew] at hadded
    cases hadded
  | placeholder =>
    obtain ⟨source, heq⟩ := s.placeholder_eq scope reference
    rw [(placeholder_spec h.coherent.indexed scope reference).1]
    rw [heq, Registry.get?_placeholder] at hadded
    split at hadded
    · rename_i hq
      rw [hq]
    · rw [hnew] at hadded
      cases hadded

namespace Build

variable {r : Registry} {showMissing : Bool} {b : Build} {context : BuildContext}

/-- The symbols of a build come from `r`, and what they have beyond it are placeholders. -/
structure Stands (r : Registry) (showMissing : Bool) (b : Build) : Prop where
  symbols : b.symbols.Extends r
  places : r.Places showMissing b.symbols.registry

theorem Stands.attach (h : Stands r showMissing b) (context : BuildContext) (entity : Entity)
    (rows : List BodyRow) : Stands r showMissing (attach context entity rows b).2 := by
  have hgrows := b.symbols.registry.grows_setArtifact entity.qualifiedName
    (context.renderer entity rows)
  exact ⟨⟨h.symbols.grows.trans hgrows, h.symbols.coherent.setArtifact _ _, h.symbols.bound⟩,
    h.places.setArtifact _ _⟩

theorem Stands.link (h : Stands r context.showMissing b) (hr : r.Indexed) {q : String}
    {owner : Entity} (howner : r.get? q = some owner) (field reference : String) :
    Stands r context.showMissing (link context owner field reference b).2 := by
  have hname := hr.stored howner
  refine ⟨?_, ?_⟩ <;> rw [symbols_link]
  · exact (h.symbols.resolved _ _ _).symbols
  · exact h.symbols.places_resolve h.places (hname ▸ howner) _

/-- One task keeps where a build stands. -/
theorem Stands.task (context : BuildContext) (h : Stands r context.showMissing b) (hr : r.Indexed)
    (task : Task) :
    Stands r context.showMissing (task.perform context r b) := by
  cases task with
  | claim => exact ⟨h.symbols, h.places⟩
  | skip => exact ⟨h.symbols, h.places⟩
  | link ref =>
    rw [Task.perform]
    split
    · rename_i owner howner
      exact h.link hr howner ref.field ref.typeName
    · exact h
  | draw q rows =>
    rw [Task.perform]
    split
    · exact h.attach context _ rows
    · exact h

/-- Any tasks keep it. -/
theorem Stands.perform (context : BuildContext) (h : Stands r context.showMissing b)
    (hr : r.Indexed) (tasks : List Task) :
    Stands r context.showMissing (perform context r tasks b) := by
  induction tasks generalizing b with
  | nil => exact h
  | cons task tasks ih => exact ih (h.task context hr task)

/-! ## What the references account for -/

/-- One task adds at most what its reference stands for. -/
theorem accounts_task (context : BuildContext) (h : Stands r context.showMissing b) (hr : r.Indexed)
    {refs : List Reference} (hb : r.Accounts context.showMissing refs b.symbols.registry)
    (task : Task) :
    r.Accounts context.showMissing (refs ++ task.reference?.toList)
      (task.perform context r b).symbols.registry := by
  have hsame := hb.mono (List.subset_append_left refs task.reference?.toList)
  cases task with
  | claim | skip => exact hsame
  | draw q rows =>
    rw [Task.perform]
    split
    · exact hsame.setArtifact _ _
    · exact hsame
  | link ref =>
    rw [Task.perform]
    split
    · rename_i owner howner
      have hname := hr.stored howner
      rw [symbols_link]
      intro q hq hadded
      -- What was there before has been accounted for, and what is new the reference stands for.
      cases hpresent : b.symbols.registry.get? q with
      | some e => exact hsame q hq (by rw [hpresent]; rfl)
      | none =>
        have hsome : (r.get? owner.qualifiedName).isSome := by
          rw [hname, howner]
          rfl
        have hreferent := h.symbols.referent_of_added hr hsome hpresent hadded
        rw [hname] at hreferent
        exact ⟨ref, List.mem_append_right _ List.mem_cons_self, hreferent⟩
    · exact hsame

/-- Any tasks add at most what their references stand for. -/
theorem accounts_perform (context : BuildContext) (h : Stands r context.showMissing b)
    (hr : r.Indexed) {refs : List Reference}
    (hb : r.Accounts context.showMissing refs b.symbols.registry) (tasks : List Task) :
    r.Accounts context.showMissing (refs ++ tasks.filterMap (·.reference?))
      (perform context r tasks b).symbols.registry := by
  induction tasks generalizing b refs with
  | nil => rwa [List.filterMap_nil, List.append_nil]
  | cons task tasks ih =>
    have hrest := ih (h.task context hr task) (accounts_task context h hr hb task)
    rw [List.append_assoc] at hrest
    refine hrest.mono (List.append_subset.2 ⟨List.subset_append_left _ _, ?_⟩)
    rw [List.filterMap_cons]
    cases task.reference? <;> simp

/-! ## Errors -/

/-- Binding a reference reports its failure. -/
theorem errors_link (hr : r.Indexed) (hsymbols : b.symbols.Extends r) (renderer : Renderer)
    (showMissing : Bool) {owner : Entity} (howner : (r.get? owner.qualifiedName).isSome)
    (field reference : String) :
    (Build.link ⟨renderer, showMissing⟩ owner field reference b).2.report.errors =
      b.report.errors ++
        (Reference.failure? r showMissing ⟨owner.qualifiedName, field, reference⟩).toList := by
  have hreferent := hsymbols.resolve_eq hr howner showMissing reference
  unfold Reference.failure?
  rw [← hreferent]
  cases hresolve : b.symbols.resolve showMissing owner.qualifiedName reference with
  | mk outcome symbols =>
    rw [link_eq, hresolve]
    cases outcome with
    | error e => rfl
    | ok referent =>
      rw [Option.toList_none, List.append_nil]
      cases referent with
      | scalar => rfl
      | entity q => cases hq : symbols.registry.get? q <;> simp only [hq]

/-- The errors of some tasks are the failures of their references, in this order. -/
theorem errors_perform (hr : r.Indexed) (renderer : Renderer) (h : Stands r showMissing b)
    {tasks : List Task}
    (howned : ∀ ref ∈ tasks.filterMap (·.reference?), (r.get? ref.owner).isSome) :
    (perform ⟨renderer, showMissing⟩ r tasks b).report.errors =
      b.report.errors ++
        (tasks.filterMap (·.reference?)).filterMap (Reference.failure? r showMissing) := by
  induction tasks generalizing b with
  | nil => exact (List.append_nil _).symm
  | cons task tasks ih =>
    have hrest := ih (h.task ⟨renderer, showMissing⟩ hr task) fun ref href => howned ref (by
      rw [List.filterMap_cons]
      split
      · exact href
      · exact List.mem_cons_of_mem _ href)
    have hstep : (task.perform ⟨renderer, showMissing⟩ r b).report.errors = b.report.errors ++
        ([task].filterMap (·.reference?)).filterMap (Reference.failure? r showMissing) := by
      cases task with
      | claim | skip => exact (List.append_nil _).symm
      | draw q rows =>
        rw [Task.perform]
        split <;> exact (List.append_nil _).symm
      | link ref =>
        have hsome := howned ref (List.mem_cons_self ..)
        obtain ⟨owner, howner⟩ := Option.isSome_iff_exists.1 hsome
        have hname := hr.stored howner
        have howns : (r.get? owner.qualifiedName).isSome := hname ▸ hsome
        have herrors :=
          errors_link hr h.symbols renderer showMissing howns ref.field ref.typeName
        rw [Task.perform]
        simp only [howner, herrors, hname]
        cases hfailure : Reference.failure? r showMissing ref <;> simp [Task.reference?, hfailure]
    show (perform _ r tasks (task.perform _ r b)).report.errors = _
    rw [hrest, hstep, List.append_assoc, ← List.filterMap_append, ← List.filterMap_append]
    rfl

theorem errors_drawPlaceholders (context : BuildContext) (b : Build) :
    (drawPlaceholders context b).2.report.errors = b.report.errors :=
  drawPlaceholders_induction (P := fun b' => b'.report.errors = b.report.errors)
    (fun _ _ _ _ hb => hb) rfl

variable {entered files : List (String × SchemaFile)}

theorem stands_start (entered : List (String × SchemaFile)) (showMissing : Bool) :
    Stands (Registry.empty.declareFiles entered) showMissing
      (start (.ofRegistry (Registry.empty.declareFiles entered)) .empty) :=
  ⟨Symbols.extends_ofRegistry (Registry.coherent_declareFiles entered),
    fun _ _ hq he => absurd (hq.symm.trans he) (by simp)⟩

/-- The references that a build binds belong to entities declared. -/
theorem owned_references (hnodup : (entered.map (·.1)).Nodup) (hperm : files.Perm entered) :
    ∀ ref ∈ references entered files,
      ((Registry.empty.declareFiles entered).get? ref.owner).isSome :=
  fun ref href => (tracks_buildAll hnodup hperm (fun _ _ => "") false).owned ref
    ((references_perm hnodup hperm).mem_iff.1 href)

/-- The errors of a build are the failures of its references, in build order. -/
theorem errors_buildAll (hnodup : (entered.map (·.1)).Nodup) (hperm : files.Perm entered)
    (renderer : Renderer) (showMissing : Bool) :
    (buildAll ⟨renderer, showMissing⟩ files
        (start (.ofRegistry (Registry.empty.declareFiles entered)) .empty)).2.report.errors =
      (references entered files).filterMap
        (Reference.failure? (Registry.empty.declareFiles entered) showMissing) := by
  have hindexed := (Registry.coherent_declareFiles entered).indexed
  rw [buildAll_eq hnodup hperm, errors_drawPlaceholders,
    errors_perform hindexed renderer (stands_start entered showMissing), filterMap_tasks]
  · rfl
  · rw [filterMap_tasks]
    exact owned_references hnodup hperm

/-- What a build adds to the entities declared are placeholders for references inside them. -/
theorem places_buildAll (hnodup : (entered.map (·.1)).Nodup) (hperm : files.Perm entered)
    (renderer : Renderer) (showMissing : Bool) :
    (Registry.empty.declareFiles entered).Places showMissing
      (buildAll ⟨renderer, showMissing⟩ files
        (start (.ofRegistry (Registry.empty.declareFiles entered)) .empty)).2.symbols.registry := by
  rw [buildAll_eq hnodup hperm]
  refine (drawPlaceholders_induction
    (P := Stands (Registry.empty.declareFiles entered) showMissing)
    (fun e _ _ _ hb => hb.attach ⟨renderer, showMissing⟩ e []) ?_).places
  exact (stands_start entered showMissing).perform ⟨renderer, showMissing⟩
    (Registry.coherent_declareFiles entered).indexed _

/-- What a build adds to the entities declared is what references of winners stand for. -/
theorem accounts_buildAll (hnodup : (entered.map (·.1)).Nodup) (hperm : files.Perm entered)
    (renderer : Renderer) (showMissing : Bool) :
    (Registry.empty.declareFiles entered).Accounts showMissing
      ((Winner.ofFiles entered).flatMap (·.references))
      (buildAll ⟨renderer, showMissing⟩ files
        (start (.ofRegistry (Registry.empty.declareFiles entered)) .empty)).2.symbols.registry := by
  have htasks := accounts_perform ⟨renderer, showMissing⟩ (stands_start entered showMissing)
    (Registry.coherent_declareFiles entered).indexed
    (Registry.accounts_refl (Registry.empty.declareFiles entered) showMissing)
    (tasks ((Registry.empty.declareFiles entered).fieldKind showMissing) entered files)
  rw [List.nil_append, filterMap_tasks] at htasks
  have hwinners := htasks.mono (references_perm hnodup hperm).subset
  rw [buildAll_eq hnodup hperm]
  generalize (Winner.ofFiles entered).flatMap (·.references) = refs at hwinners ⊢
  exact drawPlaceholders_induction
    (P := fun b => (Registry.empty.declareFiles entered).Accounts showMissing refs
      b.symbols.registry)
    (fun _ _ _ _ hb => hb.setArtifact _ _) hwinners

end Build
end SchemaGraph
