import SchemaGraph.Proofs.Binding.Unambiguous
import SchemaGraph.Proofs.Graph.Outcome
import SchemaGraph.Proofs.Registry.Placeholder
/-!
# Showing missing types or refusing them

A reference that nothing answers becomes a placeholder when missing types are shown, and an error
when they are not. `Build.Agrees` relates the two ways of building: as long as the strict one
reports no error, the other one does the same. `LoadedGraph.load_strict_permissive` compares whole
loads.
-/

namespace SchemaGraph

/-! ## Strict and permissive builds -/

/-- What binds without placeholders binds in the same way with them. -/
theorem Symbols.resolve_of_ok {s s' : Symbols} {scope reference : String} {referent : Referent}
    (h : s.resolve false scope reference = (.ok referent, s')) :
    s.resolve true scope reference = (.ok referent, s') := by
  unfold Symbols.resolve at h ⊢
  split at h
  · rename_i hscalar
    rwa [if_pos hscalar]
  · rename_i hscalar
    rw [if_neg hscalar]
    split at h
    · exact h
    · split at h
      · cases h
      · exact h
      · cases h

namespace Build

/-- `Agrees strict permissive`: where the first step ends without errors, it started without any,
and the second one does the same. -/
def Agrees {α : Type} (strict permissive : Step α) : Prop :=
  ∀ b, (strict b).2.report.errors = [] → b.report.errors = [] ∧ permissive b = strict b

theorem Agrees.of_errors {α : Type} {x : Step α}
    (h : ∀ b, (x b).2.report.errors = b.report.errors) : Agrees x x :=
  fun b hnil => ⟨(h b).symm.trans hnil, rfl⟩

theorem Agrees.pure {α : Type} (a : α) : Agrees (Pure.pure a : Step α) (Pure.pure a) :=
  .of_errors fun _ => rfl

theorem Agrees.bind {α β : Type} {x y : Step α} {f g : α → Step β} (h : Agrees x y)
    (hfg : ∀ a, Agrees (f a) (g a)) : Agrees (x >>= f) (y >>= g) := by
  intro b hnil
  have hsecond := hfg (x b).1 (x b).2 hnil
  have hfirst := h b hsecond.1
  refine ⟨hfirst.1, ?_⟩
  show g (y b).1 (y b).2 = f (x b).1 (x b).2
  rw [hfirst.2, hsecond.2]

theorem Agrees.forM {α : Type} {f g : α → Step Unit} (h : ∀ x, Agrees (f x) (g x))
    (xs : List α) : Agrees (xs.forM f) (xs.forM g) := by
  induction xs with
  | nil => exact Agrees.pure ()
  | cons x xs ih => exact (h x).bind fun _ => ih

theorem Agrees.mapM {α β : Type} {f g : α → Step β} (h : ∀ x, Agrees (f x) (g x))
    (xs : List α) : Agrees (xs.mapM f) (xs.mapM g) := by
  induction xs with
  | nil => exact Agrees.pure []
  | cons x xs ih =>
    rw [List.mapM_cons, List.mapM_cons]
    exact (h x).bind fun _ => ih.bind fun _ => Agrees.pure _

variable (renderer : Renderer)

theorem agrees_link (owner : Entity) (field reference : String) :
    Agrees (link ⟨renderer, false⟩ owner field reference)
      (link ⟨renderer, true⟩ owner field reference) := by
  intro b hnil
  cases hresolve : b.symbols.resolve false owner.qualifiedName reference with
  | mk outcome symbols =>
    rw [link_eq, hresolve] at hnil
    cases outcome with
    | error e =>
      have hnil : b.report.errors ++ [e] = [] := hnil
      simp at hnil
    | ok referent =>
      rw [link_eq, link_eq, hresolve, Symbols.resolve_of_ok hresolve]
      refine ⟨?_, rfl⟩
      cases referent with
      | scalar => exact hnil
      | entity q => cases hq : symbols.registry.get? q <;> simp only [hq] at hnil <;> exact hnil

theorem agrees_claimBody (source q : String) (kind : EntityKind) :
    Agrees (claimBody source q kind) (claimBody source q kind) := by
  refine .of_errors fun b => ?_
  rw [claimBody_eq]
  split
  · rfl
  · split <;> rfl

theorem agrees_unsupported (construct : Construct) (scope : String) :
    Agrees (unsupported construct scope) (unsupported construct scope) :=
  .of_errors fun _ => rfl

theorem agrees_attach (entity : Entity) (rows : List BodyRow) :
    Agrees (attach ⟨renderer, false⟩ entity rows) (attach ⟨renderer, true⟩ entity rows) :=
  .of_errors fun _ => rfl

/-- A declaration is processed in both ways alike, if its body is. -/
theorem Agrees.claim {α : Type} {source q : String} {kind : EntityKind} {none : Step α}
    {body body' : Entity → Step α} (hnone : Agrees none none)
    (hbody : ∀ owner, Agrees (body owner) (body' owner)) :
    Agrees (do
        match ← claimBody source q kind with
        | .none => none
        | some owner => body owner)
      (do
        match ← claimBody source q kind with
        | .none => none
        | some owner => body' owner) :=
  (agrees_claimBody source q kind).bind fun owner? => by
    cases owner? with
    | none => exact hnone
    | some owner => exact hbody owner

theorem agrees_fieldRow (owner : Entity) (oneof : Option String) (field : Field) :
    Agrees (fieldRow ⟨renderer, false⟩ owner oneof field)
      (fieldRow ⟨renderer, true⟩ owner oneof field) :=
  (agrees_link renderer owner field.name field.typeName).bind fun _ => Agrees.pure _

theorem agrees_oneofRows (owner : Entity) (oneof : String) (members : List OneofElement) :
    Agrees (oneofRows ⟨renderer, false⟩ owner oneof members)
      (oneofRows ⟨renderer, true⟩ owner oneof members) := by
  induction members with
  | nil => exact Agrees.pure []
  | cons member members ih =>
    cases member with
    | field field =>
      exact (agrees_fieldRow renderer owner (some oneof) field).bind fun _ =>
        ih.bind fun _ => Agrees.pure _
    | group label name number elements line =>
      exact (agrees_unsupported (.group name) owner.qualifiedName).bind fun _ => ih
    | option | comment => exact ih

theorem agrees_buildEnum (source scope : String) (decl : EnumDecl) :
    Agrees (buildEnum ⟨renderer, false⟩ source scope decl)
      (buildEnum ⟨renderer, true⟩ source scope decl) :=
  .claim (Agrees.pure ()) fun owner => agrees_attach renderer owner _

mutual

theorem agrees_elementRows (source : String) (owner : Entity) (e : MessageElement) :
    Agrees (elementRows ⟨renderer, false⟩ source owner e)
      (elementRows ⟨renderer, true⟩ source owner e) := by
  cases e with
  | field field =>
    exact (agrees_fieldRow renderer owner none field).bind fun _ => Agrees.pure _
  | map m =>
    exact (agrees_link renderer owner m.name m.valueType).bind fun _ => Agrees.pure _
  | oneof name members => exact agrees_oneofRows renderer owner name members
  | enum decl =>
    exact (agrees_buildEnum renderer source owner.qualifiedName decl).bind fun _ => Agrees.pure _
  | message name elements line =>
    rw [elementRows, elementRows]
    exact .claim (Agrees.pure []) fun entity =>
      (agrees_bodyRows source entity elements).bind fun _ =>
        (agrees_attach renderer entity _).bind fun _ => Agrees.pure []
  | group label name number elements line =>
    exact (agrees_unsupported (.group name) owner.qualifiedName).bind fun _ => Agrees.pure _
  | extend target elements line =>
    exact (agrees_unsupported (.extend target) owner.qualifiedName).bind fun _ => Agrees.pure _
  | reserved | extensions | option | comment => exact Agrees.pure []

theorem agrees_bodyRows (source : String) (owner : Entity) (es : List MessageElement) :
    Agrees (bodyRows ⟨renderer, false⟩ source owner es)
      (bodyRows ⟨renderer, true⟩ source owner es) := by
  cases es with
  | nil => exact Agrees.pure []
  | cons e es =>
    rw [bodyRows, bodyRows]
    exact (agrees_elementRows source owner e).bind fun _ =>
      (agrees_bodyRows source owner es).bind fun _ => Agrees.pure _

end

theorem agrees_buildMessage (source scope : String) (decl : Message) :
    Agrees (buildMessage ⟨renderer, false⟩ source scope decl)
      (buildMessage ⟨renderer, true⟩ source scope decl) :=
  .claim (Agrees.pure ()) fun owner =>
    (agrees_bodyRows renderer source owner decl.elements).bind fun _ =>
      agrees_attach renderer owner _

theorem agrees_rpcRow (owner : Entity) (rpc : Rpc) :
    Agrees (rpcRow ⟨renderer, false⟩ owner rpc) (rpcRow ⟨renderer, true⟩ owner rpc) :=
  (agrees_link renderer owner (requestField rpc.name) rpc.requestType).bind fun _ =>
    (agrees_link renderer owner (responseField rpc.name) rpc.responseType).bind fun _ =>
      Agrees.pure _

theorem agrees_buildService (source scope : String) (decl : Service) :
    Agrees (buildService ⟨renderer, false⟩ source scope decl)
      (buildService ⟨renderer, true⟩ source scope decl) :=
  .claim (Agrees.pure ()) fun owner =>
    (Agrees.mapM (agrees_rpcRow renderer owner) decl.rpcs).bind fun _ =>
      agrees_attach renderer owner _

theorem agrees_buildFileElement (source package : String) (e : FileElement) :
    Agrees (buildFileElement ⟨renderer, false⟩ source package e)
      (buildFileElement ⟨renderer, true⟩ source package e) := by
  cases e with
  | message decl => exact agrees_buildMessage renderer source package decl
  | enum decl => exact agrees_buildEnum renderer source package decl
  | service decl => exact agrees_buildService renderer source package decl
  | extend decl => exact agrees_unsupported (.extend decl.target) package
  | option | comment => exact Agrees.pure ()

theorem agrees_drawPlaceholders :
    Agrees (drawPlaceholders ⟨renderer, false⟩) (drawPlaceholders ⟨renderer, true⟩) :=
  (Agrees.of_errors (x := get) fun _ => rfl).bind fun _ =>
    Agrees.forM (fun e => agrees_attach renderer e []) _

/-- Two builds over the same files are the same, if the strict one ends without errors. -/
theorem agrees_buildAll (files : List (String × SchemaFile)) :
    Agrees (buildAll ⟨renderer, false⟩ files) (buildAll ⟨renderer, true⟩ files) := by
  have hfile (file : String × SchemaFile) :
      Agrees (buildFile ⟨renderer, false⟩ file.1 file.2)
        (buildFile ⟨renderer, true⟩ file.1 file.2) :=
    Agrees.forM (agrees_buildFileElement renderer file.1 file.2.packageName) file.2.elements
  exact (Agrees.forM hfile files).bind fun _ => agrees_drawPlaceholders renderer

end Build

/-! ## Failures -/

namespace Reference

variable {r : Registry}

/-- With placeholders no reference fails. -/
theorem failure?_true (hr : r.Indexed) (hqualified : r.Qualified) (ref : Reference) :
    ref.failure? r true = none := by
  obtain ⟨answer, hanswer⟩ := Registry.exists_bind hr hqualified ref.owner ref.typeName
  unfold failure?
  rw [Registry.referent_eq hr, hanswer]
  cases hscalar : Name.isScalar ref.typeName with
  | true => rfl
  | false => cases answer <;> rfl

/-- Without placeholders those references fail that are not answered. -/
theorem failure?_false (hr : r.Indexed) (hqualified : r.Qualified) (ref : Reference) :
    (r.Answers ref.owner ref.typeName ∧ ref.failure? r false = none) ∨
      (¬ r.Answers ref.owner ref.typeName ∧
        ref.failure? r false = some (.unresolved ref.owner ref.typeName)) := by
  obtain ⟨answer, hanswer⟩ := Registry.exists_bind hr hqualified ref.owner ref.typeName
  unfold failure? Registry.Answers
  rw [Registry.referent_eq hr, hanswer]
  cases hscalar : Name.isScalar ref.typeName with
  | true => exact .inl ⟨.inl rfl, rfl⟩
  | false =>
    cases answer with
    | some q => exact .inl ⟨.inr ⟨q, rfl⟩, rfl⟩
    | none => exact .inr ⟨by simp, rfl⟩

/-- What a reference that is not answered stands for when missing types are shown. -/
theorem referent_of_not_answers (hr : r.Indexed) (hqualified : r.Qualified) {ref : Reference}
    (h : ¬ r.Answers ref.owner ref.typeName) {owner : Entity}
    (howner : r.get? ref.owner = some owner) :
    r.referent true ref.owner ref.typeName =
      .ok (.entity (Registry.placeholderName owner.nodeId ref.typeName)) := by
  obtain ⟨answer, hanswer⟩ := Registry.exists_bind hr hqualified ref.owner ref.typeName
  unfold Registry.Answers at h
  rw [hanswer, not_or] at h
  rw [Registry.referent_eq hr, hanswer, if_neg h.1, Symbols.ownerId_of_get? howner]
  cases answer with
  | some q => exact absurd ⟨q, rfl⟩ h.2
  | none => rfl

end Reference

/-! ## Whole loads -/

namespace Walk

theorem followWith_congr {visit visit' : String → Walk → Except WalkError Unit × Walk}
    (h : ∀ name w, visit name w = visit' name w) (imports : List Import) (w : Walk) :
    followWith visit imports w = followWith visit' imports w := by
  rw [show visit = visit' from funext fun name => funext (h name)]

/-- Walks do not look at what becomes of missing types. -/
theorem visit_showMissing (loader : Loader) (allow showMissing showMissing' : Bool) (depth : Nat)
    (importer : Option String) (name : String) (w : Walk) :
    visit loader ⟨allow, showMissing⟩ depth importer name w =
      visit loader ⟨allow, showMissing'⟩ depth importer name w := by
  induction depth generalizing importer name w with
  | zero => rfl
  | succ depth ih =>
    rw [visit, visit]
    simp only [followWith_congr fun name w => ih (some _) name w]

theorem run_showMissing (loader : Loader) (allow showMissing showMissing' : Bool) (root : String)
    (registry : Registry) :
    run loader ⟨allow, showMissing⟩ root registry =
      run loader ⟨allow, showMissing'⟩ root registry :=
  visit_showMissing ..

end Walk

namespace LoadedGraph

variable {loader : Loader} {options : RunOptions} {allow showMissing : Bool} {renderer : Renderer}
  {root : String} {walk : Walk} {entered : List (String × SchemaFile)}

theorem load_of_walkError {e : WalkError}
    (h : Walk.run loader options root .empty = (.error e, walk)) :
    load loader options renderer root = .error (.walk e) := by
  unfold load
  rw [h]

theorem load_of_errors {e : BindingError} {es : List BindingError}
    (h : Walk.run loader options root .empty = (.ok (), walk))
    (herrors : (buildOf renderer options walk).report.errors = e :: es) :
    load loader options renderer root = .error (.binding e) := by
  unfold load
  simp only [h, herrors]

/-- What a load gives whose build reports no error. -/
theorem load_of_build {build : Build} (h : Walk.run loader options root .empty = (.ok (), walk))
    (hbuild : buildOf renderer options walk = build) (herrors : build.report.errors = []) :
    load loader options renderer root =
      .ok ⟨unitIdentifier root, options, build.symbols, build.graph, walk.units,
        { build.report with duplicates := walk.duplicates.length }⟩ := by
  subst hbuild
  unfold load
  simp only [h, herrors]

theorem errors_buildOf (h : Walk.Traverses (.start .empty) walk entered) (renderer : Renderer)
    (allow showMissing : Bool) :
    (buildOf renderer ⟨allow, showMissing⟩ walk).report.errors =
      (Build.references entered walk.files).filterMap
        (Reference.failure? walk.registry showMissing) := by
  obtain ⟨hperm, hregistry⟩ := h.of_start
  have herrors := Build.errors_buildAll h.nodup hperm renderer showMissing
  rwa [← hregistry] at herrors

/-- A permissive build reports no error. -/
theorem errors_permissive (h : Walk.Traverses (.start .empty) walk entered) (renderer : Renderer)
    (allow : Bool) : (buildOf renderer ⟨allow, true⟩ walk).report.errors = [] := by
  have hregistry := h.of_start.2
  have hindexed := (hregistry ▸ Registry.coherent_declareFiles entered).indexed
  have hqualified := hregistry ▸ Registry.qualified_declareFiles entered
  rw [errors_buildOf h]
  exact List.filterMap_eq_nil_iff.2 fun ref _ => Reference.failure?_true hindexed hqualified ref

theorem places_buildOf (h : Walk.Traverses (.start .empty) walk entered) (renderer : Renderer)
    (allow showMissing : Bool) :
    walk.registry.Places showMissing
      (buildOf renderer ⟨allow, showMissing⟩ walk).symbols.registry := by
  obtain ⟨hperm, hregistry⟩ := h.of_start
  have hplaces := Build.places_buildAll h.nodup hperm renderer showMissing
  rwa [← hregistry] at hplaces

/-- A strict build that reports no error registers no placeholder. -/
theorem kind_ne_missing_of_strict (h : Walk.Traverses (.start .empty) walk entered)
    (renderer : Renderer) (allow : Bool) {q : String} {e : Entity}
    (he : (buildOf renderer ⟨allow, false⟩ walk).symbols.registry.get? q = some e) :
    e.kind ≠ .missing := by
  obtain ⟨-, hregistry⟩ := h.of_start
  cases hq : walk.registry.get? q with
  | none => exact absurd (places_buildOf h renderer allow false q e hq he).1 (by decide)
  | some e' =>
    obtain ⟨f, hf, hundrawn⟩ :=
      (tracks_buildOf h renderer ⟨allow, false⟩).symbols.grows.kept hq
    rw [he] at hf
    rw [Option.some.inj hf, Entity.kind_eq_of_undrawn hundrawn]
    rw [hregistry] at hq
    exact Registry.kind_ne_missing_of_declareFiles hq

/-- A permissive build registers a placeholder for a reference that nothing answers. -/
theorem exists_placeholder (h : Walk.Traverses (.start .empty) walk entered)
    (hdistinct : walk.registry.Distinguishes) (renderer : Renderer) (allow : Bool)
    {ref : Reference} (href : ref ∈ (Winner.ofFiles entered).flatMap (·.references))
    (hanswers : ¬ walk.registry.Answers ref.owner ref.typeName) :
    ∃ owner placeholder,
      (buildOf renderer ⟨allow, true⟩ walk).symbols.registry.get? ref.owner = some owner ∧
      (buildOf renderer ⟨allow, true⟩ walk).symbols.registry.get?
        (Registry.placeholderName owner.nodeId ref.typeName) = some placeholder ∧
      placeholder.kind = .missing ∧ placeholder.name = ref.typeName ∧
      placeholder.source = owner.source := by
  obtain ⟨-, hregistry⟩ := h.of_start
  have hcoherent := hregistry ▸ Registry.coherent_declareFiles entered
  have hqualified := hregistry ▸ Registry.qualified_declareFiles entered
  have htracks := tracks_buildOf h renderer ⟨allow, true⟩
  have hgrows := htracks.symbols.grows
  obtain ⟨declared, hdeclared⟩ := Option.isSome_iff_exists.1 (htracks.owned ref href)
  obtain ⟨owner, howner, hundrawn⟩ := hgrows.kept hdeclared
  have hid := hgrows.nodeId_eq hdeclared howner
  have hreferent :=
    Reference.referent_of_not_answers hcoherent.indexed hqualified hanswers hdeclared
  obtain ⟨placeholder, hplaceholder⟩ :=
    Option.isSome_iff_exists.1 (htracks.registered ref href hreferent)
  have hnew := hdistinct _ _ ref.typeName hdeclared
  obtain ⟨-, p, declared', hdeclared', hname, hsource⟩ :=
    places_buildOf h renderer allow true _ _ hnew hplaceholder
  -- The name of the placeholder tells to whom it belongs.
  obtain ⟨hids, hreference⟩ := Registry.placeholderName_inj
    (hcoherent.identified.dot_not_mem hdeclared) (hcoherent.identified.dot_not_mem hdeclared') hname
  have hp := hcoherent.identified.qualifiedName_eq hdeclared hdeclared' hids
  rw [← hp, hdeclared] at hdeclared'
  refine ⟨owner, placeholder, howner, hid ▸ hplaceholder, hgrows.added hnew hplaceholder,
    hreference.symm, ?_⟩
  rw [hsource, ← Option.some.inj hdeclared', Entity.eq_of_undrawn hundrawn]

/--
**Refusing missing types loads what showing them loads, or fails at the first of them.** Walks that
fail do so in both ways alike. After a walk that succeeds, if no entity declared is named like a
placeholder, showing missing types always succeeds. Refusing them succeeds just when no placeholder
has been registered, and then with the same graph; otherwise it fails with the first reference in
build order that nothing answers, for which the other graph has a placeholder.
-/
theorem load_strict_permissive (loader : Loader) (allow : Bool) (renderer : Renderer)
    (root : String) :
    (∀ e walk, Walk.run loader ⟨allow, true⟩ root .empty = (.error e, walk) →
      load loader ⟨allow, false⟩ renderer root = .error (.walk e) ∧
        load loader ⟨allow, true⟩ renderer root = .error (.walk e)) ∧
    ∀ walk, Walk.run loader ⟨allow, true⟩ root .empty = (.ok (), walk) →
      walk.registry.SparesPlaceholders →
      ∃ entered permissive, Walk.Traverses (.start .empty) walk entered ∧
        load loader ⟨allow, true⟩ renderer root = .ok permissive ∧
        ((∃ strict, load loader ⟨allow, false⟩ renderer root = .ok strict) ↔
          ∀ e ∈ permissive.registry.all, e.kind ≠ .missing) ∧
        (∀ strict, load loader ⟨allow, false⟩ renderer root = .ok strict →
          strict = { permissive with options := ⟨allow, false⟩ }) ∧
        ∀ e, load loader ⟨allow, false⟩ renderer root = .error e →
          ∃ before ref after owner placeholder,
            Build.references entered walk.files = before ++ ref :: after ∧
            (∀ earlier ∈ before, walk.registry.Answers earlier.owner earlier.typeName) ∧
            ¬ walk.registry.Answers ref.owner ref.typeName ∧
            e = .binding (.unresolved ref.owner ref.typeName) ∧
            permissive.registry.get? ref.owner = some owner ∧
            permissive.registry.get? (Registry.placeholderName owner.nodeId ref.typeName) =
              some placeholder ∧
            placeholder.kind = .missing ∧ placeholder.name = ref.typeName ∧
            placeholder.source = owner.source := by
  refine ⟨fun e walk hrun => ⟨?_, load_of_walkError hrun⟩, fun walk hrun hspares => ?_⟩
  · rw [Walk.run_showMissing loader allow true false] at hrun
    exact load_of_walkError hrun
  have hrun' := hrun
  rw [Walk.run_showMissing loader allow true false] at hrun'
  obtain ⟨entered, htraverses⟩ := Walk.run_traverses hrun
  obtain ⟨hperm, hregistry⟩ := htraverses.of_start
  have hindexed := (hregistry ▸ Registry.coherent_declareFiles entered).indexed
  have hqualified := hregistry ▸ Registry.qualified_declareFiles entered
  have hpermissive := errors_permissive htraverses renderer allow
  have hload := load_of_build hrun rfl hpermissive
  cases hstrict : (buildOf renderer ⟨allow, false⟩ walk).report.errors with
  | nil =>
    -- The strict build meets no failure, so both builds are one.
    have hsame : buildOf renderer ⟨allow, true⟩ walk = buildOf renderer ⟨allow, false⟩ walk :=
      congrArg Prod.snd (Build.agrees_buildAll renderer walk.files _ hstrict).2
    have hload' := load_of_build hrun' hsame.symm hpermissive
    refine ⟨entered, _, htraverses, hload, ⟨fun _ e he => ?_, fun _ => ⟨_, hload'⟩⟩,
      fun strict hok => ?_, fun e herror => ?_⟩
    · obtain ⟨q, hq⟩ := (Table.mem_values _ e).1 he
      exact kind_ne_missing_of_strict htraverses renderer allow (hsame ▸ hq)
    · rw [hload'] at hok
      exact (Except.ok.inj hok).symm
    · rw [hload'] at herror
      cases herror
  | cons failure failures =>
    have hload' := load_of_errors hrun' hstrict
    rw [errors_buildOf htraverses, List.filterMap_eq_cons_iff] at hstrict
    obtain ⟨before, ref, after, hreferences, hbefore, hfailure, -⟩ := hstrict
    have hanswers (earlier : Reference)
        (h : Reference.failure? walk.registry false earlier = none) :
        walk.registry.Answers earlier.owner earlier.typeName := by
      rcases Reference.failure?_false hindexed hqualified earlier with ⟨hyes, -⟩ | ⟨-, hsome⟩
      · exact hyes
      · rw [hsome] at h
        cases h
    rcases Reference.failure?_false hindexed hqualified ref with ⟨-, hnone⟩ | ⟨hno, hsome⟩
    · rw [hnone] at hfailure
      cases hfailure
    · rw [hsome] at hfailure
      have href : ref ∈ Build.references entered walk.files := by simp [hreferences]
      obtain ⟨owner, placeholder, howner, hplaceholder, hkind, hname, hsource⟩ :=
        exists_placeholder htraverses hspares.distinguishes renderer allow
          ((Build.references_perm htraverses.nodup hperm).mem_iff.1 href) hno
      refine ⟨entered, _, htraverses, hload, ⟨?_, fun hall => ?_⟩, ?_, fun e herror => ?_⟩
      · rintro ⟨strict, hok⟩
        rw [hload'] at hok
        cases hok
      · exact absurd hkind (hall placeholder ((Table.mem_values _ _).2 ⟨_, hplaceholder⟩))
      · intro strict hok
        rw [hload'] at hok
        cases hok
      · rw [hload', ← Option.some.inj hfailure] at herror
        exact ⟨before, ref, after, owner, placeholder, hreferences,
          fun earlier h => hanswers earlier (hbefore earlier h), hno,
          (Except.error.inj herror).symm, howner, hplaceholder, hkind, hname, hsource⟩

/-- Two units that import each other. Each of them names a type that neither declares. -/
def undeclaredTexts : Table String String :=
  .ofList
    [("a", "import \"b\";message A\x7bX x=1;\x7d"), ("b", "import \"a\";message B\x7bY y=1;\x7d")]

/-- The second unit is completed first, so it is its reference that strict loading fails with. -/
theorem load_undeclaredTexts : ∃ walk permissive owner placeholder,
    Walk.run (.ofTable undeclaredTexts) ⟨false, true⟩ "a" .empty = (.ok (), walk) ∧
      walk.registry.SparesPlaceholders ∧
      load (.ofTable undeclaredTexts) ⟨false, false⟩ (fun _ _ => "") "a" =
        .error (.binding (.unresolved "B" "Y")) ∧
      load (.ofTable undeclaredTexts) ⟨false, true⟩ (fun _ _ => "") "a" = .ok permissive ∧
      permissive.registry.get? "B" = some owner ∧
      permissive.registry.get? (Registry.placeholderName owner.nodeId "Y") = some placeholder ∧
      placeholder.kind = .missing := by
  have hwalked : (match Walk.run (.ofTable undeclaredTexts) ⟨false, true⟩ "a" .empty with
      | (.ok (), walk) => walk.registry.entities.keys == ["A", "B"]
      | (.error _, _) => false) = true := by
    decide +kernel
  have hrefused : (match load (.ofTable undeclaredTexts) ⟨false, false⟩ (fun _ _ => "") "a" with
      | .error e => e == .binding (.unresolved "B" "Y")
      | .ok _ => false) = true := by
    decide +kernel
  cases hrun : Walk.run (.ofTable undeclaredTexts) ⟨false, true⟩ "a" .empty with
  | mk outcome walk =>
    cases outcome with
    | error e => simp [hrun] at hwalked
    | ok u =>
      simp only [hrun, beq_iff_eq] at hwalked
      have hspares : walk.registry.SparesPlaceholders := by
        rw [Registry.sparesPlaceholders_iff, hwalked]
        decide
      obtain ⟨entered, permissive, -, hload, -, -, hfails⟩ :=
        (load_strict_permissive (.ofTable undeclaredTexts) false (fun _ _ => "") "a").2 walk hrun
          hspares
      cases hstrict : load (.ofTable undeclaredTexts) ⟨false, false⟩ (fun _ _ => "") "a" with
      | ok g => simp [hstrict] at hrefused
      | error e =>
        simp only [hstrict, beq_iff_eq] at hrefused
        obtain ⟨-, ref, -, owner, placeholder, -, -, -, he, howner, hplaceholder, hkind, -⟩ :=
          hfails e hstrict
        rw [hrefused] at he
        simp only [LoadError.binding.injEq, BindingError.unresolved.injEq] at he
        rw [← he.1] at howner
        rw [← he.2] at hplaceholder
        exact ⟨walk, permissive, owner, placeholder, rfl, hspares, congrArg _ hrefused, hload,
          howner, hplaceholder, hkind⟩

end LoadedGraph
end SchemaGraph
