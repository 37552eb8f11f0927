import SchemaGraph.Proofs.Graph.Tracking
import SchemaGraph.Proofs.Registry.Outline
/-!
# A build as a list of tasks

What a build does is known before it starts: `Outline.tasks` reads off the outline of a file which
bodies are processed, which references are bound and which rows are drawn, in this order. `Does`
says that a step of a build performs given tasks and nothing else. Every function of the build does
what the outline says (`Ready.file`), so that anything about a whole build can be shown by an
induction over a list.
-/

namespace SchemaGraph

/-- The kind that the type of a field of `scope` has in the registry `r` or in a grown one: what
such a one has more are placeholders. -/
def Registry.fieldKind (r : Registry) (showMissing : Bool) (scope typeName : String) : FieldKind :=
  match r.referent showMissing scope typeName with
  | .ok .scalar => .scalar
  | .ok (.entity q) => ((r.get? q).map fun e => FieldKind.ofEntityKind e.kind).getD .missing
  | .error _ => .unresolved

namespace Build

/-- One thing that a build does. -/
inductive Task where
  /-- The body of the entity is processed from here on. -/
  | claim (qualifiedName : String)
  | link (ref : Reference)
  | skip (construct : Construct) (scope : String)
  | draw (qualifiedName : String) (rows : List BodyRow)

/-- The build after a task, when the entities declared are those of `r`. -/
def Task.perform (context : BuildContext) (r : Registry) (b : Build) : Task → Build
  | .claim q => { b with built := q :: b.built }
  | .link ref =>
    match r.get? ref.owner with
    | some owner => (Build.link context owner ref.field ref.typeName b).2
    | none => b
  | .skip construct scope => (unsupported construct scope b).2
  | .draw q rows =>
    match r.get? q with
    | some entity => (attach context entity rows b).2
    | none => b

/-- The build after some tasks. -/
def perform (context : BuildContext) (r : Registry) (tasks : List Task) (b : Build) : Build :=
  tasks.foldl (Task.perform context r) b

end Build

namespace Outline

mutual

/-- What building does for an outline, when the given names are taken already and the types of a
scope have the given kinds. -/
def tasks (kinds : String → String → FieldKind) : Outline → List String → List Build.Task
  | .reference ref, _ => [.link ref]
  | .skipped construct scope, _ => [.skip construct scope]
  | .declaration w rows inside, taken =>
    if w.qualifiedName ∈ taken then []
    else
      match rows with
      | none => tasksIn kinds inside (taken ++ [w.qualifiedName])
      | some rows =>
        .claim w.qualifiedName :: tasksIn kinds inside (taken ++ [w.qualifiedName]) ++
          [.draw w.qualifiedName (rows (kinds w.qualifiedName))]

/-- What building does for a list of outlines. -/
def tasksIn (kinds : String → String → FieldKind) : List Outline → List String → List Build.Task
  | [], _ => []
  | o :: os, taken => tasks kinds o taken ++ tasksIn kinds os (o.takes taken)

end

theorem tasksIn_append (kinds : String → String → FieldKind) (os os' : List Outline)
    (taken : List String) :
    tasksIn kinds (os ++ os') taken =
      tasksIn kinds os taken ++ tasksIn kinds os' (takesIn os taken) := by
  induction os generalizing taken with
  | nil => simp [tasksIn, takesIn, winnersIn]
  | cons o os ih => rw [List.cons_append, tasksIn, tasksIn, ih, takesIn_cons, List.append_assoc]

@[simp] theorem tasksIn_reference_cons (kinds : String → String → FieldKind) (ref : Reference)
    (os : List Outline) (taken : List String) :
    tasksIn kinds (.reference ref :: os) taken = .link ref :: tasksIn kinds os taken := by
  rw [tasksIn, tasks, takes, winners, List.map_nil, List.append_nil]
  rfl

@[simp] theorem tasksIn_skipped_cons (kinds : String → String → FieldKind) (construct : Construct)
    (scope : String) (os : List Outline) (taken : List String) :
    tasksIn kinds (.skipped construct scope :: os) taken =
      .skip construct scope :: tasksIn kinds os taken := by
  rw [tasksIn, tasks, takes, winners, List.map_nil, List.append_nil]
  rfl

theorem tasksIn_singleton (kinds : String → String → FieldKind) (o : Outline)
    (taken : List String) : tasksIn kinds [o] taken = tasks kinds o taken := by
  rw [tasksIn, tasksIn, List.append_nil]

theorem tasksIn_references (kinds : String → String → FieldKind) (refs : List Reference)
    (os : List Outline) (taken : List String) :
    tasksIn kinds (refs.map .reference ++ os) taken = refs.map .link ++ tasksIn kinds os taken := by
  induction refs with
  | nil => rfl
  | cons ref refs ih =>
    rw [List.map_cons, List.map_cons, List.cons_append, List.cons_append, tasksIn_reference_cons,
      ih]

/-- A method has no body of its own: whether its name is lost or not, its references are bound. -/
theorem tasksIn_rpcs (kinds : String → String → FieldKind) (site : DeclarationSite)
    (service : String) (rpcs : List Rpc) (taken : List String) :
    tasksIn kinds (rpcs.flatMap (Rpc.outline site service)) taken =
      rpcs.flatMap fun rpc => (rpc.references service).map .link := by
  induction rpcs generalizing taken with
  | nil => rfl
  | cons rpc rpcs ih =>
    have hnone (w : Winner) (taken : List String) :
        tasks kinds (.declaration w none []) taken = [] := by
      rw [tasks]
      split <;> rfl
    rw [List.flatMap_cons, List.flatMap_cons, Rpc.outline, List.cons_append, tasksIn, hnone,
      List.nil_append, tasksIn_references, ih]

end Outline

namespace Build

variable {r : Registry} {showMissing : Bool} {winners : List Winner} {source : String}
  {before taken : List String} {b : Build} {context : BuildContext}

/-! ## Steps and their tasks -/

/-- What has not been processed has not been drawn. -/
def Undrawn (b : Build) : Prop :=
  ∀ q e, b.symbols.registry.get? q = some e → q ∉ b.built → e.artifact = none

/-- At `b` the step has the given answer and performs the given tasks. -/
structure Does {α : Type} (r : Registry) (context : BuildContext) (step : Step α) (answer : α)
    (tasks : List Task) (b : Build) : Prop where
  answer : (step b).1 = answer
  state : (step b).2 = perform context r tasks b
  undrawn : Undrawn (step b).2
  built : b.built ⊆ (step b).2.built

theorem Does.pure {α : Type} (h : Undrawn b) (answer : α) :
    Does r context (Pure.pure answer) answer [] b :=
  ⟨rfl, rfl, h, fun _ hq => hq⟩

theorem Does.bind {α β : Type} {x : Step α} {f : α → Step β} {a : α} {c : β}
    {tasks tasks' : List Task} (hx : Does r context x a tasks b)
    (hf : Does r context (f a) c tasks' (x b).2) :
    Does r context (x >>= f) c (tasks ++ tasks') b := by
  have hrun : (x >>= f) b = f a (x b).2 := by
    rw [← hx.answer]
    rfl
  refine ⟨hrun ▸ hf.answer, ?_, hrun ▸ hf.undrawn, fun q hq => ?_⟩
  · rw [hrun, hf.state, hx.state, perform, perform, perform, List.foldl_append]
  · rw [hrun]
    exact hf.built (hx.built hq)

/-- A step that only changes the answer performs no further tasks. -/
theorem Does.map {α β : Type} {x : Step α} {f : α → β} {a : α} {tasks : List Task}
    (hx : Does r context x a tasks b) :
    Does r context (x >>= fun a => Pure.pure (f a)) (f a) tasks b := by
  have h := hx.bind (f := fun a => Pure.pure (f a)) (Does.pure hx.undrawn (f a))
  rwa [List.append_nil] at h

/-! ## References, rows and drawings -/

/-- The registry of `r` holds one undrawn entity for each of the winners, and no others. -/
structure Founds (r : Registry) (winners : List Winner) : Prop where
  takes : Registry.Takes .empty winners r
  coherent : r.Coherent
  undrawn : ∀ q e, r.get? q = some e → e.artifact = none

/-- A build that stands inside the unit `source`, and has drawn only what it has processed. -/
structure Ready (r : Registry) (showMissing : Bool) (winners : List Winner) (source : String)
    (before taken : List String) (b : Build) : Prop where
  stands : ∃ refs, At r showMissing winners source before refs taken b
  undrawn : Undrawn b

theorem Ready.symbols (h : Ready r showMissing winners source before taken b) :
    b.symbols.Extends r := by
  obtain ⟨refs, hAt⟩ := h.stands
  exact hAt.tracks.symbols

/-- What resolving a reference adds to the registry is the placeholder of the reference. -/
theorem registry_resolve (s : Symbols) (showMissing : Bool) (scope reference : String) :
    (s.resolve showMissing scope reference).2.registry = s.registry ∨
      showMissing = true ∧ (s.resolve showMissing scope reference).2.registry =
        (s.placeholder scope reference).2.registry := by
  unfold Symbols.resolve
  split
  · exact .inl rfl
  · split
    · exact .inl rfl
    · split
      · exact .inl rfl
      · exact .inl rfl
      · split
        · rename_i hshow
          exact .inr ⟨hshow, rfl⟩
        · exact .inl rfl

/-- What resolving a reference adds has not been drawn. -/
theorem artifact_of_resolve {s : Symbols} {showMissing : Bool} {scope reference q : String}
    {e : Entity}
    (he : (s.resolve showMissing scope reference).2.registry.get? q = some e) :
    s.registry.get? q = some e ∨ s.registry.get? q = none ∧ e.artifact = none := by
  rcases registry_resolve s showMissing scope reference with heq | ⟨-, heq⟩
  · exact .inl (heq ▸ he)
  · obtain ⟨placeholderSource, hplaceholder⟩ := s.placeholder_eq scope reference
    rw [heq, hplaceholder, Registry.get?_placeholder] at he
    split at he
    · rename_i hq
      cases hpresent : s.registry.get? q with
      | some found =>
        rw [Registry.placeholder_of_present (hq ▸ hpresent)] at he
        exact .inl he
      | none =>
        rw [Registry.placeholder_of_absent (hq ▸ hpresent)] at he
        exact .inr ⟨rfl, Option.some.inj he ▸ rfl⟩
    · exact .inl he

theorem symbols_link (context : BuildContext) (owner : Entity) (field reference : String)
    (b : Build) : (link context owner field reference b).2.symbols =
      (b.symbols.resolve context.showMissing owner.qualifiedName reference).2 := by
  rw [link_eq]
  rcases b.symbols.resolve context.showMissing owner.qualifiedName reference with
    ⟨_ | _ | q, symbols⟩
  · rfl
  · rfl
  · dsimp only
    cases symbols.registry.get? q <;> rfl

/-- Binding a reference is answered with the kind that its type has in `r`. -/
theorem answer_link (hr : r.Indexed) (hsymbols : b.symbols.Extends r) (renderer : Renderer)
    {owner : Entity} (howner : (r.get? owner.qualifiedName).isSome) (field reference : String) :
    (link ⟨renderer, showMissing⟩ owner field reference b).1 =
      r.fieldKind showMissing owner.qualifiedName reference := by
  have hreferent := hsymbols.resolve_eq hr howner showMissing reference
  have hresolved := hsymbols.resolved showMissing owner.qualifiedName reference
  unfold Registry.fieldKind
  rw [← hreferent]
  cases hresolve : b.symbols.resolve showMissing owner.qualifiedName reference with
  | mk outcome symbols =>
    rw [link_eq, hresolve]
    rw [hresolve] at hresolved
    cases outcome with
    | error e => rfl
    | ok referent =>
      cases referent with
      | scalar => rfl
      | entity t =>
        obtain ⟨target, htarget⟩ := Option.isSome_iff_exists.1 (hresolved.registered rfl)
        simp only [htarget]
        cases ht : r.get? t with
        | none =>
          show FieldKind.ofEntityKind target.kind = _
          rw [hresolved.symbols.grows.added ht htarget]
          rfl
        | some e =>
          obtain ⟨target', htarget', hundrawn⟩ := hresolved.symbols.grows.kept ht
          rw [htarget] at htarget'
          show FieldKind.ofEntityKind target.kind = FieldKind.ofEntityKind e.kind
          rw [Option.some.inj htarget', Entity.eq_of_undrawn hundrawn]

/-- Binding a reference is one task. -/
theorem Ready.link (h : Ready r showMissing winners source before taken b)
    (hr : Founds r winners) (renderer : Renderer) {owner : Entity}
    (howner : r.get? owner.qualifiedName = some owner) (field reference : String) :
    Does r ⟨renderer, showMissing⟩ (link ⟨renderer, showMissing⟩ owner field reference)
      (r.fieldKind showMissing owner.qualifiedName reference)
      [.link ⟨owner.qualifiedName, field, reference⟩] b := by
  refine ⟨answer_link hr.coherent.indexed h.symbols renderer (by rw [howner]; rfl) field reference,
    ?_, fun q e he hq => ?_, ?_⟩
  · simp only [perform, List.foldl_cons, List.foldl_nil, Task.perform, howner]
  · rw [built_link] at hq
    rw [symbols_link] at he
    rcases artifact_of_resolve he with he | ⟨-, hnone⟩
    · exact h.undrawn q e he hq
    · exact hnone
  · rw [built_link]
    exact fun _ hq => hq

/-- What goes through references and performs tasks leaves the build ready. -/
theorem Ready.of_at {refs : List Reference}
    (h : At r showMissing winners source before refs taken b) (hundrawn : Undrawn b) :
    Ready r showMissing winners source before taken b :=
  ⟨⟨refs, h⟩, hundrawn⟩

theorem Ready.unsupported (h : Ready r showMissing winners source before taken b)
    (context : BuildContext) (construct : Construct) (scope : String) :
    Does r context (unsupported construct scope) () [.skip construct scope] b :=
  ⟨rfl, rfl, h.undrawn, fun _ hq => hq⟩

/-- Drawing an entity that has been processed is one task. -/
theorem Undrawn.attach (h : Undrawn b) (context : BuildContext) {owner : Entity}
    (howner : r.get? owner.qualifiedName = some owner) (hbuilt : owner.qualifiedName ∈ b.built)
    (rows : List BodyRow) :
    Does r context (attach context owner rows) () [.draw owner.qualifiedName rows] b := by
  refine ⟨rfl, ?_, fun q e he hq => ?_, fun _ hq => hq⟩
  · simp only [perform, List.foldl_cons, List.foldl_nil, Task.perform, howner]
  · have hne : q ≠ owner.qualifiedName := fun heq => hq (heq ▸ hbuilt)
    have hget := Registry.get?_setArtifact b.symbols.registry owner.qualifiedName
      (context.renderer owner rows) q
    rw [if_neg hne] at hget
    exact h q e (hget ▸ he) hq

theorem Ready.fieldRow (h : Ready r showMissing winners source before taken b)
    (hr : Founds r winners) (renderer : Renderer) {owner : Entity}
    (howner : r.get? owner.qualifiedName = some owner) (oneof : Option String) (field : Field) :
    Does r ⟨renderer, showMissing⟩ (fieldRow ⟨renderer, showMissing⟩ owner oneof field)
      (field.row oneof (r.fieldKind showMissing owner.qualifiedName field.typeName))
      [.link ⟨owner.qualifiedName, field.name, field.typeName⟩] b :=
  (h.link hr renderer howner field.name field.typeName).map

theorem Ready.oneofRows (h : Ready r showMissing winners source before taken b)
    (hr : Founds r winners) (renderer : Renderer) {owner : Entity}
    (howner : r.get? owner.qualifiedName = some owner) (oneof : String)
    (members : List OneofElement) :
    Does r ⟨renderer, showMissing⟩ (oneofRows ⟨renderer, showMissing⟩ owner oneof members)
      (members.flatMap (OneofElement.rows (r.fieldKind showMissing owner.qualifiedName) oneof))
      (Outline.tasksIn (r.fieldKind showMissing)
        (members.flatMap (OneofElement.outline owner.qualifiedName)) taken) b := by
  induction members generalizing b with
  | nil => exact Does.pure h.undrawn []
  | cons member members ih =>
    cases member with
    | field field =>
      have hfield := h.fieldRow hr renderer howner (some oneof) field
      obtain ⟨refs, hAt⟩ := h.stands
      have hrest := ih (.of_at (hAt.fieldRow hr.coherent.indexed ⟨owner, howner, rfl⟩ renderer
        (some oneof) field) hfield.undrawn)
      show Does _ _ _ _ (Outline.tasksIn _ (.reference _ :: members.flatMap _) taken) b
      rw [Outline.tasksIn_reference_cons]
      exact hfield.bind (hrest.map (f := (_ :: ·)))
    | group label name number elements line =>
      have hskip := h.unsupported ⟨renderer, showMissing⟩ (.group name) owner.qualifiedName
      obtain ⟨refs, hAt⟩ := h.stands
      have hrest := ih (.of_at (hAt.unsupported (.group name) owner.qualifiedName) hskip.undrawn)
      show Does _ _ _ _ (Outline.tasksIn _ (.skipped _ _ :: members.flatMap _) taken) b
      rw [Outline.tasksIn_skipped_cons]
      exact hskip.bind hrest
    | option decl => exact ih h
    | comment text => exact ih h

/-! ## Declarations -/

/-- A body is processed of the entity that `r` has for the name. -/
theorem get?_of_claimBody {q : String} {kind : EntityKind} {owner : Entity} {b' : Build}
    (hr : Founds r winners) (hsymbols : b.symbols.Extends r) (hundrawn : Undrawn b)
    (hq : (r.get? q).isSome) (h : claimBody source q kind b = (some owner, b')) :
    r.get? q = some owner := by
  obtain ⟨e, he⟩ := Option.isSome_iff_exists.1 hq
  obtain ⟨e', he', heq⟩ := hsymbols.grows.kept he
  rw [claimBody_eq, he'] at h
  dsimp only at h
  by_cases hcond : e'.source = source ∧ e'.kind = kind ∧ q ∉ b.built
  · rw [if_pos hcond, Prod.mk.injEq, Option.some.injEq] at h
    have hnone := hundrawn q e' he' hcond.2.2
    -- Neither of the two has been drawn, so they do not differ.
    have hsame := Entity.eq_of_undrawn heq
    rw [hnone, ← hr.undrawn q e he] at hsame
    rw [he, ← h.1, hsame]
  · rw [if_neg hcond] at h
    cases h

/-- A declaration is processed with what stands inside if it wins its name, and has no body
otherwise. -/
theorem Ready.claim (h : Ready r showMissing winners source before taken b)
    (hr : Founds r winners) {w : Winner} (hsource : w.source = source) (hrpc : w.kind ≠ .rpc)
    (hmissing : w.kind ≠ .missing) (kinds : String → String → FieldKind)
    (rows : (String → FieldKind) → List BodyRow) (inside : List Outline)
    (body : Entity → Step Unit)
    (hmem : ∀ v ∈ Outline.winners (.declaration w (some rows) inside) taken, v ∈ winners)
    (hbody : ∀ (owner : Entity) (b : Build), owner.qualifiedName = w.qualifiedName →
      r.get? owner.qualifiedName = some owner → w.qualifiedName ∈ b.built →
      (∀ v ∈ Outline.winnersIn inside (taken ++ [w.qualifiedName]), v ∈ winners) →
      Ready r showMissing winners source before (taken ++ [w.qualifiedName]) b →
      Does r context (body owner) ()
        (Outline.tasksIn kinds inside (taken ++ [w.qualifiedName]) ++
          [.draw w.qualifiedName (rows (kinds w.qualifiedName))]) b) :
    Does r context
      (do
        match ← claimBody source w.qualifiedName w.kind with
        | none => return ()
        | some owner => body owner)
      () (Outline.tasks kinds (.declaration w (some rows) inside) taken) b := by
  obtain ⟨refs, hAt⟩ := h.stands
  rw [Outline.tasks]
  rw [Outline.winners, Winner.contest] at hmem
  by_cases hq : w.qualifiedName ∈ taken
  · have hnone := claimBody_of_mem hr.takes h.symbols hAt.claims hrpc hmissing hq
    have hclaim : Does r context (claimBody source w.qualifiedName w.kind) none [] b :=
      ⟨by rw [hnone], by rw [hnone]; rfl, by rw [hnone]; exact h.undrawn,
        by rw [hnone]; exact fun _ hq => hq⟩
    rw [if_pos hq]
    exact hclaim.bind (Does.pure hclaim.undrawn ())
  · rw [if_neg hq] at hmem ⊢
    obtain ⟨owner, hsome, hname, -, hclaims⟩ := claimBody_of_winner hr.takes hr.coherent.indexed
      h.symbols hAt.claims (hmem w (by simp)) hsource hrpc hq
    have hregistered := (hr.takes.get?_isSome w.qualifiedName).2 ⟨w, hmem w (by simp), rfl⟩
    have howner := get?_of_claimBody hr h.symbols h.undrawn hregistered hsome
    have hundrawn : Undrawn { b with built := w.qualifiedName :: b.built } :=
      fun q e he hnot => h.undrawn q e he fun hbuilt => hnot (List.mem_cons_of_mem _ hbuilt)
    have hclaim : Does r context (claimBody source w.qualifiedName w.kind) (some owner)
        [.claim w.qualifiedName] b := by
      refine ⟨by rw [hsome], by rw [hsome]; rfl, by rw [hsome]; exact hundrawn, ?_⟩
      rw [hsome]
      exact fun _ hbuilt => List.mem_cons_of_mem _ hbuilt
    have htracks : Tracks r showMissing refs { b with built := w.qualifiedName :: b.built } :=
      hAt.tracks.grow h.symbols (Registry.Grows.refl _) rfl fun hnil => hnil
    refine hclaim.bind ?_
    rw [hsome]
    exact hbody owner _ hname (hname ▸ howner) List.mem_cons_self
      (fun v hv => hmem v (by simp [hv])) (.of_at ⟨htracks, hclaims⟩ hundrawn)

theorem Ready.enum (h : Ready r showMissing winners source before taken b)
    (hr : Founds r winners) (context : BuildContext) (kinds : String → String → FieldKind)
    (site : DeclarationSite) (hsource : site.source = source) (decl : EnumDecl)
    (hmem : ∀ v ∈ Outline.winners (decl.outline site) taken, v ∈ winners) :
    Does r context (buildEnum context source site.scope decl) ()
      (Outline.tasks kinds (decl.outline site) taken) b := by
  refine h.claim hr hsource (by simp) (by simp) kinds _ [] (fun owner =>
    Build.attach context owner decl.rows) hmem fun owner b hname howner hbuilt _ h => ?_
  have hdraw := h.undrawn.attach context howner (hname ▸ hbuilt) decl.rows
  rwa [hname] at hdraw

/-- A message that wins is processed, if its body is. -/
theorem Ready.message (h : Ready r showMissing winners source before taken b)
    (hr : Founds r winners) (renderer : Renderer) (site : DeclarationSite)
    (hsource : site.source = source) (decl : Message)
    (hmem : ∀ v ∈ Outline.winnersIn
      (MessageElement.outline site (.message decl.name decl.elements decl.line)) taken,
      v ∈ winners)
    (hbody : ∀ (owner : Entity) (taken : List String) (b : Build),
      r.get? owner.qualifiedName = some owner →
      (∀ v ∈ Outline.winnersIn (bodyOutline (site.inside owner.qualifiedName) decl.elements) taken,
        v ∈ winners) →
      Ready r showMissing winners source before taken b →
      Does r ⟨renderer, showMissing⟩ (bodyRows ⟨renderer, showMissing⟩ source owner decl.elements)
        (decl.elements.flatMap (·.rows (r.fieldKind showMissing owner.qualifiedName)))
        (Outline.tasksIn (r.fieldKind showMissing)
          (bodyOutline (site.inside owner.qualifiedName) decl.elements) taken) b) :
    Does r ⟨renderer, showMissing⟩ (buildMessage ⟨renderer, showMissing⟩ source site.scope decl) ()
      (Outline.tasksIn (r.fieldKind showMissing)
        (MessageElement.outline site (.message decl.name decl.elements decl.line)) taken) b := by
  rw [MessageElement.outline, Outline.winnersIn_singleton] at hmem
  rw [MessageElement.outline, Outline.tasksIn_singleton]
  refine h.claim hr hsource (by simp) (by simp) _ _ _ (fun owner => do
    let rows ← bodyRows ⟨renderer, showMissing⟩ source owner decl.elements
    Build.attach ⟨renderer, showMissing⟩ owner rows) hmem
    fun owner b hname howner hbuilt hinside h => ?_
  dsimp only at hname hinside hbuilt h ⊢
  rw [← hname] at hinside hbuilt h ⊢
  have hrows := hbody owner _ b howner hinside h
  exact hrows.bind (hrows.undrawn.attach _ howner (hrows.built hbuilt) _)

mutual

theorem Ready.elementRows (hr : Founds r winners) (renderer : Renderer) (site : DeclarationSite)
    (hsource : site.source = source) {owner : Entity}
    (howner : r.get? owner.qualifiedName = some owner) (e : MessageElement) {taken : List String}
    {b : Build} (h : Ready r showMissing winners source before taken b)
    (hmem : ∀ v ∈ Outline.winnersIn
      (MessageElement.outline (site.inside owner.qualifiedName) e) taken, v ∈ winners) :
    Does r ⟨renderer, showMissing⟩ (elementRows ⟨renderer, showMissing⟩ source owner e)
      (e.rows (r.fieldKind showMissing owner.qualifiedName))
      (Outline.tasksIn (r.fieldKind showMissing)
        (MessageElement.outline (site.inside owner.qualifiedName) e) taken) b := by
  cases e with
  | field field =>
    rw [MessageElement.outline, Outline.tasksIn_reference_cons]
    exact (h.fieldRow hr renderer howner none field).map (f := ([·]))
  | map m =>
    rw [MessageElement.outline, Outline.tasksIn_reference_cons]
    exact (h.link hr renderer howner m.name m.valueType).map
  | oneof name members =>
    rw [MessageElement.outline]
    exact h.oneofRows hr renderer howner name members
  | enum decl =>
    rw [MessageElement.outline] at hmem ⊢
    rw [Outline.winnersIn_singleton] at hmem
    rw [Outline.tasksIn_singleton]
    exact (h.enum hr ⟨renderer, showMissing⟩ _ (site.inside owner.qualifiedName) hsource decl
      hmem).map (f := fun _ => [])
  | message name elements line =>
    rw [elementRows_message]
    exact (h.message hr renderer (site.inside owner.qualifiedName) hsource ⟨name, elements, line⟩
      hmem fun entity taken b hentity hinside h =>
        Ready.bodyRows hr renderer (site.inside owner.qualifiedName) hsource hentity elements h
          hinside).map (f := fun _ => [])
  | group label name number elements line =>
    rw [MessageElement.outline, Outline.tasksIn_skipped_cons]
    exact (h.unsupported _ (.group name) owner.qualifiedName).map (f := fun _ => [])
  | extend target elements line =>
    rw [MessageElement.outline, Outline.tasksIn_skipped_cons]
    exact (h.unsupported _ (.extend target) owner.qualifiedName).map (f := fun _ => [])
  | reserved | extensions | option | comment => exact Does.pure h.undrawn []

theorem Ready.bodyRows (hr : Founds r winners) (renderer : Renderer) (site : DeclarationSite)
    (hsource : site.source = source) {owner : Entity}
    (howner : r.get? owner.qualifiedName = some owner) (es : List MessageElement)
    {taken : List String} {b : Build} (h : Ready r showMissing winners source before taken b)
    (hmem : ∀ v ∈ Outline.winnersIn (bodyOutline (site.inside owner.qualifiedName) es) taken,
      v ∈ winners) :
    Does r ⟨renderer, showMissing⟩ (bodyRows ⟨renderer, showMissing⟩ source owner es)
      (es.flatMap (·.rows (r.fieldKind showMissing owner.qualifiedName)))
      (Outline.tasksIn (r.fieldKind showMissing)
        (bodyOutline (site.inside owner.qualifiedName) es) taken) b := by
  cases es with
  | nil => exact Does.pure h.undrawn []
  | cons e es =>
    rw [bodyOutline, Outline.winnersIn_append] at hmem
    rw [bodyOutline, Outline.tasksIn_append, Build.bodyRows]
    have hfirst := Ready.elementRows hr renderer site hsource howner e h
      fun v hv => hmem v (List.mem_append_left _ hv)
    obtain ⟨refs, hAt⟩ := h.stands
    have hnext := At.elementRows hr.takes hr.coherent.indexed renderer site hsource
      owner.qualifiedName rfl ⟨owner, howner, rfl⟩ e hAt fun v hv => by
        rw [Outline.ofElement_eq_winnersIn] at hv
        exact hmem v (List.mem_append_left _ hv)
    rw [Outline.ofElement_eq_winnersIn] at hnext
    have hrest := Ready.bodyRows hr renderer site hsource howner es (.of_at hnext hfirst.undrawn)
      fun v hv => hmem v (List.mem_append_right _ hv)
    exact hfirst.bind hrest.map

end

/-! ## Services and files -/

theorem Ready.rpcRow (h : Ready r showMissing winners source before taken b)
    (hr : Founds r winners) (renderer : Renderer) {owner : Entity}
    (howner : r.get? owner.qualifiedName = some owner) (rpc : Rpc) :
    Does r ⟨renderer, showMissing⟩ (rpcRow ⟨renderer, showMissing⟩ owner rpc)
      (rpc.row (r.fieldKind showMissing owner.qualifiedName))
      ((rpc.references owner.qualifiedName).map .link) b := by
  obtain ⟨refs, hAt⟩ := h.stands
  have hrequest := h.link hr renderer howner (requestField rpc.name) rpc.requestType
  have hnext := Ready.of_at (hAt.link hr.coherent.indexed ⟨owner, howner, rfl⟩ renderer
    (requestField rpc.name) rpc.requestType) hrequest.undrawn
  have hresponse := hnext.link hr renderer howner (responseField rpc.name) rpc.responseType
  exact hrequest.bind hresponse.map

theorem Ready.rpcRows (h : Ready r showMissing winners source before taken b)
    (hr : Founds r winners) (renderer : Renderer) {owner : Entity}
    (howner : r.get? owner.qualifiedName = some owner) (rpcs : List Rpc) :
    Does r ⟨renderer, showMissing⟩ (rpcs.mapM (Build.rpcRow ⟨renderer, showMissing⟩ owner))
      (rpcs.map (Rpc.row (r.fieldKind showMissing owner.qualifiedName)))
      (rpcs.flatMap fun rpc => (rpc.references owner.qualifiedName).map .link) b := by
  induction rpcs generalizing b with
  | nil => exact Does.pure h.undrawn []
  | cons rpc rpcs ih =>
    have hrow := h.rpcRow hr renderer howner rpc
    obtain ⟨refs, hAt⟩ := h.stands
    have hrest := ih (.of_at (hAt.rpcRow hr.coherent.indexed ⟨owner, howner, rfl⟩ renderer rpc)
      hrow.undrawn)
    rw [List.mapM_cons]
    exact hrow.bind (hrest.map (f := (_ :: ·)))

theorem Ready.service (h : Ready r showMissing winners source before taken b)
    (hr : Founds r winners) (renderer : Renderer) (site : DeclarationSite)
    (hsource : site.source = source) (decl : Service)
    (hmem : ∀ v ∈ Outline.winners (decl.outline site) taken, v ∈ winners) :
    Does r ⟨renderer, showMissing⟩ (buildService ⟨renderer, showMissing⟩ source site.scope decl) ()
      (Outline.tasks (r.fieldKind showMissing) (decl.outline site) taken) b := by
  refine h.claim hr hsource (by simp) (by simp) _ _ _ (fun owner => do
    let rows ← decl.rpcs.mapM (Build.rpcRow ⟨renderer, showMissing⟩ owner)
    Build.attach ⟨renderer, showMissing⟩ owner rows) hmem
    fun owner b hname howner hbuilt _ h => ?_
  dsimp only at hname hbuilt h ⊢
  rw [← hname] at hbuilt h ⊢
  rw [Outline.tasksIn_rpcs]
  have hrows := h.rpcRows hr renderer howner decl.rpcs
  exact hrows.bind (hrows.undrawn.attach _ howner (hrows.built hbuilt) _)

theorem Ready.fileElement (h : Ready r showMissing winners source before taken b)
    (hr : Founds r winners) (renderer : Renderer) (package : String) (e : FileElement)
    (hmem : ∀ v ∈ Outline.winnersIn (e.outline ⟨source, package, none⟩) taken, v ∈ winners) :
    Does r ⟨renderer, showMissing⟩ (buildFileElement ⟨renderer, showMissing⟩ source package e) ()
      (Outline.tasksIn (r.fieldKind showMissing) (e.outline ⟨source, package, none⟩) taken) b := by
  cases e with
  | message decl =>
    exact h.message hr renderer ⟨source, package, none⟩ rfl decl hmem
      fun entity taken b hentity hinside h =>
        Ready.bodyRows hr renderer ⟨source, package, none⟩ rfl hentity decl.elements h hinside
  | enum decl =>
    rw [FileElement.outline] at hmem ⊢
    rw [Outline.winnersIn_singleton] at hmem
    rw [Outline.tasksIn_singleton]
    exact h.enum hr ⟨renderer, showMissing⟩ _ ⟨source, package, none⟩ rfl decl hmem
  | service decl =>
    rw [FileElement.outline] at hmem ⊢
    rw [Outline.winnersIn_singleton] at hmem
    rw [Outline.tasksIn_singleton]
    exact h.service hr renderer ⟨source, package, none⟩ rfl decl hmem
  | extend decl =>
    rw [FileElement.outline, Outline.tasksIn_skipped_cons]
    exact h.unsupported _ (.extend decl.target) package
  | option | comment => exact Does.pure h.undrawn ()

/-- Processing a file performs the tasks of its outline. -/
theorem Ready.file (hr : Founds r winners) (renderer : Renderer) (file : String × SchemaFile)
    (h : Ready r showMissing winners file.1 before taken b)
    (hmem : ∀ v ∈ Outline.winnersIn (Outline.ofFile file) taken, v ∈ winners) :
    Does r ⟨renderer, showMissing⟩ (buildFile ⟨renderer, showMissing⟩ file.1 file.2) ()
      (Outline.tasksIn (r.fieldKind showMissing) (Outline.ofFile file) taken) b := by
  unfold buildFile
  unfold Outline.ofFile at hmem ⊢
  generalize file.2.elements = elements at hmem ⊢
  induction elements generalizing taken b with
  | nil => exact Does.pure h.undrawn ()
  | cons e elements ih =>
    rw [List.flatMap_cons, Outline.winnersIn_append] at hmem
    rw [List.flatMap_cons, Outline.tasksIn_append]
    have hfirst := h.fileElement hr renderer file.2.packageName e
      fun v hv => hmem v (List.mem_append_left _ hv)
    obtain ⟨refs, hAt⟩ := h.stands
    have hnext := At.fileElement hr.takes hr.coherent.indexed renderer file.2.packageName e hAt
      fun v hv => by
        rw [Outline.ofFileElement_eq_winnersIn] at hv
        exact hmem v (List.mem_append_left _ hv)
    rw [Outline.ofFileElement_eq_winnersIn] at hnext
    exact hfirst.bind (ih (.of_at hnext hfirst.undrawn)
      fun v hv => hmem v (List.mem_append_right _ hv))

end Build
end SchemaGraph
