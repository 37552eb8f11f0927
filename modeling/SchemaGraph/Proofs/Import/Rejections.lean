import SchemaGraph.Proofs.Import.Traversal
import SchemaGraph.Proofs.Registry.Outline
/-!
# Rejected declarations

A walk reports a duplicate for each declaration that does not hold its name, in the order in which
the declarations stand (`Walk.run_rejected`). What stands inside a rejected declaration is not
reported.
-/

namespace SchemaGraph

namespace Declarations

/-- The names of the declarations rejected so far. -/
def rejected (d : Declarations) : List String :=
  d.duplicates.map (·.qualifiedName)

variable {d : Declarations} {taken : List String}

/-- One declaration is rejected just when its name is taken. -/
theorem rejected_declare (hd : d.registry.Holds taken) (site : DeclarationSite) (name : String)
    (kind : EntityKind) (rpc : Option RpcSignature) :
    (d.declare site name kind rpc).2.rejected =
      d.rejected ++
        if Name.qualify site.scope name ∈ taken then [Name.qualify site.scope name] else [] := by
  have hget := Registry.get?_nodeIdFor d.registry name (Name.qualify site.scope name)
    (Name.qualify site.scope name)
  unfold declare
  dsimp only
  split
  · rename_i registry hok
    have hnew : Name.qualify site.scope name ∉ taken := fun hmem => by
      have hsome := (hd _).1 hmem
      rw [← hget, (Registry.declares_of_declare hok).absent] at hsome
      cases hsome
    rw [if_neg hnew, List.append_nil]
    rfl
  · rename_i duplicate herror
    have htaken : Name.qualify site.scope name ∈ taken := by
      rw [hd, ← hget]
      refine Option.isSome_iff_ne_none.2 fun hnone => ?_
      unfold Registry.declare at herror
      rw [hnone] at herror
      cases herror
    obtain ⟨found, hfound⟩ := Option.isSome_iff_exists.1 (hget ▸ (hd _).1 htaken)
    rw [Registry.declare_of_present hfound, Except.error.injEq] at herror
    rw [if_pos htaken, rejected, rejected, List.map_append, ← herror]
    rfl

/-- A declaration with what is declared inside loses what `Outline.lost` says. -/
theorem rejected_contest (hd : d.registry.Holds taken) (site : DeclarationSite) (name : String)
    (kind : EntityKind) (rpc : Option RpcSignature) (references : List Reference)
    (rows : Option ((String → FieldKind) → List BodyRow)) (inside : List Outline)
    (declareInside : String → Declarations → Declarations)
    (hinside : ∀ (d : Declarations) (taken : List String), d.registry.Holds taken →
      (declareInside (Name.qualify site.scope name) d).rejected =
        d.rejected ++ Outline.lostIn inside taken) :
    (match d.declare site name kind rpc with
      | (some q, d) => declareInside q d
      | (none, d) => d).rejected =
    d.rejected ++ Outline.lost (.declaration ⟨site.source, Name.qualify site.scope name, name, kind,
      site.parent, rpc, references⟩ rows inside) taken := by
  have hrejected := rejected_declare hd site name kind rpc
  rw [Outline.lost]
  dsimp only
  rcases takes_declare hd site name kind rpc references with ⟨hmem, hone, -⟩ |
    ⟨hmem, hone, htakes⟩
  · rw [if_pos hmem] at hrejected ⊢
    split
    · rename_i q d' heq
      simp [heq] at hone
    · rename_i d' heq
      simpa only [heq] using hrejected
  · rw [if_neg hmem] at hrejected ⊢
    rw [List.append_nil] at hrejected
    split
    -- The name is taken before anything inside is declared.
    · rename_i q d' heq
      simp only [heq, Option.some.injEq] at hone htakes hrejected
      subst hone
      rw [hinside d' _ (htakes.holds hd), hrejected]
      rfl
    · rename_i d' heq
      simp [heq] at hone

/-- The same for a declaration with nothing inside. -/
theorem rejected_contest_alone (hd : d.registry.Holds taken) (site : DeclarationSite)
    (name : String) (kind : EntityKind) (rpc : Option RpcSignature) (references : List Reference)
    (rows : Option ((String → FieldKind) → List BodyRow)) :
    (d.declare site name kind rpc).2.rejected =
      d.rejected ++ Outline.lost (.declaration ⟨site.source, Name.qualify site.scope name, name,
        kind, site.parent, rpc, references⟩ rows []) taken := by
  rw [rejected_declare hd, Outline.lost]
  rfl

/-- What declares the elements of a list loses what their outlines lose. -/
theorem rejected_foldl {α : Type} {f : Declarations → α → Declarations}
    {outline : α → List Outline}
    (htakes : ∀ (d : Declarations) (taken : List String) (x : α), d.registry.Holds taken →
      Registry.Takes d.registry (Outline.winnersIn (outline x) taken) (f d x).registry)
    (h : ∀ (d : Declarations) (taken : List String) (x : α), d.registry.Holds taken →
      (f d x).rejected = d.rejected ++ Outline.lostIn (outline x) taken)
    (hd : d.registry.Holds taken) (xs : List α) :
    (xs.foldl f d).rejected = d.rejected ++ Outline.lostIn (xs.flatMap outline) taken := by
  induction xs generalizing d taken with
  | nil => simp [Outline.lostIn]
  | cons x xs ih =>
    rw [List.foldl_cons, ih ((htakes d taken x hd).holds hd), h d taken x hd, List.flatMap_cons,
      Outline.lostIn_append, List.append_assoc]
    rfl

mutual

theorem rejected_declareElement (site : DeclarationSite) (e : MessageElement) {d : Declarations}
    {taken : List String} (hd : d.registry.Holds taken) :
    (declareElement site e d).rejected =
      d.rejected ++ Outline.lostIn (MessageElement.outline site e) taken := by
  cases e with
  | message name elements line =>
    rw [declareElement, MessageElement.outline, Outline.lostIn_singleton]
    exact rejected_contest hd site name .message none _ _ _
      (fun q d => declareElements (site.inside q) elements d)
      fun d taken hd =>
        rejected_declareElements (site.inside (Name.qualify site.scope name)) elements hd
  | enum decl =>
    rw [declareElement, MessageElement.outline, Outline.lostIn_singleton]
    exact rejected_contest_alone hd site decl.name .enum none _ _
  | oneof name members =>
    rw [MessageElement.outline,
      (Outline.eq_nil_of_declaredIn (Outline.declaredIn_oneof _ members) taken).2, List.append_nil]
    rfl
  | field | map | reserved | extensions | option | comment | group | extend =>
    exact (List.append_nil _).symm

theorem rejected_declareElements (site : DeclarationSite) (es : List MessageElement)
    {d : Declarations} {taken : List String} (hd : d.registry.Holds taken) :
    (declareElements site es d).rejected =
      d.rejected ++ Outline.lostIn (bodyOutline site es) taken := by
  cases es with
  | nil => exact (List.append_nil _).symm
  | cons e es =>
    have he := takes_declareElement site e hd
    rw [declareElements, rejected_declareElements site es (he.holds hd),
      rejected_declareElement site e hd, bodyOutline, Outline.lostIn_append, List.append_assoc,
      Outline.ofElement_eq_winnersIn]
    rfl

end

theorem takes_declareRpc (hd : d.registry.Holds taken) (site : DeclarationSite)
    (service : String) (rpc : Rpc) :
    Registry.Takes d.registry (Outline.winnersIn (rpc.outline site service) taken)
      (d.declare site rpc.name .rpc (some ⟨service, rpc.requestType, rpc.responseType,
        rpc.clientStreaming, rpc.serverStreaming⟩)).2.registry := by
  rw [← Outline.ofRpc_eq_winnersIn]
  exact takes_contest_alone hd site rpc.name .rpc _ []

theorem rejected_declareRpc (hd : d.registry.Holds taken) (site : DeclarationSite)
    (service : String) (rpc : Rpc) :
    (d.declare site rpc.name .rpc (some ⟨service, rpc.requestType, rpc.responseType,
        rpc.clientStreaming, rpc.serverStreaming⟩)).2.rejected =
      d.rejected ++ Outline.lostIn (rpc.outline site service) taken := by
  rw [Rpc.outline, Outline.lostIn,
    (Outline.eq_nil_of_declaredIn (Outline.declaredIn_references _) _).2, List.append_nil]
  exact rejected_contest_alone hd site rpc.name .rpc _ _ _

theorem rejected_declareService (hd : d.registry.Holds taken) (site : DeclarationSite)
    (service : Service) :
    (declareService site service d).rejected =
      d.rejected ++ Outline.lost (service.outline site) taken := by
  have h := rejected_contest hd site service.name .service none
    (service.rpcs.flatMap (Rpc.references (Name.qualify site.scope service.name)))
    (some fun kind => service.rpcs.map (Rpc.row kind))
    (service.rpcs.flatMap (Rpc.outline (site.inside (Name.qualify site.scope service.name))
      (Name.qualify site.scope service.name)))
    (fun q d => service.rpcs.foldl (fun d (rpc : Rpc) =>
      (d.declare (site.inside q) rpc.name .rpc (some ⟨q, rpc.requestType, rpc.responseType,
        rpc.clientStreaming, rpc.serverStreaming⟩)).2) d)
    fun d taken hd => rejected_foldl (fun d taken rpc hd => takes_declareRpc hd _ _ rpc)
      (fun d taken rpc hd => rejected_declareRpc hd _ _ rpc) hd service.rpcs
  unfold declareService Service.outline
  cases hdeclare : d.declare site service.name .service none with
  | mk won d' =>
    rw [hdeclare] at h
    cases won <;> exact h

theorem rejected_declareFileElement (hd : d.registry.Holds taken) (site : DeclarationSite)
    (e : FileElement) :
    (declareFileElement site d e).rejected =
      d.rejected ++ Outline.lostIn (e.outline site) taken := by
  cases e with
  | message decl => exact rejected_declareElement site _ hd
  | enum decl => exact rejected_declareElement site (.enum decl) hd
  | service decl =>
    rw [FileElement.outline, Outline.lostIn_singleton]
    exact rejected_declareService hd site decl
  | extend | option | comment => exact (List.append_nil _).symm

end Declarations

/-- What declaring a file rejects. -/
theorem Registry.map_declareFile {r : Registry} {taken : List String} (hr : r.Holds taken)
    (file : String × SchemaFile) :
    (r.declareFile file.1 file.2).1.map (·.qualifiedName) =
      Outline.lostIn (Outline.ofFile file) taken :=
  Declarations.rejected_foldl
    (fun _ taken e hd => Outline.ofFileElement_eq_winnersIn _ e taken ▸
      Declarations.takes_declareFileElement hd _ e)
    (fun _ _ e hd => Declarations.rejected_declareFileElement hd _ e) (d := ⟨r, []⟩) hr
    file.2.elements

namespace Walk

/-- From `w` to `w'` the walk has rejected what the given files lose. -/
def Rejects (w w' : Walk) (entered : List (String × SchemaFile)) : Prop :=
  ∀ taken, w.registry.Holds taken →
    w'.duplicates.map (·.qualifiedName) =
      w.duplicates.map (·.qualifiedName) ++ Outline.lostIn (entered.flatMap Outline.ofFile) taken

theorem Rejects.trans {w w' w'' : Walk} {entered entered' : List (String × SchemaFile)}
    (ht : Traverses w w' entered) (h : Rejects w w' entered) (h' : Rejects w' w'' entered') :
    Rejects w w'' (entered ++ entered') := by
  intro taken hw
  have htakes := hw.takes_declareFiles entered
  rw [← ht.registry, Outline.inTurn_flatMap fun file _ => Outline.ofFile_eq_winnersIn file]
    at htakes
  rw [h' _ (htakes.holds hw), h taken hw, List.flatMap_append, Outline.lostIn_append,
    List.append_assoc]
  rfl

/-- A file rejects its own duplicates before what its imports lead to does. -/
theorem Rejects.file {w w' : Walk} {identifier : String} {file : SchemaFile}
    {entered : List (String × SchemaFile)} (h : Rejects (w.enter identifier file) w' entered) :
    Rejects w (w'.complete identifier file) ((identifier, file) :: entered) := by
  intro taken hw
  have htakes := Registry.takes_declareFile hw (identifier, file)
  have hfile := Registry.map_declareFile hw (identifier, file)
  have hrest := h _ (htakes.holds hw)
  rw [Outline.ofFile_eq_winnersIn] at hrest
  rw [List.flatMap_cons, Outline.lostIn_append, ← hfile, ← List.append_assoc, ← List.map_append]
  exact hrest

theorem visit_rejects {loader : Loader} {options : RunOptions} {depth : Nat}
    {importer : Option String} {name : String} {w w' : Walk}
    (h : visit loader options depth importer name w = (.ok (), w')) :
    ∃ entered, Traverses w w' entered ∧ Rejects w w' entered := by
  have hnone (w w' : Walk) (hduplicates : w'.duplicates = w.duplicates) : Rejects w w' [] :=
    fun taken _ => by rw [hduplicates]; exact (List.append_nil _).symm
  refine visit_rel (P := fun _ => True)
    (R := fun w w' => ∃ entered, Traverses w w' entered ∧ Rejects w w' entered)
    (fun w => ⟨[], .of_registry_eq rfl rfl fun hw => hw, hnone w w rfl⟩) ?_ (fun w statement => ?_)
    (fun _ _ _ _ _ => trivial) ?_ ?_ trivial h
  · rintro w w' w'' ⟨entered, ht, h⟩ ⟨entered', ht', h'⟩
    exact ⟨entered ++ entered', ht.trans ht', h.trans ht h'⟩
  · refine ⟨[], .of_registry_eq (registry_markWeak w statement) (files_markWeak w statement)
      fun {identifier} hw => by rwa [contains_markWeak], hnone _ _ ?_⟩
    unfold markWeak
    split <;> rfl
  · intro name w e _ _ _ _
    refine ⟨[], .of_registry_eq rfl rfl fun {identifier} hw => ?_, hnone _ _ rfl⟩
    show (w.units.insert _ _).contains identifier = true
    rw [contains_insert, hw, Bool.or_true]
  · rintro name text file w w' _ hnew _ _ ⟨entered, ht, h⟩
    exact ⟨_, ht.file hnew, h.file⟩

/-- What a walk that succeeds has entered, and the duplicates that it reports: one for each
declaration that has lost its name, in the order in which they stand. -/
theorem run_rejected {loader : Loader} {options : RunOptions} {root : String} {w : Walk}
    (h : run loader options root .empty = (.ok (), w)) :
    ∃ entered, Traverses (start .empty) w entered ∧
      w.duplicates.map (·.qualifiedName) =
        Outline.lostIn (entered.flatMap Outline.ofFile) [] := by
  obtain ⟨entered, ht, hrejects⟩ := visit_rejects h
  exact ⟨entered, ht, hrejects [] Registry.holds_empty⟩

end Walk
end SchemaGraph
