import SchemaGraph.Graph.Build
import SchemaGraph.Proofs.Registry.Declared
/-!
# The declarations that hold their names

Of several declarations of one qualified name the first wins, and what a rejected one declares
inside is rejected with it. The functions here list the winners of an element, a file or a sequence
of files without a registry: they only thread the names that are taken. `Registry.Takes` says that a
registry holds one entity more for each winner, and nothing else; `takes_declareFile` is the result.
-/

namespace SchemaGraph

/-- A type that a body names: the qualified name of the body's owner, the field and the type as
written. -/
structure Reference where
  owner : String
  field : String
  typeName : String
  deriving DecidableEq, Repr

/-- A declaration that holds its qualified name, with the references of its own body. -/
structure Winner where
  source : String
  qualifiedName : String
  name : String
  kind : EntityKind
  parent : Option String
  rpc : Option RpcSignature
  references : List Reference
  deriving DecidableEq, Repr

/-! ## References of a body -/

/-- The references of a member of a oneof. -/
def OneofElement.references (owner : String) : OneofElement → List Reference
  | .field f => [⟨owner, f.name, f.typeName⟩]
  | .option _ | .comment _ | .group .. => []

/-- The references of an element of a message body. What is declared inside has its own. -/
def MessageElement.references (owner : String) : MessageElement → List Reference
  | .field f => [⟨owner, f.name, f.typeName⟩]
  | .map m => [⟨owner, m.name, m.valueType⟩]
  | .oneof _ members => members.flatMap (OneofElement.references owner)
  | .enum _ | .message .. | .reserved _ | .extensions _ | .option _ | .comment _ | .group ..
  | .extend .. => []

/-- The references of a method, its request before its response. -/
def Rpc.references (owner : String) (rpc : Rpc) : List Reference :=
  [⟨owner, Build.requestField rpc.name, rpc.requestType⟩,
    ⟨owner, Build.responseField rpc.name, rpc.responseType⟩]

/-! ## Winners -/

namespace Winner

/-- What a declaration leads to: nothing if its name is taken, and otherwise itself and what is
declared inside. -/
def contest (w : Winner) (inside : List String → List Winner) (taken : List String) :
    List Winner :=
  if w.qualifiedName ∈ taken then [] else w :: inside (taken ++ [w.qualifiedName])

/-- The winners of a list, one after the other: what one of them wins is taken for the next. -/
def inTurn {α : Type} (winners : α → List String → List Winner) :
    List α → List String → List Winner
  | [], _ => []
  | x :: xs, taken =>
    winners x taken ++ inTurn winners xs (taken ++ (winners x taken).map (·.qualifiedName))

mutual

/-- The winners among what an element of a message body declares. -/
def ofElement (site : DeclarationSite) : MessageElement → List String → List Winner
  | .message name elements _, taken =>
    let q := Name.qualify site.scope name
    contest
      ⟨site.source, q, name, .message, site.parent, none, elements.flatMap (·.references q)⟩
      (ofElements (site.inside q) elements) taken
  | .enum decl, taken =>
    contest
      ⟨site.source, Name.qualify site.scope decl.name, decl.name, .enum, site.parent, none, []⟩
      (fun _ => []) taken
  | _, _ => []

/-- The winners among what the elements of a message body declare. -/
def ofElements (site : DeclarationSite) : List MessageElement → List String → List Winner
  | [], _ => []
  | e :: es, taken =>
    ofElement site e taken ++
      ofElements site es (taken ++ (ofElement site e taken).map (·.qualifiedName))

end

/-- The method as a winner, if its name is not taken. -/
def ofRpc (site : DeclarationSite) (service : String) (rpc : Rpc) : List String → List Winner :=
  contest
    ⟨site.source, Name.qualify site.scope rpc.name, rpc.name, .rpc, site.parent,
      some ⟨service, rpc.requestType, rpc.responseType, rpc.clientStreaming,
        rpc.serverStreaming⟩, []⟩
    fun _ => []

/-- The winners among a service and its methods. -/
def ofService (site : DeclarationSite) (service : Service) : List String → List Winner :=
  let q := Name.qualify site.scope service.name
  contest
    ⟨site.source, q, service.name, .service, site.parent, none,
      service.rpcs.flatMap (Rpc.references q)⟩
    (inTurn (ofRpc (site.inside q) q) service.rpcs)

/-- The winners among what an element of a file declares. -/
def ofFileElement (site : DeclarationSite) : FileElement → List String → List Winner
  | .message decl => ofElement site (.message decl.name decl.elements decl.line)
  | .enum decl => ofElement site (.enum decl)
  | .service decl => ofService site decl
  | .extend _ | .option _ | .comment _ => fun _ => []

/-- The winners among what a file declares. -/
def ofFile (file : String × SchemaFile) : List String → List Winner :=
  inTurn (ofFileElement ⟨file.1, file.2.packageName, none⟩) file.2.elements

/-- The winners among what files declare one after the other. -/
def ofFiles (files : List (String × SchemaFile)) : List Winner :=
  inTurn ofFile files []

theorem inTurn_append {α : Type} (winners : α → List String → List Winner) (xs ys : List α)
    (taken : List String) :
    inTurn winners (xs ++ ys) taken = inTurn winners xs taken ++
      inTurn winners ys (taken ++ (inTurn winners xs taken).map (·.qualifiedName)) := by
  induction xs generalizing taken with
  | nil => simp [inTurn]
  | cons x xs ih => simp [inTurn, ih]

theorem mem_contest {v w : Winner} {inside : List String → List Winner} {taken : List String}
    (h : v ∈ w.contest inside taken) : v = w ∨ v ∈ inside (taken ++ [w.qualifiedName]) := by
  unfold contest at h
  split at h
  · cases h
  · exact List.mem_cons.1 h

/-- A declaration that leads to anything finds its name free. -/
theorem not_mem_of_mem_contest {v w : Winner} {inside : List String → List Winner}
    {taken : List String} (h : v ∈ w.contest inside taken) : w.qualifiedName ∉ taken := by
  intro hmem
  rw [contest, if_pos hmem] at h
  cases h

theorem self_mem_contest {v w : Winner} {inside : List String → List Winner}
    {taken : List String} (h : v ∈ w.contest inside taken) : w ∈ w.contest inside taken := by
  rw [contest, if_neg (not_mem_of_mem_contest h)]
  exact List.mem_cons_self

theorem mem_inTurn {α : Type} {winners : α → List String → List Winner} {xs : List α}
    {taken : List String} {v : Winner} (h : v ∈ inTurn winners xs taken) :
    ∃ x ∈ xs, ∃ taken', v ∈ winners x taken' ∧
      ∀ u ∈ winners x taken', u ∈ inTurn winners xs taken := by
  induction xs generalizing taken with
  | nil => cases h
  | cons x xs ih =>
    rcases List.mem_append.1 h with h | h
    · exact ⟨x, by simp, taken, h, fun u hu => List.mem_append_left _ hu⟩
    · obtain ⟨y, hy, taken', h, hall⟩ := ih h
      exact ⟨y, by simp [hy], taken', h, fun u hu => List.mem_append_right _ (hall u hu)⟩

mutual

/-- Message bodies declare messages and enums, and all of a file is declared in its unit. -/
theorem of_mem_ofElement (site : DeclarationSite) (e : MessageElement) {taken : List String}
    {w : Winner} (h : w ∈ ofElement site e taken) :
    w.source = site.source ∧ w.kind.isType = true := by
  cases e with
  | message name elements line =>
    rw [ofElement] at h
    rcases mem_contest h with rfl | h
    · exact ⟨rfl, rfl⟩
    · exact of_mem_ofElements (site.inside (Name.qualify site.scope name)) elements h
  | enum decl =>
    rw [ofElement] at h
    rcases mem_contest h with rfl | h
    · exact ⟨rfl, rfl⟩
    · cases h
  | field | map | oneof | reserved | extensions | option | comment | group | extend => cases h

theorem of_mem_ofElements (site : DeclarationSite) (es : List MessageElement)
    {taken : List String} {w : Winner} (h : w ∈ ofElements site es taken) :
    w.source = site.source ∧ w.kind.isType = true := by
  cases es with
  | nil => cases h
  | cons e es =>
    rw [ofElements] at h
    rcases List.mem_append.1 h with h | h
    · exact of_mem_ofElement site e h
    · exact of_mem_ofElements site es h

end

/-- The method of a service that a winner stands for. -/
theorem of_mem_ofRpcs {site : DeclarationSite} {service : String} {rpcs : List Rpc}
    {taken : List String} {w : Winner} (h : w ∈ inTurn (ofRpc site service) rpcs taken) :
    w.source = site.source ∧ w.kind = .rpc ∧ w.references = [] ∧ ∃ rpc ∈ rpcs, w.name = rpc.name ∧
      w.rpc = some ⟨service, rpc.requestType, rpc.responseType, rpc.clientStreaming,
        rpc.serverStreaming⟩ := by
  obtain ⟨rpc, hrpc, taken', h, -⟩ := mem_inTurn h
  rcases mem_contest h with rfl | h
  · exact ⟨rfl, rfl, rfl, rpc, hrpc, rfl, rfl⟩
  · cases h

/-- What an element of a file declares is no placeholder. -/
theorem of_mem_ofFileElement {site : DeclarationSite} {e : FileElement}
    {taken : List String} {w : Winner} (h : w ∈ ofFileElement site e taken) :
    w.source = site.source ∧ w.kind ≠ .missing := by
  have htype {e : MessageElement} (h : w ∈ ofElement site e taken) :
      w.source = site.source ∧ w.kind ≠ .missing := by
    obtain ⟨hsource, hkind⟩ := of_mem_ofElement site e h
    exact ⟨hsource, fun hmissing => by simp [hmissing, EntityKind.isType] at hkind⟩
  cases e with
  | message decl => exact htype h
  | enum decl => exact htype (e := .enum decl) h
  | service decl =>
    rcases mem_contest h with rfl | h
    · exact ⟨rfl, by simp⟩
    · obtain ⟨hsource, hkind, -⟩ := of_mem_ofRpcs h
      exact ⟨hsource, by simp [hkind]⟩
  | extend | option | comment => cases h

theorem source_of_mem_ofFile {file : String × SchemaFile} {taken : List String} {w : Winner}
    (h : w ∈ ofFile file taken) : w.source = file.1 := by
  obtain ⟨e, -, taken', h, -⟩ := mem_inTurn h
  exact (of_mem_ofFileElement h).1

theorem kind_ne_missing_of_mem_ofFiles {files : List (String × SchemaFile)} {w : Winner}
    (h : w ∈ ofFiles files) : w.kind ≠ .missing := by
  obtain ⟨file, -, taken, h, -⟩ := mem_inTurn h
  obtain ⟨e, -, taken', h, -⟩ := mem_inTurn h
  exact (of_mem_ofFileElement h).2

/-- `v.Signs w signature`: the method `w` belongs to the service `v`, whose body names both types of
the signature. -/
structure Signs (v w : Winner) (signature : RpcSignature) : Prop where
  rpc : w.rpc = some signature
  name : v.qualifiedName = signature.service
  request : ⟨signature.service, Build.requestField w.name, signature.request⟩ ∈ v.references
  response : ⟨signature.service, Build.responseField w.name, signature.response⟩ ∈ v.references

theorem signs_of_mem_ofService {site : DeclarationSite} {decl : Service} {taken : List String}
    {w : Winner} (hw : w ∈ ofService site decl taken) (hkind : w.kind = .rpc) :
    ∃ v ∈ ofService site decl taken, ∃ signature, v.Signs w signature := by
  unfold ofService contest at hw ⊢
  split at hw
  · cases hw
  · rename_i hnew
    rcases List.mem_cons.1 hw with rfl | hw
    · cases hkind
    · obtain ⟨-, -, -, rpc, hrpc, hname, hsignature⟩ := of_mem_ofRpcs hw
      rw [if_neg hnew]
      refine ⟨_, List.mem_cons_self, _, hsignature, rfl, ?_, ?_⟩ <;> rw [hname]
      · exact List.mem_flatMap.2 ⟨rpc, hrpc, List.mem_cons_self⟩
      · exact List.mem_flatMap.2 ⟨rpc, hrpc, List.mem_cons_of_mem _ List.mem_cons_self⟩

/-- Only services declare methods, and a service that loses declares none. -/
theorem exists_ofService_of_rpc {files : List (String × SchemaFile)} {w : Winner}
    (hw : w ∈ ofFiles files) (hkind : w.kind = .rpc) :
    ∃ site decl taken, w ∈ ofService site decl taken ∧
      ∀ v ∈ ofService site decl taken, v ∈ ofFiles files := by
  obtain ⟨file, -, taken, hw, hfile⟩ := mem_inTurn hw
  obtain ⟨e, -, taken', hw, helement⟩ := mem_inTurn hw
  cases e with
  | message decl => simpa [hkind, EntityKind.isType] using (of_mem_ofElement _ _ hw).2
  | enum decl => simpa [hkind, EntityKind.isType] using (of_mem_ofElement _ (.enum decl) hw).2
  | service decl => exact ⟨_, decl, taken', hw, fun v hv => hfile v (helement v hv)⟩
  | extend | option | comment => cases hw

/-- The service of a method that wins has won. -/
theorem signs_of_mem_ofFiles {files : List (String × SchemaFile)} {w : Winner}
    (hw : w ∈ ofFiles files) (hkind : w.kind = .rpc) :
    ∃ v ∈ ofFiles files, ∃ signature, v.Signs w signature := by
  obtain ⟨site, decl, taken, hw, hfiles⟩ := exists_ofService_of_rpc hw hkind
  obtain ⟨v, hv, signature, hsigns⟩ := signs_of_mem_ofService hw hkind
  exact ⟨v, hfiles v hv, signature, hsigns⟩

/-- The winners of files of other units are declared in other units. -/
theorem source_ne_of_mem_inTurn {files : List (String × SchemaFile)} {source : String}
    (h : source ∉ files.map (·.1)) {taken : List String} {w : Winner}
    (hw : w ∈ inTurn ofFile files taken) : w.source ≠ source := by
  rintro rfl
  obtain ⟨file, hfile, taken', hw, -⟩ := mem_inTurn hw
  exact h (List.mem_map.2 ⟨file, hfile, (source_of_mem_ofFile hw).symm⟩)

/-- The names that are taken when the file of a unit is entered: those that the files entered before
it have won. -/
def takenBefore (entered : List (String × SchemaFile)) (source : String) : List String :=
  (ofFiles (entered.takeWhile (·.1 ≠ source))).map (·.qualifiedName)

theorem takenBefore_append {first others : List (String × SchemaFile)} {file : String × SchemaFile}
    (h : file.1 ∉ first.map (·.1)) :
    takenBefore (first ++ file :: others) file.1 = (ofFiles first).map (·.qualifiedName) := by
  unfold takenBefore
  rw [List.takeWhile_append_of_pos, List.takeWhile_cons_of_neg (by simp), List.append_nil]
  intro f hf
  have hne : f.1 ≠ file.1 := fun heq => h (heq ▸ List.mem_map_of_mem hf)
  simpa using hne

/-- The winners of one of several files are those of its unit. What was taken before are names of
other units. -/
theorem ofFile_eq_filter {files : List (String × SchemaFile)} (hnodup : (files.map (·.1)).Nodup)
    {file : String × SchemaFile} (hfile : file ∈ files) :
    ofFile file (takenBefore files file.1) = (ofFiles files).filter (·.source = file.1) ∧
      ∀ q ∈ takenBefore files file.1, ∃ w ∈ ofFiles files,
        w.qualifiedName = q ∧ w.source ≠ file.1 := by
  obtain ⟨first, others, rfl⟩ := List.append_of_mem hfile
  rw [List.map_append, List.nodup_append, List.map_cons, List.nodup_cons] at hnodup
  obtain ⟨-, ⟨hothersNot, -⟩, hdisjoint⟩ := hnodup
  have hfirstNot : file.1 ∉ first.map (·.1) := fun hmem =>
    hdisjoint _ hmem _ List.mem_cons_self rfl
  have hfirst : ∀ w ∈ inTurn ofFile first [], w.source ≠ file.1 := fun w hw =>
    source_ne_of_mem_inTurn hfirstNot hw
  have hothers (taken : List String) : ∀ w ∈ inTurn ofFile others taken, w.source ≠ file.1 :=
    fun w hw => source_ne_of_mem_inTurn hothersNot hw
  rw [takenBefore_append hfirstNot]
  unfold ofFiles
  refine ⟨?_, fun q hq => ?_⟩
  · rw [inTurn_append, List.nil_append, inTurn, List.filter_append, List.filter_append,
      List.filter_eq_nil_iff.2 fun w hw => by simpa using hfirst w hw,
      List.filter_eq_self.2 fun w hw => by simpa using source_of_mem_ofFile hw,
      List.filter_eq_nil_iff.2 fun w hw => by simpa using hothers _ w hw,
      List.nil_append, List.append_nil]
  · obtain ⟨w, hw, rfl⟩ := List.mem_map.1 hq
    refine ⟨w, ?_, rfl, hfirst w hw⟩
    rw [inTurn_append]
    exact List.mem_append_left _ hw

/-- `w.Describes e`: the entity is what the registry keeps of the declaration. -/
structure Describes (w : Winner) (e : Entity) : Prop where
  source : e.source = w.source
  name : e.name = w.name
  kind : e.kind = w.kind
  parent : e.parent = w.parent
  rpc : e.rpc = w.rpc

end Winner

/-! ## Registries and their winners -/

namespace Registry

/-- `r.Holds taken`: the names of the list are those of the entities. -/
def Holds (r : Registry) (taken : List String) : Prop :=
  ∀ q, q ∈ taken ↔ (r.get? q).isSome

theorem holds_empty : Registry.empty.Holds [] :=
  fun q => by simp

/-- `r.Takes ws r'`: one new entity for each of the winners leads from `r` to `r'`. -/
structure Takes (r : Registry) (ws : List Winner) (r' : Registry) : Prop where
  kept : ∀ {q e}, r.get? q = some e → r'.get? q = some e
  won : ∀ w ∈ ws, r.get? w.qualifiedName = none ∧
    ∃ e, r'.get? w.qualifiedName = some e ∧ w.Describes e
  only : ∀ {q e}, r'.get? q = some e → r.get? q = some e ∨ ∃ w ∈ ws, w.qualifiedName = q
  nodup : (ws.map (·.qualifiedName)).Nodup

theorem Takes.refl (r : Registry) : Takes r [] r :=
  ⟨fun h => h, by simp, fun h => .inl h, by simp⟩

theorem Takes.trans {r r' r'' : Registry} {ws ws' : List Winner} (h : Takes r ws r')
    (h' : Takes r' ws' r'') : Takes r (ws ++ ws') r'' := by
  refine ⟨fun hq => h'.kept (h.kept hq), fun w hw => ?_, fun {q e} hq => ?_, ?_⟩
  · rcases List.mem_append.1 hw with hw | hw
    · obtain ⟨hnew, e, he, hdescribes⟩ := h.won w hw
      exact ⟨hnew, e, h'.kept he, hdescribes⟩
    · obtain ⟨hnew, e, he, hdescribes⟩ := h'.won w hw
      refine ⟨?_, e, he, hdescribes⟩
      cases hget : r.get? w.qualifiedName with
      | none => rfl
      | some found => simp [h.kept hget] at hnew
  · rcases h'.only hq with hq | ⟨w, hw, hname⟩
    · rcases h.only hq with hq | ⟨w, hw, hname⟩
      · exact .inl hq
      · exact .inr ⟨w, List.mem_append_left _ hw, hname⟩
    · exact .inr ⟨w, List.mem_append_right _ hw, hname⟩
  · rw [List.map_append, List.nodup_append]
    refine ⟨h.nodup, h'.nodup, fun a ha b hb heq => ?_⟩
    obtain ⟨w, hw, rfl⟩ := List.mem_map.1 ha
    obtain ⟨w', hw', rfl⟩ := List.mem_map.1 hb
    obtain ⟨-, e, he, -⟩ := h.won w hw
    -- A winner of the second part was still absent after the first.
    have hnew := (h'.won w' hw').1
    rw [← heq, he] at hnew
    cases hnew

theorem Takes.holds {r r' : Registry} {ws : List Winner} {taken : List String}
    (h : Takes r ws r') (hr : r.Holds taken) :
    r'.Holds (taken ++ ws.map (·.qualifiedName)) := by
  intro q
  rw [List.mem_append, hr q, Option.isSome_iff_exists, Option.isSome_iff_exists, List.mem_map]
  constructor
  · rintro (⟨e, he⟩ | ⟨w, hw, rfl⟩)
    · exact ⟨e, h.kept he⟩
    · obtain ⟨-, e, he, -⟩ := h.won w hw
      exact ⟨e, he⟩
  · rintro ⟨e, he⟩
    rcases h.only he with he | hw
    · exact .inl ⟨e, he⟩
    · exact .inr hw

/-- From the registry without entities: the entities are the winners. -/
theorem Takes.get?_isSome {r : Registry} {ws : List Winner} (h : Takes .empty ws r) (q : String) :
    (r.get? q).isSome ↔ ∃ w ∈ ws, w.qualifiedName = q := by
  rw [← h.holds holds_empty q, List.nil_append, List.mem_map]

theorem Takes.eq_of_qualifiedName_eq {r r' : Registry} {ws : List Winner} (h : Takes r ws r')
    {v w : Winner} (hv : v ∈ ws) (hw : w ∈ ws) (heq : v.qualifiedName = w.qualifiedName) :
    v = w :=
  List.inj_on_of_nodup_map h.nodup hv hw heq

theorem Takes.describes {r r' : Registry} {ws : List Winner} (h : Takes r ws r') {w : Winner}
    (hw : w ∈ ws) {e : Entity} (he : r'.get? w.qualifiedName = some e) : w.Describes e := by
  obtain ⟨-, e', he', hdescribes⟩ := h.won w hw
  rw [he] at he'
  rw [Option.some.inj he']
  exact hdescribes

/-- What has been declared is a winner. -/
theorem Takes.exists_winner {r : Registry} {ws : List Winner} (h : Takes .empty ws r) {q : String}
    {e : Entity} (he : r.get? q = some e) : ∃ w ∈ ws, w.qualifiedName = q ∧ w.Describes e := by
  obtain ⟨w, hw, rfl⟩ := (h.get?_isSome q).1 (by rw [he]; rfl)
  exact ⟨w, hw, rfl, h.describes hw he⟩

end Registry

namespace Declarations

open Registry Winner

variable {d : Declarations} {taken : List String}

/-- One declaration wins just when its name is not taken. -/
theorem takes_declare (hd : d.registry.Holds taken) (site : DeclarationSite) (name : String)
    (kind : EntityKind) (rpc : Option RpcSignature) (references : List Reference) :
    let q := Name.qualify site.scope name
    let w : Winner := ⟨site.source, q, name, kind, site.parent, rpc, references⟩
    (q ∈ taken ∧ (d.declare site name kind rpc).1 = none ∧
        Takes d.registry [] (d.declare site name kind rpc).2.registry) ∨
      (q ∉ taken ∧ (d.declare site name kind rpc).1 = some q ∧
        Takes d.registry [w] (d.declare site name kind rpc).2.registry) := by
  intro q w
  rcases declare_cases d site name kind rpc with ⟨hsome, hnone, hreg⟩ | ⟨habsent, hwon, hok⟩
  · refine .inl ⟨(hd q).2 hsome, hnone, ?_⟩
    rw [hreg]
    exact ⟨by simp, by simp, fun h => .inl (by simpa using h), by simp⟩
  · have hdeclares := declares_of_declare hok
    refine .inr ⟨fun hmem => ?_, hwon, ?_⟩
    · have hsome := (hd q).1 hmem
      rw [habsent] at hsome
      cases hsome
    · have hget (p : String) := hdeclares.get? p
      simp only [get?_nodeIdFor] at hget
      refine ⟨fun {p e} hp => ?_, fun v hv => ?_, fun {p e} hp => ?_, by simp⟩
      · have hne : p ≠ q := by
          rintro rfl
          rw [habsent] at hp
          cases hp
        rw [hget, if_neg hne, hp]
      · rw [List.mem_singleton.1 hv]
        exact ⟨habsent, _, (hget q).trans (if_pos rfl), ⟨rfl, rfl, rfl, rfl, rfl⟩⟩
      · rw [hget] at hp
        split at hp
        · rename_i heq
          exact .inr ⟨w, by simp, heq.symm⟩
        · exact .inl hp

/-- A declaration with what is declared inside wins what `Winner.contest` says. -/
theorem takes_contest (hd : d.registry.Holds taken) (site : DeclarationSite) (name : String)
    (kind : EntityKind) (rpc : Option RpcSignature) (references : List Reference)
    (inside : List String → List Winner) (declareInside : String → Declarations → Declarations)
    (hinside : ∀ (d : Declarations) (taken : List String), d.registry.Holds taken →
      Takes d.registry (inside taken)
        (declareInside (Name.qualify site.scope name) d).registry) :
    Takes d.registry
      (contest ⟨site.source, Name.qualify site.scope name, name, kind, site.parent, rpc,
        references⟩ inside taken)
      (match d.declare site name kind rpc with
        | (some q, d) => declareInside q d
        | (none, d) => d).registry := by
  unfold contest
  rcases takes_declare hd site name kind rpc references with ⟨hmem, hone, htakes⟩ |
    ⟨hmem, hone, htakes⟩
  · rw [if_pos hmem]
    split
    · rename_i q d' heq
      simp [heq] at hone
    · rename_i d' heq
      simpa only [heq] using htakes
  · rw [if_neg hmem]
    split
    -- The name is taken before anything inside is declared.
    · rename_i q d' heq
      simp only [heq, Option.some.injEq] at hone htakes
      subst hone
      exact htakes.trans (hinside d' _ (htakes.holds hd))
    · rename_i d' heq
      simp [heq] at hone

/-- The same for a declaration with nothing inside. -/
theorem takes_contest_alone (hd : d.registry.Holds taken) (site : DeclarationSite) (name : String)
    (kind : EntityKind) (rpc : Option RpcSignature) (references : List Reference) :
    Takes d.registry
      (contest ⟨site.source, Name.qualify site.scope name, name, kind, site.parent, rpc,
        references⟩ (fun _ => []) taken)
      (d.declare site name kind rpc).2.registry := by
  have h := takes_contest hd site name kind rpc references (fun _ => []) (fun _ d => d)
    fun d _ _ => Takes.refl _
  cases hdeclare : d.declare site name kind rpc with
  | mk won d' =>
    rw [hdeclare] at h
    cases won <;> exact h

/-- What declares the elements of a list takes their winners, if this is so for each of them. -/
theorem takes_inTurn {α : Type} {winners : α → List String → List Winner}
    {f : Declarations → α → Declarations}
    (h : ∀ (d : Declarations) (taken : List String) (x : α), d.registry.Holds taken →
      Takes d.registry (winners x taken) (f d x).registry)
    (hd : d.registry.Holds taken) (xs : List α) :
    Takes d.registry (inTurn winners xs taken) (xs.foldl f d).registry := by
  induction xs generalizing d taken with
  | nil => exact Takes.refl _
  | cons x xs ih =>
    have hx := h d taken x hd
    exact hx.trans (ih (hx.holds hd))

mutual

theorem takes_declareElement (site : DeclarationSite) (e : MessageElement) {d : Declarations}
    {taken : List String} (hd : d.registry.Holds taken) :
    Takes d.registry (ofElement site e taken) (declareElement site e d).registry := by
  cases e with
  | message name elements line =>
    have h := takes_contest hd site name .message none
      (elements.flatMap (·.references (Name.qualify site.scope name)))
      (ofElements (site.inside (Name.qualify site.scope name)) elements)
      (fun q d => declareElements (site.inside q) elements d)
      fun d taken hd =>
        takes_declareElements (site.inside (Name.qualify site.scope name)) elements hd
    rw [ofElement, declareElement]
    exact h
  | enum decl =>
    have h := takes_contest_alone hd site decl.name .enum none []
    rw [ofElement, declareElement]
    exact h
  | field | map | oneof | reserved | extensions | option | comment | group | extend =>
    exact Takes.refl _

theorem takes_declareElements (site : DeclarationSite) (es : List MessageElement)
    {d : Declarations} {taken : List String} (hd : d.registry.Holds taken) :
    Takes d.registry (ofElements site es taken) (declareElements site es d).registry := by
  cases es with
  | nil => exact Takes.refl _
  | cons e es =>
    have he := takes_declareElement site e hd
    rw [ofElements, declareElements]
    exact he.trans (takes_declareElements site es (he.holds hd))

end

theorem takes_declareService (hd : d.registry.Holds taken) (site : DeclarationSite)
    (service : Service) :
    Takes d.registry (ofService site service taken) (declareService site service d).registry := by
  have h := takes_contest hd site service.name .service none
    (service.rpcs.flatMap (Rpc.references (Name.qualify site.scope service.name)))
    (inTurn (ofRpc (site.inside (Name.qualify site.scope service.name))
      (Name.qualify site.scope service.name)) service.rpcs)
    (fun q d => service.rpcs.foldl (fun d rpc =>
      (d.declare (site.inside q) rpc.name .rpc (some ⟨q, rpc.requestType, rpc.responseType,
        rpc.clientStreaming, rpc.serverStreaming⟩)).2) d)
    fun d taken hd => takes_inTurn
      (fun d taken rpc hd => takes_contest_alone hd _ rpc.name .rpc _ []) hd service.rpcs
  unfold ofService declareService
  cases hdeclare : d.declare site service.name .service none with
  | mk won d' =>
    rw [hdeclare] at h
    cases won <;> exact h

theorem takes_declareFileElement (hd : d.registry.Holds taken) (site : DeclarationSite)
    (e : FileElement) :
    Takes d.registry (ofFileElement site e taken) (declareFileElement site d e).registry := by
  cases e with
  | message decl => exact takes_declareElement site _ hd
  | enum decl => exact takes_declareElement site (.enum decl) hd
  | service decl => exact takes_declareService hd site decl
  | extend | option | comment => exact Takes.refl _

end Declarations

namespace Registry

theorem takes_declareFile {r : Registry} {taken : List String} (hr : r.Holds taken)
    (file : String × SchemaFile) :
    Takes r (Winner.ofFile file taken) (r.declareFile file.1 file.2).2 :=
  Declarations.takes_inTurn (fun _ _ e hd => Declarations.takes_declareFileElement hd _ e)
    (d := ⟨r, []⟩) hr file.2.elements

/-- Files that are declared one after the other take their winners in turn. -/
theorem Holds.takes_declareFiles {r : Registry} {taken : List String} (hr : r.Holds taken)
    (files : List (String × SchemaFile)) :
    Takes r (Winner.inTurn Winner.ofFile files taken) (r.declareFiles files) := by
  induction files generalizing r taken with
  | nil => exact Takes.refl _
  | cons x xs ih =>
    have hx := takes_declareFile hr x
    exact hx.trans (ih (hx.holds hr))

/-- The registry of a sequence of files holds one entity for each winner. -/
theorem takes_declareFiles (files : List (String × SchemaFile)) :
    Takes .empty (Winner.ofFiles files) (Registry.empty.declareFiles files) :=
  holds_empty.takes_declareFiles files

/-- What has been declared is no placeholder. -/
theorem kind_ne_missing_of_declareFiles {files : List (String × SchemaFile)} {q : String}
    {e : Entity} (he : (Registry.empty.declareFiles files).get? q = some e) :
    e.kind ≠ .missing := by
  obtain ⟨w, hw, -, hdescribes⟩ := (takes_declareFiles files).exists_winner he
  rw [hdescribes.kind]
  exact Winner.kind_ne_missing_of_mem_ofFiles hw

end Registry
end SchemaGraph
