import SchemaGraph.Proofs.Registry.Outline
/-!
# Services that hold their names

A service that wins stands somewhere in a file (`Winner.exists_service`). All that its methods win
or lose can be read off that place. If none of them loses its name, the methods of the service are
those of its declaration, one for each (`Service.HoldsAt.methods`).
-/

namespace SchemaGraph

namespace Build

/-- The fields of requests tell the methods apart, and so do those of responses. -/
theorem requestField_inj {name name' : String} (h : requestField name = requestField name') :
    name = name' :=
  String.append_left_inj _ |>.1 h

theorem responseField_inj {name name' : String} (h : responseField name = responseField name') :
    name = name' :=
  String.append_left_inj _ |>.1 h

theorem requestField_ne_responseField (name name' : String) :
    requestField name ≠ responseField name' := by
  intro h
  have hlast := congrArg (fun s => s.toList.getLast?) h
  simp [requestField, responseField, String.toList_append] at hlast

end Build

/-! ## References belong to their winners -/

theorem OneofElement.owner_of_mem_references {owner : String} {member : OneofElement}
    {ref : Reference} (h : ref ∈ member.references owner) : ref.owner = owner := by
  cases member with
  | field =>
    rw [List.mem_singleton.1 h]
  | option | comment | group => cases h

theorem MessageElement.owner_of_mem_references {owner : String} {e : MessageElement}
    {ref : Reference} (h : ref ∈ e.references owner) : ref.owner = owner := by
  cases e with
  | field | map => rw [List.mem_singleton.1 h]
  | oneof name members =>
    obtain ⟨member, -, h⟩ := List.mem_flatMap.1 h
    exact OneofElement.owner_of_mem_references h
  | enum | message | reserved | extensions | option | comment | group | extend => cases h

theorem Rpc.owner_of_mem_references {owner : String} {rpc : Rpc} {ref : Reference}
    (h : ref ∈ rpc.references owner) : ref.owner = owner := by
  rcases List.mem_cons.1 h with rfl | h
  · rfl
  · rw [List.mem_singleton.1 h]

namespace Winner

mutual

theorem owner_of_mem_ofElement (site : DeclarationSite) (e : MessageElement) {taken : List String}
    {w : Winner} (h : w ∈ ofElement site e taken) {ref : Reference} (href : ref ∈ w.references) :
    ref.owner = w.qualifiedName := by
  cases e with
  | message name elements line =>
    rw [ofElement] at h
    rcases mem_contest h with rfl | h
    · obtain ⟨e, -, href⟩ := List.mem_flatMap.1 href
      exact MessageElement.owner_of_mem_references href
    · exact owner_of_mem_ofElements _ elements h href
  | enum decl =>
    rw [ofElement] at h
    rcases mem_contest h with rfl | h
    · cases href
    · cases h
  | field | map | oneof | reserved | extensions | option | comment | group | extend => cases h

theorem owner_of_mem_ofElements (site : DeclarationSite) (es : List MessageElement)
    {taken : List String} {w : Winner} (h : w ∈ ofElements site es taken) {ref : Reference}
    (href : ref ∈ w.references) : ref.owner = w.qualifiedName := by
  cases es with
  | nil => cases h
  | cons e es =>
    rw [ofElements] at h
    rcases List.mem_append.1 h with h | h
    · exact owner_of_mem_ofElement site e h href
    · exact owner_of_mem_ofElements site es h href

end

/-- The references of a winner are references of its own body. -/
theorem owner_of_mem_references {files : List (String × SchemaFile)} {w : Winner}
    (hw : w ∈ ofFiles files) {ref : Reference} (href : ref ∈ w.references) :
    ref.owner = w.qualifiedName := by
  obtain ⟨file, -, taken, hw, -⟩ := mem_inTurn hw
  obtain ⟨e, -, taken', hw, -⟩ := mem_inTurn hw
  cases e with
  | message decl => exact owner_of_mem_ofElement _ _ hw href
  | enum decl => exact owner_of_mem_ofElement _ (.enum decl) hw href
  | service decl =>
    rcases mem_contest hw with rfl | hw
    · obtain ⟨rpc, -, href⟩ := List.mem_flatMap.1 href
      exact Rpc.owner_of_mem_references href
    · rw [(of_mem_ofRpcs hw).2.2.1] at href
      cases href
  | extend | option | comment => cases hw

/-- The qualified name of a method is its name inside its service, and its service has won. -/
theorem of_rpc {files : List (String × SchemaFile)} {w : Winner} (hw : w ∈ ofFiles files)
    (hkind : w.kind = .rpc) {signature : RpcSignature} (hsignature : w.rpc = some signature) :
    w.qualifiedName = Name.qualify signature.service w.name ∧
      ∃ v ∈ ofFiles files, v.qualifiedName = signature.service ∧ v.kind = .service := by
  obtain ⟨site, decl, taken, hw, hfiles⟩ := exists_ofService_of_rpc hw hkind
  have hself := self_mem_contest hw
  rcases mem_contest hw with rfl | hw
  · cases hkind
  · obtain ⟨rpc, -, taken', hw, -⟩ := mem_inTurn hw
    rcases mem_contest hw with rfl | hw
    · rw [← Option.some.inj hsignature]
      exact ⟨rfl, _, hfiles _ hself, rfl, rfl⟩
    · cases hw

end Winner

/-! ## Where a service stands -/

/-- The method of a service as a winner. -/
def Rpc.winner (site : DeclarationSite) (service : String) (rpc : Rpc) : Winner :=
  ⟨site.source, Name.qualify site.scope rpc.name, rpc.name, .rpc, site.parent,
    some ⟨service, rpc.requestType, rpc.responseType, rpc.clientStreaming, rpc.serverStreaming⟩,
    []⟩

theorem Outline.declaredIn_rpcs (site : DeclarationSite) (service : String) (rpcs : List Rpc) :
    declaredIn (rpcs.flatMap (Rpc.outline site service)) = rpcs.map (Rpc.winner site service) := by
  induction rpcs with
  | nil => rfl
  | cons rpc rpcs ih =>
    rw [List.flatMap_cons, declaredIn_append, ih, Rpc.outline, declaredIn, declaredIn_references]
    rfl

/-- The site of the declarations of a file. -/
def fileSite (file : String × SchemaFile) : DeclarationSite :=
  ⟨file.1, file.2.packageName, none⟩

/-- The qualified name of a service of a file. -/
def Service.nameIn (decl : Service) (file : String × SchemaFile) : String :=
  Name.qualify file.2.packageName decl.name

/-- The outlines of the methods of a service of a file. -/
def Service.methodOutlines (decl : Service) (file : String × SchemaFile) : List Outline :=
  decl.rpcs.flatMap (Rpc.outline ((fileSite file).inside (decl.nameIn file)) (decl.nameIn file))

/-- One of the files entered holds the service between the given outlines, and what has been
declared before leaves its name free. -/
structure Service.HoldsAt (decl : Service) (entered : List (String × SchemaFile))
    (file : String × SchemaFile) (before after : List Outline) : Prop where
  mem : file ∈ entered
  outline : Outline.ofFile file = before ++ decl.outline (fileSite file) :: after
  free : decl.nameIn file ∉ Outline.takesIn before (Winner.takenBefore entered file.1)

/-- An element of a file has at most one outline. -/
theorem FileElement.outline_eq_singleton {site : DeclarationSite} {e : FileElement} {o : Outline}
    (h : o ∈ e.outline site) : e.outline site = [o] := by
  cases e with
  | message decl =>
    rw [FileElement.outline, MessageElement.outline] at h ⊢
    rw [List.mem_singleton.1 h]
  | enum decl | service decl | extend decl =>
    rw [FileElement.outline] at h ⊢
    rw [List.mem_singleton.1 h]
  | option | comment => cases h

/-- Only the outlines of services have services among their winners. -/
theorem Outline.exists_service_of_mem_winners {file : String × SchemaFile} {o : Outline}
    (ho : o ∈ ofFile file) {taken : List String} {w : Winner} (hw : w ∈ winners o taken)
    (hkind : w.kind = .service) :
    ∃ decl : Service, o = decl.outline (fileSite file) ∧ w.qualifiedName = decl.nameIn file ∧
      decl.nameIn file ∉ taken := by
  obtain ⟨e, -, ho⟩ := List.mem_flatMap.1 ho
  have hsingle := FileElement.outline_eq_singleton ho
  have hmem : w ∈ Winner.ofFileElement ⟨file.1, file.2.packageName, none⟩ e taken := by
    rw [ofFileElement_eq_winnersIn, hsingle, winnersIn_singleton]
    exact hw
  cases e with
  | message decl => simpa [hkind, EntityKind.isType] using (Winner.of_mem_ofElement _ _ hmem).2
  | enum decl =>
    simpa [hkind, EntityKind.isType] using (Winner.of_mem_ofElement _ (.enum decl) hmem).2
  | service decl =>
    refine ⟨decl, List.mem_singleton.1 ho, ?_, Winner.not_mem_of_mem_contest hmem⟩
    rcases Winner.mem_contest hmem with rfl | hmem
    · rfl
    · rw [(Winner.of_mem_ofRpcs hmem).2.1] at hkind
      cases hkind
  | extend | option | comment => cases hmem

/-- A service that wins stands somewhere. -/
theorem Winner.exists_service {entered : List (String × SchemaFile)}
    (hnodup : (entered.map (·.1)).Nodup) {w : Winner} (hw : w ∈ ofFiles entered)
    (hkind : w.kind = .service) :
    ∃ (decl : Service) (file : String × SchemaFile) (before after : List Outline),
      decl.HoldsAt entered file before after ∧ w.qualifiedName = decl.nameIn file := by
  obtain ⟨file, hfile, taken, hmem, -⟩ := mem_inTurn hw
  have hsource := source_of_mem_ofFile hmem
  have hwon : w ∈ ofFile file (takenBefore entered file.1) := by
    rw [(ofFile_eq_filter hnodup hfile).1]
    exact List.mem_filter.2 ⟨hw, decide_eq_true hsource⟩
  rw [Outline.ofFile_eq_winnersIn] at hwon
  obtain ⟨before, o, after, hsplit, hwon⟩ := Outline.exists_split_of_mem_winnersIn hwon
  obtain ⟨decl, rfl, hname, hfree⟩ :=
    Outline.exists_service_of_mem_winners (by rw [hsplit]; simp) hwon hkind
  exact ⟨decl, file, before, after, ⟨hfile, hsplit, hfree⟩, hname⟩

namespace Service.HoldsAt

variable {decl : Service} {entered : List (String × SchemaFile)} {file : String × SchemaFile}
  {before after : List Outline}

/-- What the service takes before its methods are declared. -/
theorem winners_eq (h : decl.HoldsAt entered file before after) :
    Outline.winners (decl.outline (fileSite file))
        (Outline.takesIn before (Winner.takenBefore entered file.1)) =
      ⟨file.1, decl.nameIn file, decl.name, .service, none, none,
          decl.rpcs.flatMap (Rpc.references (decl.nameIn file))⟩ ::
        Outline.winnersIn (decl.methodOutlines file)
          (Outline.takesIn before (Winner.takenBefore entered file.1) ++ [decl.nameIn file]) := by
  have hfree := h.free
  rw [Service.outline, Outline.winners, Winner.contest]
  exact if_neg hfree

/-- The service and those of its methods that win are among the winners, in their order. -/
theorem sublist (h : decl.HoldsAt entered file before after) (hnodup : (entered.map (·.1)).Nodup) :
    (Outline.winners (decl.outline (fileSite file))
      (Outline.takesIn before (Winner.takenBefore entered file.1))).Sublist
      (Winner.ofFiles entered) := by
  have hfilter := (Winner.ofFile_eq_filter hnodup h.mem).1
  rw [Outline.ofFile_eq_winnersIn, h.outline, Outline.winnersIn_append, Outline.winnersIn]
    at hfilter
  have hfile : (Winner.ofFiles entered).filter (·.source = file.1) |>.Sublist
      (Winner.ofFiles entered) := List.filter_sublist
  rw [← hfilter] at hfile
  exact ((List.sublist_append_left _ _).trans (List.sublist_append_right _ _)).trans hfile

/-- What the methods of the service lose is lost. -/
theorem lost_subset (h : decl.HoldsAt entered file before after)
    (hnodup : (entered.map (·.1)).Nodup) :
    Outline.lostIn (decl.methodOutlines file)
        (Outline.takesIn before (Winner.takenBefore entered file.1) ++ [decl.nameIn file]) ⊆
      Outline.lostIn (entered.flatMap Outline.ofFile) [] := by
  obtain ⟨hmem, houtline, hfree⟩ := h
  obtain ⟨first, others, rfl⟩ := List.append_of_mem hmem
  rw [Outline.takenBefore_eq_takesIn hnodup] at hfree ⊢
  -- What is lost at the place of the service comes after what is lost before it.
  have hlost : Outline.lost (decl.outline (fileSite file))
      (Outline.takesIn before (Outline.takesIn (first.flatMap Outline.ofFile) [])) =
      Outline.lostIn (decl.methodOutlines file)
        (Outline.takesIn before (Outline.takesIn (first.flatMap Outline.ofFile) []) ++
          [decl.nameIn file]) := by
    rw [Service.outline, Outline.lost]
    exact if_neg hfree
  rw [← hlost, List.flatMap_append, List.flatMap_cons, houtline, Outline.lostIn_append,
    Outline.lostIn_append, Outline.lostIn_append, Outline.lostIn]
  intro q hq
  simp only [List.mem_append]
  exact .inr (.inl (.inr (.inl hq)))

/-- If no name inside the service is lost, all methods of its declaration win, under names that
differ. -/
theorem methods (h : decl.HoldsAt entered file before after) (hnodup : (entered.map (·.1)).Nodup)
    (hkept : ∀ name, Name.qualify (decl.nameIn file) name ∉
      Outline.lostIn (entered.flatMap Outline.ofFile) []) :
    (∀ rpc ∈ decl.rpcs, rpc.winner ((fileSite file).inside (decl.nameIn file)) (decl.nameIn file) ∈
      Winner.ofFiles entered) ∧ (decl.rpcs.map (·.name)).Nodup := by
  have hsublist := h.sublist hnodup
  rw [h.winners_eq] at hsublist
  have hlost : Outline.lostIn (decl.methodOutlines file)
      (Outline.takesIn before (Winner.takenBefore entered file.1) ++ [decl.nameIn file]) = [] := by
    refine List.eq_nil_iff_forall_not_mem.2 fun q hq => ?_
    have hdeclared := Outline.lostIn_subset_declaredIn _ _ hq
    unfold Service.methodOutlines at hdeclared
    rw [Outline.declaredIn_rpcs, List.map_map] at hdeclared
    obtain ⟨rpc, -, rfl⟩ := List.mem_map.1 hdeclared
    exact hkept rpc.name (h.lost_subset hnodup hq)
  rw [Outline.winnersIn_eq_declaredIn hlost, Service.methodOutlines, Outline.declaredIn_rpcs]
    at hsublist
  refine ⟨fun rpc hrpc => hsublist.subset (List.mem_cons_of_mem _ (List.mem_map_of_mem hrpc)), ?_⟩
  have hnames := (hsublist.map (·.qualifiedName)).nodup (Registry.takes_declareFiles entered).nodup
  rw [List.map_cons, List.nodup_cons, List.map_map] at hnames
  have hqualified : (decl.rpcs.map fun rpc => Name.qualify (decl.nameIn file) rpc.name) =
      (decl.rpcs.map (·.name)).map (Name.qualify (decl.nameIn file)) := by
    rw [List.map_map]
    rfl
  exact List.Nodup.of_map _ (hqualified ▸ hnames.2)

/-- Then the methods that win and belong to the service are those of its declaration. -/
theorem exists_rpc (h : decl.HoldsAt entered file before after)
    (hnodup : (entered.map (·.1)).Nodup)
    (hkept : ∀ name, Name.qualify (decl.nameIn file) name ∉
      Outline.lostIn (entered.flatMap Outline.ofFile) [])
    {w : Winner} (hw : w ∈ Winner.ofFiles entered) (hkind : w.kind = .rpc)
    {signature : RpcSignature} (hsignature : w.rpc = some signature)
    (hservice : signature.service = decl.nameIn file) :
    ∃ rpc ∈ decl.rpcs,
      w = rpc.winner ((fileSite file).inside (decl.nameIn file)) (decl.nameIn file) := by
  have htakes := Registry.takes_declareFiles entered
  have hsublist := h.sublist hnodup
  rw [h.winners_eq] at hsublist
  obtain ⟨v, hv, signature', hsigns⟩ := Winner.signs_of_mem_ofFiles hw hkind
  have hsame : signature' = signature := by
    have hrpc := hsigns.rpc
    rw [hsignature] at hrpc
    exact (Option.some.inj hrpc).symm
  have hself := htakes.eq_of_qualifiedName_eq hv (hsublist.subset List.mem_cons_self)
    (by rw [hsigns.name, hsame, hservice])
  have hrequest := hsigns.request
  rw [hself] at hrequest
  obtain ⟨rpc, hrpc, hmem⟩ := List.mem_flatMap.1 hrequest
  have hname : w.name = rpc.name := by
    rcases List.mem_cons.1 hmem with heq | hmem
    · exact Build.requestField_inj (Reference.mk.inj heq).2.1
    · exact absurd (Reference.mk.inj (List.mem_singleton.1 hmem)).2.1
        (Build.requestField_ne_responseField _ _)
  refine ⟨rpc, hrpc, htakes.eq_of_qualifiedName_eq hw ((h.methods hnodup hkept).1 rpc hrpc) ?_⟩
  rw [(Winner.of_rpc hw hkind hsignature).1, hservice, hname]
  rfl

/-- The two references of a method are the only ones in its two fields. -/
theorem references_perm (h : decl.HoldsAt entered file before after)
    (hnodup : (entered.map (·.1)).Nodup)
    (hkept : ∀ name, Name.qualify (decl.nameIn file) name ∉
      Outline.lostIn (entered.flatMap Outline.ofFile) [])
    {rpc : Rpc} (hrpc : rpc ∈ decl.rpcs) :
    ∃ others, ((Winner.ofFiles entered).flatMap (·.references)).Perm
        (rpc.references (decl.nameIn file) ++ others) ∧
      ∀ ref ∈ others, ref.owner = decl.nameIn file →
        ref.field ≠ Build.requestField rpc.name ∧ ref.field ≠ Build.responseField rpc.name := by
  have hsublist := h.sublist hnodup
  rw [h.winners_eq] at hsublist
  obtain ⟨first, last, hwinners⟩ := List.append_of_mem (hsublist.subset List.mem_cons_self)
  obtain ⟨rpcs, rpcs', hrpcs⟩ := List.append_of_mem hrpc
  have hnames := (h.methods hnodup hkept).2
  have hunique := (Registry.takes_declareFiles entered).nodup
  rw [hwinners, List.map_append, List.map_cons, List.nodup_middle, List.nodup_cons,
    ← List.map_append] at hunique
  rw [hrpcs, List.map_append, List.map_cons, List.nodup_middle, List.nodup_cons,
    ← List.map_append] at hnames
  refine ⟨(rpcs ++ rpcs').flatMap (Rpc.references (decl.nameIn file)) ++
    (first ++ last).flatMap (·.references), ?_, fun ref href howner => ?_⟩
  · have hbody : (decl.rpcs.flatMap (Rpc.references (decl.nameIn file))).Perm
        (rpc.references (decl.nameIn file) ++
          (rpcs ++ rpcs').flatMap (Rpc.references (decl.nameIn file))) := by
      rw [hrpcs, ← List.flatMap_cons]
      exact List.perm_middle.flatMap_right _
    rw [hwinners, ← List.append_assoc]
    refine (List.perm_middle.flatMap_right _).trans ?_
    rw [List.flatMap_cons]
    exact hbody.append_right _
  · rcases List.mem_append.1 href with href | href
    -- Another method of the service has another name.
    · obtain ⟨rpc', hrpc', href⟩ := List.mem_flatMap.1 href
      have hne : rpc'.name ≠ rpc.name := fun heq =>
        hnames.1 (heq ▸ List.mem_map_of_mem hrpc')
      rcases List.mem_cons.1 href with rfl | href
      · exact ⟨fun heq => hne (Build.requestField_inj heq),
          Build.requestField_ne_responseField _ _⟩
      · rw [List.mem_singleton.1 href]
        exact ⟨fun heq => Build.requestField_ne_responseField _ _ heq.symm,
          fun heq => hne (Build.responseField_inj heq)⟩
    -- References of other winners have other owners.
    · obtain ⟨w, hw, href⟩ := List.mem_flatMap.1 href
      have hmem : w ∈ Winner.ofFiles entered := by
        rw [hwinners]
        rcases List.mem_append.1 hw with hw | hw
        · exact List.mem_append_left _ hw
        · exact List.mem_append_right _ (List.mem_cons_of_mem _ hw)
      rw [Winner.owner_of_mem_references hmem href] at howner
      exact absurd (List.mem_map.2 ⟨w, hw, howner⟩) hunique.1

end Service.HoldsAt
end SchemaGraph
