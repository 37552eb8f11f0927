import SchemaGraph.Proofs.Registry.Winners
/-!
# What stands inside what

A declaration that wins stands directly in its file, in a message or in a service. The declaration
around it has won as well, since what a rejected one declares inside is rejected with it
(`Winner.exists_placed`).
-/

namespace SchemaGraph

namespace Winner

/-- `v.Encloses w`: the declaration `w` is named inside `v`, in the same unit. -/
structure Encloses (v w : Winner) : Prop where
  parent : w.parent = some v.qualifiedName
  name : w.qualifiedName = Name.qualify v.qualifiedName w.name
  source : v.source = w.source

/-- How a declaration stands in a file of the given package, all of whose winners are among `ws`. -/
inductive Placed (ws : List Winner) (package : String) (w : Winner) : Prop
  /-- A message, an enum or a service that nothing encloses. -/
  | top (hparent : w.parent = none) (hname : w.qualifiedName = Name.qualify package w.name)
      (hkind : w.kind ≠ .rpc) (hrpc : w.rpc = none)
  /-- A message or an enum in a message. -/
  | type {v : Winner} (hv : v ∈ ws) (hinside : v.Encloses w) (hmessage : v.kind = .message)
      (hkind : w.kind.isType = true) (hrpc : w.rpc = none)
  /-- A method in its service. -/
  | method {v : Winner} (hv : v ∈ ws) (hinside : v.Encloses w) (hservice : v.kind = .service)
      (hkind : w.kind = .rpc) {signature : RpcSignature} (hrpc : w.rpc = some signature)
      (hsignature : signature.service = v.qualifiedName)

variable {w : Winner} {taken : List String}

theorem Placed.mono {ws ws' : List Winner} {package : String} (h : Placed ws package w)
    (hsubset : ∀ v ∈ ws, v ∈ ws') : Placed ws' package w := by
  cases h with
  | top hparent hname hkind hrpc => exact .top hparent hname hkind hrpc
  | type hv hinside hmessage hkind hrpc => exact .type (hsubset _ hv) hinside hmessage hkind hrpc
  | method hv hinside hservice hkind hrpc hsignature =>
    exact .method (hsubset _ hv) hinside hservice hkind hrpc hsignature

/-- What wins inside a declaration is among the winners of both. -/
theorem mem_contest_of_mem_inside {v : Winner} {inside : List String → List Winner} {u : Winner}
    (h : u ∈ v.contest inside taken) {x : Winner} (hx : x ∈ inside (taken ++ [v.qualifiedName])) :
    x ∈ v.contest inside taken := by
  rw [contest, if_neg (not_mem_of_mem_contest h)]
  exact List.mem_cons_of_mem _ hx

mutual

/-- What an element of a message body declares stands where the element stands, or in a message
inside it. -/
theorem placed_of_mem_ofElement (site : DeclarationSite) (e : MessageElement) {taken : List String}
    {w : Winner} (h : w ∈ ofElement site e taken) : w.rpc = none ∧
      ((w.parent = site.parent ∧ w.qualifiedName = Name.qualify site.scope w.name) ∨
        ∃ v ∈ ofElement site e taken, v.kind = .message ∧ v.Encloses w) := by
  cases e with
  | message name elements line =>
    rw [ofElement] at h ⊢
    have hself := self_mem_contest h
    rcases mem_contest h with rfl | hinside
    · exact ⟨rfl, .inl ⟨rfl, rfl⟩⟩
    · obtain ⟨hrpc, hplace⟩ := placed_of_mem_ofElements _ elements hinside
      have hsource := (of_mem_ofElements _ elements hinside).1
      refine ⟨hrpc, .inr ?_⟩
      rcases hplace with ⟨hparent, hname⟩ | ⟨v, hv, hkind, hencloses⟩
      · exact ⟨_, hself, rfl, hparent, hname, hsource.symm⟩
      · exact ⟨v, mem_contest_of_mem_inside h hv, hkind, hencloses⟩
  | enum decl =>
    rw [ofElement] at h
    rcases mem_contest h with rfl | h
    · exact ⟨rfl, .inl ⟨rfl, rfl⟩⟩
    · cases h
  | field | map | oneof | reserved | extensions | option | comment | group | extend => cases h

theorem placed_of_mem_ofElements (site : DeclarationSite) (es : List MessageElement)
    {taken : List String} {w : Winner} (h : w ∈ ofElements site es taken) : w.rpc = none ∧
      ((w.parent = site.parent ∧ w.qualifiedName = Name.qualify site.scope w.name) ∨
        ∃ v ∈ ofElements site es taken, v.kind = .message ∧ v.Encloses w) := by
  cases es with
  | nil => cases h
  | cons e es =>
    rw [ofElements] at h ⊢
    rcases List.mem_append.1 h with h | h
    · obtain ⟨hrpc, hplace⟩ := placed_of_mem_ofElement site e h
      exact ⟨hrpc, hplace.imp_right fun ⟨v, hv, hv'⟩ => ⟨v, List.mem_append_left _ hv, hv'⟩⟩
    · obtain ⟨hrpc, hplace⟩ := placed_of_mem_ofElements site es h
      exact ⟨hrpc, hplace.imp_right fun ⟨v, hv, hv'⟩ => ⟨v, List.mem_append_right _ hv, hv'⟩⟩

end

theorem placed_of_mem_ofService {site : DeclarationSite} {decl : Service}
    (hsite : site.parent = none) (h : w ∈ ofService site decl taken) :
    Placed (ofService site decl taken) site.scope w := by
  have hself := self_mem_contest h
  rcases mem_contest h with rfl | hinside
  · exact .top hsite rfl (by simp) rfl
  · obtain ⟨rpc, -, taken', hrpc, -⟩ := mem_inTurn hinside
    rcases mem_contest hrpc with rfl | hnone
    · exact .method hself ⟨rfl, rfl, rfl⟩ rfl rfl rfl rfl
    · cases hnone

theorem placed_of_mem_ofFileElement {site : DeclarationSite} {e : FileElement}
    (hsite : site.parent = none) (h : w ∈ ofFileElement site e taken) :
    Placed (ofFileElement site e taken) site.scope w := by
  have htype {e : MessageElement} (h : w ∈ ofElement site e taken) :
      Placed (ofElement site e taken) site.scope w := by
    obtain ⟨-, hkind⟩ := of_mem_ofElement site e h
    obtain ⟨hrpc, ⟨hparent, hname⟩ | ⟨v, hv, hmessage, hencloses⟩⟩ :=
      placed_of_mem_ofElement site e h
    · refine .top (hparent.trans hsite) hname (fun heq => ?_) hrpc
      rw [heq] at hkind
      cases hkind
    · exact .type hv hencloses hmessage hkind hrpc
  cases e with
  | message decl => exact htype h
  | enum decl => exact htype (e := .enum decl) h
  | service decl => exact placed_of_mem_ofService hsite h
  | extend | option | comment => cases h

/-- A winner among files stands in one of them, directly or inside other winners. -/
theorem exists_placed {files : List (String × SchemaFile)} (h : w ∈ ofFiles files) :
    ∃ file ∈ files, w.source = file.1 ∧ Placed (ofFiles files) file.2.packageName w := by
  obtain ⟨file, hfile, taken, hw, hall⟩ := mem_inTurn h
  have hsource := source_of_mem_ofFile hw
  obtain ⟨e, -, taken', hw, hall'⟩ := mem_inTurn hw
  exact ⟨file, hfile, hsource, (placed_of_mem_ofFileElement rfl hw).mono fun v hv =>
    hall v (hall' v hv)⟩

end Winner
end SchemaGraph
