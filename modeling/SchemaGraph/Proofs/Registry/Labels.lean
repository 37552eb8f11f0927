import SchemaGraph.Proofs.Registry.Growth
import SchemaGraph.Proofs.Schema.Names
/-!
# How node identifiers are spelled

The identifier of an entity is its short name made fit for a diagram, an underscore and a number
(`Registry.Labels`). Where the short name is a label, as those in schema texts are, the identifier
can be read as a name: a letter or an underscore, and then letters, digits and underscores
(`isName_of_isNodeIdOf`).
-/

namespace SchemaGraph.Registry

/-- The identifier is spelled like those given out for the short name. -/
def IsNodeIdOf (name id : String) : Prop :=
  ∃ n : Nat, id = nodeName name ++ "_" ++ toString n

/-- Identifiers are spelled from short names, for entities and for the pairs that they are kept for;
`p` holds of what has been declared of each entity. -/
structure Labels (p : Entity → Prop) (r : Registry) : Prop where
  declared : ∀ {q e}, r.get? q = some e → p e.declaration
  entity : ∀ {q e}, r.get? q = some e → IsNodeIdOf e.name e.nodeId
  pair : ∀ {name q id}, r.nodeIds.lookup (name, q) = some id → IsNodeIdOf name id

variable {p : Entity → Prop} {r r' : Registry}

theorem labels_empty : Labels p .empty :=
  ⟨by simp, by simp, by simp [Registry.empty]⟩

/-- What leaves the identifiers of pairs alone, and spells those of entities in the same way. -/
theorem Labels.of_get? (hr : Labels p r)
    (hentity : ∀ {q e}, r'.get? q = some e → p e.declaration ∧ IsNodeIdOf e.name e.nodeId)
    (hids : r'.nodeIds = r.nodeIds) : Labels p r' :=
  ⟨fun he => (hentity he).1, fun he => (hentity he).2, fun h => hr.pair (by rwa [hids] at h)⟩

theorem Labels.nodeIdFor (hr : Labels p r) (name q : String) :
    Labels p (r.nodeIdFor name q).2 ∧ IsNodeIdOf name (r.nodeIdFor name q).1 := by
  unfold Registry.nodeIdFor
  cases hlookup : r.nodeIds.lookup (name, q) with
  | some id => exact ⟨hr, hr.pair hlookup⟩
  | none =>
    refine ⟨⟨hr.declared, hr.entity, fun {name' q' id} h => ?_⟩, _, rfl⟩
    dsimp only at h
    rw [List.lookup_cons] at h
    split at h
    · rename_i heq
      rw [← Option.some.inj h, (Prod.mk.inj (beq_iff_eq.1 heq)).1]
      exact ⟨_, rfl⟩
    · exact hr.pair h

theorem Declares.labels {entity : Entity} (h : Declares r entity r') (hr : Labels p r)
    (hdeclared : p entity.declaration) (hid : IsNodeIdOf entity.name entity.nodeId) :
    Labels p r' := by
  refine hr.of_get? (fun {q e} he => ?_) h.nodeIds
  rw [h.get?] at he
  split at he
  · rw [← Option.some.inj he]
    exact ⟨hdeclared, hid⟩
  · exact ⟨hr.declared he, hr.entity he⟩

theorem Labels.placeholder (hr : Labels p r) (ownerId reference source : String)
    (hnew : p (r.newPlaceholder ownerId reference source).declaration) :
    Labels p (r.placeholder ownerId reference source).2 := by
  cases h : r.get? (placeholderName ownerId reference) with
  | some found =>
    rw [placeholder_of_present h]
    exact hr
  | none =>
    obtain ⟨hids, hid⟩ := hr.nodeIdFor reference (placeholderName ownerId reference)
    exact (declares_placeholder h source).labels hids hnew hid

theorem Labels.setArtifact (hr : Labels p r) (qualifiedName artifact : String) :
    Labels p (r.setArtifact qualifiedName artifact) := by
  refine hr.of_get? (fun {q e} he => ?_) rfl
  rw [get?_setArtifact] at he
  split at he
  · obtain ⟨e', he', rfl⟩ := Option.map_eq_some_iff.1 he
    show p e'.declaration ∧ IsNodeIdOf e'.name e'.nodeId
    exact ⟨hr.declared he', hr.entity he'⟩
  · exact ⟨hr.declared he, hr.entity he⟩

/-- What files declare is what the winners among their declarations are. -/
theorem labels_declareFiles {files : List (String × SchemaFile)}
    (h : ∀ w ∈ Winner.ofFiles files, ∀ e, w.Describes e → p e.declaration) :
    Labels p (Registry.empty.declareFiles files) := by
  -- The identifiers are spelled so whatever is declared; what is declared follows afterwards.
  have hlabels : Labels (fun _ => True) (Registry.empty.declareFiles files) :=
    declareFiles_induction (P := Labels fun _ => True) (fun d site name kind rpc hd => by
      obtain ⟨hids, hid⟩ := hd.nodeIdFor name (Name.qualify site.scope name)
      rcases Declarations.declare_cases d site name kind rpc with ⟨-, -, hreg⟩ | ⟨-, -, hok⟩
      · rw [hreg]
        exact hids
      · exact (declares_of_declare hok).labels hids trivial hid) files labels_empty
  refine ⟨fun {q e} he => ?_, hlabels.entity, hlabels.pair⟩
  obtain ⟨w, hw, -, hdescribes⟩ := (takes_declareFiles files).exists_winner he
  exact h w hw e hdescribes

/-! ## Identifiers as names -/

theorem isNodeChar_eq (c : Char) : isNodeChar c = TokenClass.isWordChar c := by
  unfold isNodeChar TokenClass.isWordChar TokenClass.isWordStart TokenClass.isDigit Char.isAlphanum
    Char.isAlpha Char.isUpper Char.isLower Char.isDigit
  rw [Bool.eq_iff_iff]
  simp only [Bool.or_eq_true, Bool.and_eq_true, decide_eq_true_eq, beq_iff_eq, Char.le_def,
    ge_iff_le]
  tauto

/-- What stands in an identifier for a character of the short name. -/
theorem isWordChar_nodeChar (c : Char) :
    TokenClass.isWordChar (if isNodeChar c then c else '_') = true := by
  split
  · rename_i hc
    rwa [← isNodeChar_eq]
  · decide

theorem isWordChar_of_mem_toDigits {n : Nat} {c : Char} (hc : c ∈ Nat.toDigits 10 n) :
    TokenClass.isWordChar c = true := by
  rw [← isNodeChar_eq, isNodeChar, Char.isAlphanum,
    Nat.isDigit_of_mem_toDigits (by decide) (by decide) hc, Bool.or_true, Bool.true_or]

/-- An identifier spelled from a label can be read as a name. -/
theorem isName_of_isNodeIdOf {name id : String} (hname : IsLabel name) (hid : IsNodeIdOf name id) :
    IsName id.toList := by
  obtain ⟨n, rfl⟩ := hid
  obtain ⟨c, t, heq, hc⟩ := hname
  refine ⟨if isNodeChar c then c else '_',
    t.map (fun c => if isNodeChar c then c else '_') ++ '_' :: Nat.toDigits 10 n, ?_, ?_, ?_⟩
  · simp [nodeName, heq]
  · rcases hc with hc | rfl
    · rw [isNodeChar_eq, TokenClass.isWordChar_of_isWordStart hc]
      exact hc
    · decide
  · intro d hd
    rcases List.mem_append.1 hd with hd | hd
    · obtain ⟨a, -, rfl⟩ := List.mem_map.1 hd
      exact isWordChar_nodeChar a
    · rcases List.mem_cons.1 hd with rfl | hd
      · decide
      · exact isWordChar_of_mem_toDigits hd

end SchemaGraph.Registry
