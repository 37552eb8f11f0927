import SchemaGraph.Proofs.Registry.Growth
/-!
# Histories of a registry

An `Operation` is a call that may change a registry, with any arguments, and a history is a list of
them. What holds after every history comes from what one operation does: to the node identifiers
(`nodes_apply`), to the index of short names (`candidates_apply`) and to the entities
(`kept_apply`). `Lawful` collects what follows for a history and any later one.
-/

namespace SchemaGraph.Registry

/-- A call that may change a registry. -/
inductive Operation where
  | declare (entity : Entity)
  | nodeIdFor (shortName qualifiedName : String)
  | placeholder (ownerId reference source : String)
  | setArtifact (qualifiedName artifact : String)

namespace Operation

/-- The registry after the operation. -/
def apply (r : Registry) : Operation → Registry
  | declare entity =>
    match r.declare entity with
    | .ok r' => r'
    | .error _ => r
  | nodeIdFor shortName qualifiedName => (r.nodeIdFor shortName qualifiedName).2
  | placeholder ownerId reference source => (r.placeholder ownerId reference source).2
  | setArtifact qualifiedName artifact => r.setArtifact qualifiedName artifact

/-- The entity that the operation declares, unless its qualified name is taken. -/
def accepts (r : Registry) : Operation → List Entity
  | declare entity => if (r.get? entity.qualifiedName).isNone then [entity] else []
  | _ => []

end Operation

/-- The registry after a history of operations. -/
def run (r : Registry) (history : List Operation) : Registry :=
  history.foldl Operation.apply r

/-- The entities that a history declares, without those whose qualified names are taken, in the
order of their declarations. -/
def accepted (r : Registry) : List Operation → List Entity
  | [] => []
  | op :: history => op.accepts r ++ accepted (op.apply r) history

variable {r : Registry}

@[simp] theorem run_nil (r : Registry) : r.run [] = r :=
  rfl

@[simp] theorem run_cons (r : Registry) (op : Operation) (history : List Operation) :
    r.run (op :: history) = (op.apply r).run history :=
  rfl

theorem run_append (r : Registry) (history later : List Operation) :
    r.run (history ++ later) = (r.run history).run later :=
  List.foldl_append ..

/-- What every operation keeps, every history keeps. -/
theorem run_induction {P : Registry → Prop} (hstep : ∀ r op, P r → P (Operation.apply r op))
    (hr : P r) (history : List Operation) : P (r.run history) := by
  induction history generalizing r with
  | nil => exact hr
  | cons op history ih => exact ih (hstep r op hr)

/-! ## Declarations -/

/-- A declaration that is rejected changes nothing. -/
theorem apply_declare_of_present {entity found : Entity}
    (h : r.get? entity.qualifiedName = some found) :
    (Operation.declare entity).apply r = r := by
  simp only [Operation.apply, declare_of_present h]

theorem declares_apply {entity : Entity} (h : r.get? entity.qualifiedName = none) :
    Declares r entity ((Operation.declare entity).apply r) := by
  obtain ⟨r', hok⟩ := declare_of_absent h
  have happly : (Operation.declare entity).apply r = r' := by simp only [Operation.apply, hok]
  rw [happly]
  exact declares_of_declare hok

theorem Reachable.apply (hr : r.Reachable) (op : Operation) : (op.apply r).Reachable := by
  cases op with
  | declare entity =>
    cases h : r.declare entity with
    | ok r' =>
      simp only [Operation.apply, h]
      exact hr.declare h
    | error duplicate =>
      simp only [Operation.apply, h]
      exact hr
  | nodeIdFor shortName qualifiedName => exact hr.nodeIdFor shortName qualifiedName
  | placeholder ownerId reference source => exact hr.placeholder ownerId reference source
  | setArtifact qualifiedName artifact => exact hr.setArtifact qualifiedName artifact

theorem reachable_run (hr : r.Reachable) (history : List Operation) : (r.run history).Reachable :=
  run_induction (fun _ op h => h.apply op) hr history

/-! ## Entities -/

/-- No operation removes an entity or changes more of it than its drawn fragment. -/
theorem kept_apply (op : Operation) {q : String} {e : Entity} (he : r.get? q = some e) :
    ∃ e', (op.apply r).get? q = some e' ∧ e'.undrawn = e.undrawn := by
  cases op with
  | declare entity =>
    cases hget : r.get? entity.qualifiedName with
    | some found =>
      rw [apply_declare_of_present hget]
      exact ⟨e, he, rfl⟩
    | none =>
      have hne : q ≠ entity.qualifiedName := by
        intro hq
        rw [hq, hget] at he
        cases he
      rw [(declares_apply hget).get?, if_neg hne]
      exact ⟨e, he, rfl⟩
  | nodeIdFor shortName qualifiedName =>
    refine ⟨e, ?_, rfl⟩
    rw [Operation.apply, get?_nodeIdFor]
    exact he
  | placeholder ownerId reference source =>
    exact (r.grows_placeholder ownerId reference source).kept he
  | setArtifact qualifiedName artifact =>
    exact (r.grows_setArtifact qualifiedName artifact).kept he

theorem kept_run (history : List Operation) {q : String} {e : Entity} (he : r.get? q = some e) :
    ∃ e', (r.run history).get? q = some e' ∧ e'.undrawn = e.undrawn :=
  run_induction (P := fun r' => ∃ e', r'.get? q = some e' ∧ e'.undrawn = e.undrawn)
    (fun r' op ⟨e', he', hundrawn⟩ => by
      obtain ⟨e'', he'', hundrawn'⟩ := kept_apply op he'
      exact ⟨e'', he'', hundrawn'.trans hundrawn⟩)
    ⟨e, he, rfl⟩ history

/-- An operation that declares nothing lets the registry grow. -/
theorem grows_apply {op : Operation} (h : op.accepts r = []) : r.Grows (op.apply r) := by
  cases op with
  | declare entity =>
    cases hget : r.get? entity.qualifiedName with
    | some found =>
      rw [apply_declare_of_present hget]
      exact Grows.refl r
    | none =>
      rw [Operation.accepts, hget, if_pos Option.isNone_none] at h
      cases h
  | nodeIdFor s q =>
    have hget (p : String) : (r.nodeIdFor s q).2.get? p = r.get? p := get?_nodeIdFor ..
    refine ⟨fun _ => candidates_nodeIdFor .., fun {p e} he => ⟨e, ?_, rfl⟩, fun {p e'} hp he' => ?_⟩
    · rw [Operation.apply, hget]
      exact he
    · rw [Operation.apply, hget, hp] at he'
      cases he'
  | placeholder ownerId reference source => exact r.grows_placeholder ownerId reference source
  | setArtifact qualifiedName artifact => exact r.grows_setArtifact qualifiedName artifact

theorem grows_run {history : List Operation} (h : r.accepted history = []) :
    r.Grows (r.run history) := by
  induction history generalizing r with
  | nil => exact Grows.refl r
  | cons op history ih =>
    obtain ⟨hop, hrest⟩ := List.append_eq_nil_iff.1 h
    exact (grows_apply hop).trans (ih hrest)

/-! ## The index of short names -/

/-- The qualified names of the entities that stand in the index under a short name. -/
def indexedUnder (shortName : String) (entities : List Entity) : List String :=
  (entities.filter fun e => e.name = shortName ∧ e.kind ≠ .missing).map (·.qualifiedName)

theorem indexedUnder_append (shortName : String) (es es' : List Entity) :
    indexedUnder shortName (es ++ es') =
      indexedUnder shortName es ++ indexedUnder shortName es' := by
  unfold indexedUnder
  rw [List.filter_append, List.map_append]

/-- An operation lists what it declares behind what is listed. -/
theorem candidates_apply (r : Registry) (op : Operation) (s : String) :
    (op.apply r).candidates s = r.candidates s ++ indexedUnder s (op.accepts r) := by
  cases op with
  | declare entity =>
    cases hget : r.get? entity.qualifiedName with
    | some found =>
      rw [apply_declare_of_present hget, Operation.accepts, hget, if_neg (by simp)]
      exact (List.append_nil _).symm
    | none =>
      rw [(declares_apply hget).candidates, Operation.accepts, hget, if_pos Option.isNone_none]
      by_cases h : s = entity.name ∧ entity.kind ≠ .missing
      · rw [if_pos h]
        simp [indexedUnder, h.1, h.2]
      · have hnot : ¬(entity.name = s ∧ entity.kind ≠ .missing) := fun h' => h ⟨h'.1.symm, h'.2⟩
        rw [if_neg h]
        simp [indexedUnder, hnot]
  | nodeIdFor shortName qualifiedName =>
    rw [Operation.apply, candidates_nodeIdFor]
    exact (List.append_nil _).symm
  | placeholder ownerId reference source =>
    rw [Operation.apply, candidates_placeholder]
    exact (List.append_nil _).symm
  | setArtifact qualifiedName artifact => exact (List.append_nil _).symm

theorem candidates_run (r : Registry) (history : List Operation) (s : String) :
    (r.run history).candidates s = r.candidates s ++ indexedUnder s (r.accepted history) := by
  induction history generalizing r with
  | nil => exact (List.append_nil _).symm
  | cons op history ih =>
    rw [run_cons, ih, candidates_apply, accepted, indexedUnder_append, List.append_assoc]

/-! ## Node identifiers -/

/-- The registry without its entities: only the node identifiers. -/
def nodes (r : Registry) : Registry :=
  { r with entities := .empty, shortNames := .empty }

theorem nodes_nodeIdFor (r : Registry) (s q : String) :
    (r.nodeIdFor s q).2.nodes = (r.nodes.nodeIdFor s q).2 := by
  unfold nodeIdFor
  have hlookup : r.nodes.nodeIds.lookup (s, q) = r.nodeIds.lookup (s, q) := rfl
  rw [hlookup]
  cases r.nodeIds.lookup (s, q) with
  | some id => rfl
  | none => rfl

/-- An operation gives out at most one node identifier. -/
theorem nodes_apply (r : Registry) (op : Operation) :
    (op.apply r).nodes = r.nodes ∨ ∃ s q, (op.apply r).nodes = (r.nodeIdFor s q).2.nodes := by
  cases op with
  | declare entity =>
    left
    cases hget : r.get? entity.qualifiedName with
    | some found => rw [apply_declare_of_present hget]
    | none =>
      have h := declares_apply hget
      simp only [nodes, h.nodeIds, h.nodeTargets, h.nextNumber]
  | nodeIdFor s q => exact .inr ⟨s, q, rfl⟩
  | placeholder ownerId reference source =>
    cases hget : r.get? (placeholderName ownerId reference) with
    | some found =>
      left
      rw [Operation.apply, placeholder_of_present hget]
    | none =>
      right
      refine ⟨reference, placeholderName ownerId reference, ?_⟩
      rw [Operation.apply, placeholder_of_absent hget]
      rfl
  | setArtifact qualifiedName artifact => exact .inl rfl

/-- The node identifier of a pair, once it has one, is answered again, and nothing changes. -/
theorem nodeIdFor_of_given {s q id : String} (h : r.nodeIds.lookup (s, q) = some id) :
    r.nodeIdFor s q = (id, r) := by
  simp only [nodeIdFor, h]

theorem lookup_nodeIdFor (r : Registry) (s q : String) (pair : String × String) :
    (r.nodeIdFor s q).2.nodeIds.lookup pair =
      if pair = (s, q) then some (r.nodeIdFor s q).1 else r.nodeIds.lookup pair := by
  cases h : r.nodeIds.lookup (s, q) with
  | some id =>
    rw [nodeIdFor_of_given h]
    by_cases hpair : pair = (s, q)
    · rw [if_pos hpair, hpair, h]
    · rw [if_neg hpair]
  | none =>
    simp only [nodeIdFor, h]
    by_cases hpair : pair = (s, q)
    · rw [if_pos hpair, hpair, List.lookup_cons_self]
    · rw [if_neg hpair, List.lookup_cons, beq_false_of_ne hpair]

/-- Every node identifier leads to the qualified name of its pair, ends with a number below the
next one, and belongs to one pair. -/
structure Numbered (r : Registry) : Prop where
  identified : r.nodes.Identified
  injective : ∀ {pair pair' id}, r.nodeIds.lookup pair = some id →
    r.nodeIds.lookup pair' = some id → pair = pair'

theorem numbered_empty : Numbered .empty :=
  ⟨identified_empty, fun h => by cases h⟩

theorem Numbered.target (hr : Numbered r) {s q id : String}
    (h : r.nodeIds.lookup (s, q) = some id) : r.nodeTarget? id = some q :=
  hr.identified.pair h

/-- The identifiers decide. -/
theorem Numbered.of_nodes_eq {r' : Registry} (hr : Numbered r) (h : r'.nodes = r.nodes) :
    Numbered r' := by
  have hids : r'.nodeIds = r.nodeIds := congrArg (·.nodeIds) h
  refine ⟨h ▸ hr.identified, fun hpair hpair' => ?_⟩
  rw [hids] at hpair hpair'
  exact hr.injective hpair hpair'

theorem Numbered.nodeIdFor (hr : Numbered r) (s q : String) : Numbered (r.nodeIdFor s q).2 := by
  cases hgiven : r.nodeIds.lookup (s, q) with
  | some id =>
    rw [nodeIdFor_of_given hgiven]
    exact hr
  | none =>
    refine ⟨?_, fun {pair pair' id} hpair hpair' => ?_⟩
    · rw [nodes_nodeIdFor]
      exact (hr.identified.nodeIdFor s q).1
    -- The number of the new identifier is in no other one, since none leads anywhere with it.
    have hnew {pair : String × String} (h : r.nodeIds.lookup pair = some (r.nodeIdFor s q).1) :
        False := by
      have htarget := hr.target h
      have hfresh : r.nodeTarget? (r.nodeIdFor s q).1 = none := by
        simp only [Registry.nodeIdFor, hgiven]
        exact hr.identified.fresh s
      rw [hfresh] at htarget
      cases htarget
    rw [lookup_nodeIdFor] at hpair hpair'
    by_cases h : pair = (s, q)
    · by_cases h' : pair' = (s, q)
      · rw [h, h']
      · rw [if_pos h] at hpair
        rw [if_neg h', ← Option.some.inj hpair] at hpair'
        exact (hnew hpair').elim
    · by_cases h' : pair' = (s, q)
      · rw [if_pos h'] at hpair'
        rw [if_neg h, ← Option.some.inj hpair'] at hpair
        exact (hnew hpair).elim
      · rw [if_neg h] at hpair
        rw [if_neg h'] at hpair'
        exact hr.injective hpair hpair'

theorem Numbered.apply (hr : Numbered r) (op : Operation) : Numbered (op.apply r) := by
  rcases r.nodes_apply op with h | ⟨s, q, h⟩
  · exact hr.of_nodes_eq h
  · exact (hr.nodeIdFor s q).of_nodes_eq h

theorem numbered_run (history : List Operation) : Numbered (Registry.empty.run history) :=
  run_induction (fun _ op h => h.apply op) numbered_empty history

theorem given_apply (op : Operation) {pair : String × String} {id : String}
    (h : r.nodeIds.lookup pair = some id) : (op.apply r).nodeIds.lookup pair = some id := by
  rcases r.nodes_apply op with hnodes | ⟨s, q, hnodes⟩
  · have hids : (op.apply r).nodeIds = r.nodeIds := congrArg (·.nodeIds) hnodes
    rw [hids]
    exact h
  · have hids : (op.apply r).nodeIds = (r.nodeIdFor s q).2.nodeIds := congrArg (·.nodeIds) hnodes
    rw [hids, lookup_nodeIdFor]
    by_cases hpair : pair = (s, q)
    · subst hpair
      rw [if_pos rfl, nodeIdFor_of_given h]
    · rw [if_neg hpair]
      exact h

theorem given_run (history : List Operation) {pair : String × String} {id : String}
    (h : r.nodeIds.lookup pair = some id) : (r.run history).nodeIds.lookup pair = some id :=
  run_induction (P := fun r' => r'.nodeIds.lookup pair = some id)
    (fun _ op h => given_apply op h) h history

/-! ## The laws of a registry -/

/-- The registry that a history of operations makes. -/
def after (history : List Operation) : Registry :=
  Registry.empty.run history

/-- What holds of the registry after a history, and after that history and a later one. -/
structure Lawful (history later : List Operation) : Prop where
  /-- A request for a node identifier is answered with the one that the pair has from then on. -/
  answered : ∀ s q, ((after history).nodeIdFor s q).2.nodeIds.lookup (s, q) =
    some ((after history).nodeIdFor s q).1
  /-- The node identifier of a pair is answered for ever, and the answer changes nothing. -/
  permanent : ∀ {s q id}, (after history).nodeIds.lookup (s, q) = some id →
    ((after history).run later).nodeIdFor s q = (id, (after history).run later)
  /-- No two pairs have one node identifier. -/
  distinct : ∀ {pair pair' id}, (after history).nodeIds.lookup pair = some id →
    (after history).nodeIds.lookup pair' = some id → pair = pair'
  target : ∀ {s q id}, (after history).nodeIds.lookup (s, q) = some id →
    (after history).nodeTarget? id = some q
  /-- A short name lists what has been declared under it, in the order of the declarations. -/
  listed : ∀ s, (after history).candidates s = indexedUnder s (Registry.empty.accepted history)
  nodup : ∀ s, ((after history).candidates s).Nodup
  mem_candidates : ∀ s q, q ∈ (after history).candidates s ↔
    ∃ e, (after history).get? q = some e ∧ e.kind ≠ .missing ∧ e.name = s
  /-- An entity stays, and nothing of it but its drawn fragment may change. -/
  kept : ∀ {q e}, (after history).get? q = some e →
    ∃ artifact, ((after history).run later).get? q = some { e with artifact }
  /-- A declaration fails just when its qualified name is taken, and names the unit of the entity
  that has taken it. -/
  rejected : ∀ {entity duplicate}, (after history).declare entity = .error duplicate ↔
    ∃ e, (after history).get? entity.qualifiedName = some e ∧
      duplicate = ⟨entity.qualifiedName, e.source⟩
  /-- A declaration that fails changes nothing. -/
  unchanged : ∀ {entity duplicate}, (after history).declare entity = .error duplicate →
    after (history ++ [.declare entity]) = after history

theorem declare_eq_error {entity : Entity} {duplicate : Duplicate} :
    r.declare entity = .error duplicate ↔
      ∃ e, r.get? entity.qualifiedName = some e ∧
        duplicate = ⟨entity.qualifiedName, e.source⟩ := by
  constructor
  · intro herror
    cases hget : r.get? entity.qualifiedName with
    | some found =>
      rw [declare_of_present hget] at herror
      exact ⟨found, rfl, (Except.error.inj herror).symm⟩
    | none =>
      obtain ⟨r', hok⟩ := declare_of_absent hget
      rw [hok] at herror
      cases herror
  · rintro ⟨e, he, rfl⟩
    exact declare_of_present he

/-- **A registry is lawful.** Whatever operations are called with whatever arguments, and whatever
follows: the node identifiers of pairs are permanent, distinct and lead to the qualified names of
their pairs, a short name lists each of its entities once and in the order of their declarations,
and entities stay as they have been declared. -/
theorem lawful_of_history (history later : List Operation) : Lawful history later := by
  have hreachable : (after history).Reachable := reachable_run .empty history
  have hnumbered : Numbered (after history) := numbered_run history
  refine
    { answered := fun s q => ?_
      permanent := fun h => nodeIdFor_of_given (given_run later h)
      distinct := hnumbered.injective
      target := hnumbered.target
      listed := fun s => ?_
      nodup := hreachable.indexed.nodup
      mem_candidates := hreachable.indexed.mem_candidates
      kept := fun {q e} he => ?_
      rejected := declare_eq_error
      unchanged := fun {entity duplicate} herror => ?_ }
  · rw [lookup_nodeIdFor, if_pos rfl]
  · rw [after, candidates_run, candidates_empty, List.nil_append]
  · obtain ⟨e', he', hundrawn⟩ := kept_run later he
    exact ⟨e'.artifact, he'.trans (congrArg some (Entity.eq_of_undrawn hundrawn))⟩
  · obtain ⟨found, hfound, -⟩ := declare_eq_error.1 herror
    have happly := apply_declare_of_present hfound
    rw [after, run_append, run_cons, run_nil]
    exact happly

/-- Two names that look alike in a diagram, two entities of one short name, a declaration of a name
that is taken and a placeholder of that short name. -/
def namesakeHistory : List Operation :=
  [.nodeIdFor "a.b" "x", .nodeIdFor "a_b" "y",
    .declare ⟨"q.A", "A", .enum, "A_7", "u", none, none, none⟩,
    .declare ⟨"p.A", "A", .message, "A_7", "u", none, none, none⟩,
    .declare ⟨"q.A", "A", .message, "A_8", "v", none, none, none⟩,
    .placeholder "A_7" "A" "u", .setArtifact "p.A" "drawn"]

theorem lawful_namesakeHistory :
    (after namesakeHistory).nodeIds = [(("A", "missing.A_7.A"), "A_102"), (("a_b", "y"), "a_b_101"),
      (("a.b", "x"), "a_b_100")] ∧
    (after namesakeHistory).candidates "A" = ["q.A", "p.A"] ∧
    ((after namesakeHistory).get? "q.A").map (·.source) = some "u" ∧
    Lawful namesakeHistory namesakeHistory :=
  ⟨by decide +kernel, by decide +kernel, by decide +kernel,
    lawful_of_history namesakeHistory namesakeHistory⟩

end SchemaGraph.Registry
