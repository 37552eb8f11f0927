import SchemaGraph.Proofs.Graph.Fragments
import SchemaGraph.Proofs.Import.Units
/-!
# What the statistics of a run count

The statistics of a graph are read off its registry, its edges and its units. They count what the
run has met (`LoadedGraph.load_statistics`): the files that have been read, the declarations that
hold their names, the references that nothing answers, and what the references of bodies lead to.
Each number is the length of a list without repetition whose members are known
(`length_eq_length_dedup`), since a table has no key twice.
-/

namespace SchemaGraph

/-! ## Tallies -/

section Tally

variable {κ α : Type} [LT κ] [DecidableLT κ] [KeyOrder κ]

/-- The table that has counted one more of a key. -/
def Table.countOne (t : Table κ Nat) (key : κ) : Table κ Nat :=
  t.alter key fun count? => count?.getD 0 + 1

omit [KeyOrder κ] in
theorem Entries.sum_alter (key : κ) (entries : List (κ × Nat)) :
    ((alter key (fun count? => count?.getD 0 + 1) entries).map (·.2)).sum =
      (entries.map (·.2)).sum + 1 := by
  induction entries with
  | nil => rfl
  | cons head rest ih =>
    obtain ⟨k, n⟩ := head
    rw [alter]
    -- A new key counts one, a key further on is met there, and this key counts one more.
    split
    · simp [Nat.add_comm]
    · split
      · simp [ih, Nat.add_assoc]
      · simp only [List.map_cons, List.sum_cons, Option.getD_some]
        omega

/-- A tally over a list sums up to the length of the list. -/
theorem Table.sum_tally (key : α → κ) (xs : List α) (t : Table κ Nat) :
    (xs.foldl (fun t x => t.countOne (key x)) t).values.sum = t.values.sum + xs.length := by
  induction xs generalizing t with
  | nil => rfl
  | cons x xs ih =>
    have hstep : (t.countOne (key x)).values.sum = t.values.sum + 1 :=
      Entries.sum_alter (key x) t.entries
    rw [List.foldl_cons, ih, hstep, List.length_cons]
    omega

/-- A tally over a list counts for each key the members with this key. -/
theorem Table.getD_tally [DecidableEq κ] (key : α → κ) (xs : List α) (t : Table κ Nat) (k : κ) :
    ((xs.foldl (fun t x => t.countOne (key x)) t).get? k).getD 0 =
      (t.get? k).getD 0 + xs.countP (key · = k) := by
  induction xs generalizing t with
  | nil => rfl
  | cons x xs ih =>
    rw [List.foldl_cons, ih, Table.countOne, Table.get?_alter, List.countP_cons]
    by_cases hk : k = key x
    · rw [if_pos hk, if_pos (by simp [hk]), hk]
      simp only [Option.getD_some]
      omega
    · rw [if_neg hk, if_neg (by simp [Ne.symm hk]), Nat.add_zero]

end Tally

theorem EntityKind.text_inj {kind kind' : EntityKind} (h : kind.text = kind'.text) :
    kind = kind' := by
  cases kind <;> cases kind' <;> first | rfl | exact absurd h (by decide)

namespace Registry

variable {r : Registry}

/-- The entities counted for a kind are those of the kind. -/
theorem getD_countByKind (r : Registry) (kind : EntityKind) :
    (r.countByKind.get? kind.text).getD 0 = r.all.countP (·.kind = kind) := by
  have htally := Table.getD_tally (fun e : Entity => e.kind.text) r.all .empty kind.text
  rw [Table.get?_empty, Option.getD_none, Nat.zero_add] at htally
  refine htally.trans (List.countP_congr fun e _ => ?_)
  rw [decide_eq_true_eq, decide_eq_true_eq]
  exact ⟨EntityKind.text_inj, congrArg EntityKind.text⟩

theorem length_all (r : Registry) : r.all.length = r.size :=
  List.length_map ..

/-- Counted by their kinds the entities are all counted. -/
theorem sum_countByKind (r : Registry) : r.countByKind.values.sum = r.size := by
  have htally := Table.sum_tally (fun e : Entity => e.kind.text) r.all .empty
  rw [r.length_all] at htally
  exact htally.trans (Nat.zero_add _)

/-- There are as many entities with a property as different names of such. -/
theorem countP_eq (hr : r.Indexed) (p : Entity → Bool) {names : List String}
    (h : ∀ name, (∃ e, r.get? name = some e ∧ p e = true) ↔ name ∈ names) :
    r.all.countP p = names.dedup.length := by
  have hnodup : ((r.all.filter p).map (·.qualifiedName)).Nodup :=
    (names_filter_sorted hr p).imp KeyOrder.ne_of_lt
  rw [List.countP_eq_length_filter, ← List.length_map Entity.qualifiedName]
  exact length_eq_length_dedup hnodup fun name => (mem_names_filter hr).trans (h name)

end Registry

/-! ## Files -/

namespace Walk

variable {loader : Loader} {options : RunOptions} {root : String} {walk : Walk}

/-- As many units are not missing as files have been read. -/
theorem countP_units (h : run loader options root .empty = (.ok (), walk)) :
    walk.units.values.countP (!·.missing) = walk.files.length := by
  have hnodup : ((walk.units.entries.filter fun e => !e.2.missing).map (·.1)).Nodup :=
    walk.units.keys_nodup.sublist (List.filter_sublist.map _)
  have hmem (id : String) : id ∈ (walk.units.entries.filter fun e => !e.2.missing).map (·.1) ↔
      id ∈ walk.files.map (·.1) := by
    simp only [List.mem_map, List.mem_filter, Prod.exists, Table.mem_entries, exists_eq_right,
      Bool.not_eq_true', exists_and_right]
    constructor
    · rintro ⟨unit, hunit, hmissing⟩
      rcases run_unit h hunit with ⟨file, weak, hfile, -⟩ | ⟨weak, rfl⟩
      · exact ⟨file, hfile⟩
      · cases hmissing
    · rintro ⟨file, hfile⟩
      obtain ⟨weak, hunit⟩ := run_file h hfile
      exact ⟨_, hunit, rfl⟩
  have hlength := length_eq_length_dedup hnodup hmem
  -- No file has been read twice, and a unit has one identifier.
  rw [(nodup_files h).dedup, List.length_map, List.length_map] at hlength
  rw [Table.values, List.countP_map, List.countP_eq_length_filter]
  exact hlength

end Walk

/-! ## References -/

/-- The owner and the field of a reference, with the name of the entity that the reference stands
for. -/
def Reference.triple? (r : Registry) (showMissing : Bool) (ref : Reference) :
    Option (String × String × String) :=
  match r.referent showMissing ref.owner ref.typeName with
  | .ok (.entity q) => some (ref.owner, ref.field, q)
  | _ => none

theorem Reference.triple?_eq_some_iff {r : Registry} {showMissing : Bool} {ref : Reference}
    {owner field q : String} :
    ref.triple? r showMissing = some (owner, field, q) ↔
      ref.owner = owner ∧ ref.field = field ∧
        r.referent showMissing ref.owner ref.typeName = .ok (.entity q) := by
  unfold triple?
  split
  · rename_i t hreferent
    simp [hreferent]
  · rename_i hno
    simp only [reduceCtorEq, false_iff, not_and]
    exact fun _ _ => hno q

/-- The edge of a triple of an owner, a field and a target, between the nodes of the two. -/
def Registry.edge (r : Registry) (triple : String × String × String) : EdgeKey × String :=
  (⟨(Symbols.ofRegistry r).ownerId triple.1, triple.2.1⟩,
    (Symbols.ofRegistry r).ownerId triple.2.2)

theorem Registry.edgeOf?_eq_map {r r' : Registry} {showMissing : Bool} {ref : Reference}
    (howner : (r'.get? ref.owner).isSome)
    (htarget : ∀ {q}, r.referent showMissing ref.owner ref.typeName = .ok (.entity q) →
      (r'.get? q).isSome) :
    r.edgeOf? r' showMissing ref = (ref.triple? r showMissing).map r'.edge := by
  obtain ⟨owner, howner⟩ := Option.isSome_iff_exists.1 howner
  unfold Reference.triple?
  split
  · rename_i q hreferent
    obtain ⟨target, htarget⟩ := Option.isSome_iff_exists.1 (htarget hreferent)
    rw [edgeOf?_eq_some hreferent howner htarget, Option.map_some, edge,
      Symbols.ownerId_of_get? howner, Symbols.ownerId_of_get? htarget]
  · rename_i hno
    exact edgeOf?_eq_none hno

/-- The edge of a triple tells the triple. -/
theorem Registry.edge_inj {r : Registry} (hids : r.Identified)
    {x y : String × String × String} (hx : (r.get? x.1).isSome) (hy : (r.get? y.1).isSome)
    (hx' : (r.get? x.2.2).isSome) (hy' : (r.get? y.2.2).isSome) (h : r.edge x = r.edge y) :
    x = y := by
  have hid {p q : String} (hp : (r.get? p).isSome) (hq : (r.get? q).isSome)
      (heq : (Symbols.ofRegistry r).ownerId p = (Symbols.ofRegistry r).ownerId q) : p = q := by
    obtain ⟨e, he⟩ := Option.isSome_iff_exists.1 hp
    obtain ⟨f, hf⟩ := Option.isSome_iff_exists.1 hq
    rw [Symbols.ownerId_of_get? he, Symbols.ownerId_of_get? hf] at heq
    exact hids.qualifiedName_eq he hf heq
  obtain ⟨hkey, htarget⟩ := Prod.mk.inj h
  obtain ⟨howner, hfield⟩ := EdgeKey.mk.inj hkey
  exact Prod.ext (hid hx hy howner) (Prod.ext hfield (hid hx' hy' htarget))

/-- The name of the placeholder for a text inside an entity. -/
def Registry.placeholderIn (r : Registry) (owner text : String) : String :=
  placeholderName ((Symbols.ofRegistry r).ownerId owner) text

theorem Registry.placeholderIn_eq {r : Registry} {p : String} {owner : Entity}
    (howner : r.get? p = some owner) (text : String) :
    r.placeholderIn p text = placeholderName owner.nodeId text := by
  rw [placeholderIn, Symbols.ownerId_of_get? howner]

/-- The name of a placeholder tells its owner and its text. -/
theorem Registry.placeholderIn_inj {r : Registry} (hids : r.Identified) {p p' text text' : String}
    (hp : (r.get? p).isSome) (hp' : (r.get? p').isSome)
    (h : r.placeholderIn p text = r.placeholderIn p' text') : p = p' ∧ text = text' := by
  obtain ⟨owner, howner⟩ := Option.isSome_iff_exists.1 hp
  obtain ⟨owner', howner'⟩ := Option.isSome_iff_exists.1 hp'
  rw [placeholderIn_eq howner, placeholderIn_eq howner'] at h
  obtain ⟨hid, htext⟩ := placeholderName_inj (hids.dot_not_mem howner) (hids.dot_not_mem howner') h
  exact ⟨hids.qualifiedName_eq howner howner' hid, htext⟩

/-- A reference that nothing answers stands for its placeholder, if for anything. -/
theorem Reference.eq_placeholder_of_not_answers {r : Registry} (hr : r.Indexed)
    (hqualified : r.Qualified) {showMissing : Bool} {ref : Reference}
    (howner : (r.get? ref.owner).isSome) (h : ¬ r.Answers ref.owner ref.typeName)
    {referent : Referent}
    (hreferent : r.referent showMissing ref.owner ref.typeName = .ok referent) :
    referent = .entity (r.placeholderIn ref.owner ref.typeName) := by
  obtain ⟨owner, howner⟩ := Option.isSome_iff_exists.1 howner
  cases showMissing with
  | true =>
    rw [referent_of_not_answers hr hqualified h howner] at hreferent
    rw [Registry.placeholderIn_eq howner]
    exact (Except.ok.inj hreferent).symm
  | false =>
    rcases failure?_false hr hqualified ref with ⟨hanswers, -⟩ | ⟨-, hfailure⟩
    · exact absurd hanswers h
    · rw [failure?, hreferent] at hfailure
      cases hfailure

/-- A reference that is answered stands for a declared entity, if for any. -/
theorem Registry.Answers.isSome_of_referent {r : Registry} (hr : r.Indexed) {showMissing : Bool}
    {scope reference : String} (h : r.Answers scope reference) {q : String}
    (hreferent : r.referent showMissing scope reference = .ok (.entity q)) :
    (r.get? q).isSome := by
  rw [referent_eq hr] at hreferent
  rcases h with hscalar | ⟨bound, hbind⟩
  · rw [if_pos hscalar] at hreferent
    cases hreferent
  · rw [hbind] at hreferent
    split at hreferent
    · cases hreferent
    · cases hreferent
      obtain ⟨e, he⟩ := Option.isSome_iff_exists.1 (type?_isSome_of_bind hr hbind)
      rw [(type?_eq_some.1 he).1]
      rfl

/-! ## What a build leaves behind -/

/-- `Finished r winners showMissing b`: the build has gone through the references of the winners,
which are the entities of `r`. All of them resolve, and what the build has added to `r` are
placeholders for some of them. -/
structure Finished (r : Registry) (winners : List Winner) (showMissing : Bool) (b : Build) :
    Prop where
  takes : Registry.empty.Takes winners r
  kind : ∀ w ∈ winners, w.kind ≠ .missing
  coherent : r.Coherent
  qualified : r.Qualified
  tracks : b.Tracks r showMissing (winners.flatMap (·.references))
  resolves : ∀ ref ∈ winners.flatMap (·.references), ∃ referent,
    r.referent showMissing ref.owner ref.typeName = .ok referent
  accounts : r.Accounts showMissing (winners.flatMap (·.references)) b.symbols.registry

/-- The build over the files of a walk is finished if it reports no errors. -/
theorem LoadedGraph.finished_buildOf {walk : Walk} {entered : List (String × SchemaFile)}
    (h : Walk.Traverses (.start .empty) walk entered) (renderer : Renderer) (options : RunOptions)
    (hnil : (buildOf renderer options walk).report.errors = []) :
    Finished walk.registry (Winner.ofFiles entered) options.showMissingTypes
      (buildOf renderer options walk) := by
  obtain ⟨hperm, hregistry⟩ := h.of_start
  have htracks := tracks_buildOf h renderer options
  have haccounts := Build.accounts_buildAll h.nodup hperm renderer options.showMissingTypes
  rw [← hregistry] at haccounts
  exact ⟨hregistry ▸ Registry.takes_declareFiles entered,
    fun w hw => Winner.kind_ne_missing_of_mem_ofFiles hw,
    hregistry ▸ Registry.coherent_declareFiles entered,
    hregistry ▸ Registry.qualified_declareFiles entered, htracks, htracks.errors hnil, haccounts⟩

namespace Finished

variable {r : Registry} {winners : List Winner} {showMissing : Bool} {b : Build}

/-- The registered entities that are no placeholders are the winners. -/
theorem exists_iff_winner (h : Finished r winners showMissing b) {p : EntityKind → Prop}
    (hp : ¬ p .missing) (q : String) :
    (∃ e, b.symbols.registry.get? q = some e ∧ p e.kind) ↔
      ∃ w ∈ winners, w.qualifiedName = q ∧ p w.kind := by
  constructor
  · rintro ⟨e, he, hkind⟩
    have hne : e.kind ≠ .missing := fun heq => hp (heq ▸ hkind)
    obtain ⟨w, hw, hname, hdescribes⟩ := h.takes.exists_describes h.tracks.symbols.grows he hne
    exact ⟨w, hw, hname, hdescribes.kind ▸ hkind⟩
  · rintro ⟨w, hw, rfl, hkind⟩
    obtain ⟨e, he, hdescribes⟩ := h.takes.exists_registered h.tracks.symbols.grows hw
    exact ⟨e, he, hdescribes.kind ▸ hkind⟩

/-- As many entities are declared as there are winners. -/
theorem countP_declared (h : Finished r winners showMissing b) :
    b.symbols.registry.all.countP (·.kind ≠ .missing) = winners.length := by
  have hmem (q : String) :
      (∃ e, b.symbols.registry.get? q = some e ∧ decide (e.kind ≠ .missing) = true) ↔
        q ∈ winners.map (·.qualifiedName) := by
    simp only [decide_eq_true_eq]
    rw [h.exists_iff_winner (p := (· ≠ .missing)) (by simp), List.mem_map]
    constructor
    · rintro ⟨w, hw, hname, -⟩
      exact ⟨w, hw, hname⟩
    · rintro ⟨w, hw, hname⟩
      exact ⟨w, hw, hname, h.kind w hw⟩
  rw [Registry.countP_eq h.tracks.symbols.coherent.indexed _ hmem, h.takes.nodup.dedup,
    List.length_map]

/-! ### Placeholders -/

/-- An entity is a placeholder if it has not been declared. -/
theorem kind_eq_missing_iff (h : Finished r winners showMissing b) {q : String} {e : Entity}
    (he : b.symbols.registry.get? q = some e) : e.kind = .missing ↔ r.get? q = none := by
  constructor
  · intro hkind
    cases hq : r.get? q with
    | none => rfl
    | some declared =>
      obtain ⟨e', he', hundrawn⟩ := h.tracks.symbols.grows.kept hq
      obtain ⟨w, hw, -, hdescribes⟩ := h.takes.exists_winner hq
      rw [he, Option.some.injEq] at he'
      subst he'
      rw [Entity.kind_eq_of_undrawn hundrawn, hdescribes.kind] at hkind
      exact absurd hkind (h.kind w hw)
  · exact fun hq => h.tracks.symbols.grows.added hq he

/-- Where declared names leave those of placeholders free, the placeholders are those of the
references that nothing answers. -/
theorem exists_missing_iff (h : Finished r winners showMissing b) (hspares : r.SparesPlaceholders)
    (q : String) :
    (∃ e, b.symbols.registry.get? q = some e ∧ e.kind = .missing) ↔
      ∃ ref ∈ winners.flatMap (·.references), ¬ r.Answers ref.owner ref.typeName ∧
        r.placeholderIn ref.owner ref.typeName = q := by
  constructor
  · rintro ⟨e, he, hkind⟩
    have hnew := (h.kind_eq_missing_iff he).1 hkind
    obtain ⟨ref, href, hreferent⟩ := h.accounts q hnew (by rw [he]; rfl)
    have hanswers : ¬ r.Answers ref.owner ref.typeName := fun hanswers => by
      have hsome := hanswers.isSome_of_referent h.coherent.indexed hreferent
      rw [hnew] at hsome
      cases hsome
    have hname := Reference.eq_placeholder_of_not_answers h.coherent.indexed h.qualified
      (h.tracks.owned ref href) hanswers hreferent
    exact ⟨ref, href, hanswers, (Referent.entity.inj hname).symm⟩
  · rintro ⟨ref, href, hanswers, rfl⟩
    obtain ⟨referent, hreferent⟩ := h.resolves ref href
    obtain rfl := Reference.eq_placeholder_of_not_answers h.coherent.indexed h.qualified
      (h.tracks.owned ref href) hanswers hreferent
    obtain ⟨e, he⟩ := Option.isSome_iff_exists.1 (h.tracks.registered ref href hreferent)
    exact ⟨e, he, (h.kind_eq_missing_iff he).2 (hspares.get?_eq_none _ _)⟩

/-- There are as many placeholders as different pairs of an owner and a text among the references
that nothing answers. -/
theorem countP_missing (h : Finished r winners showMissing b) (hspares : r.SparesPlaceholders) :
    b.symbols.registry.all.countP (·.kind = .missing) =
      (((winners.flatMap (·.references)).filter fun ref =>
        ¬ r.Answers ref.owner ref.typeName).map fun ref =>
          (ref.owner, ref.typeName)).dedup.length := by
  have hmem (q : String) :
      (∃ e, b.symbols.registry.get? q = some e ∧ decide (e.kind = .missing) = true) ↔
        q ∈ (((winners.flatMap (·.references)).filter fun ref =>
          ¬ r.Answers ref.owner ref.typeName).map fun ref => (ref.owner, ref.typeName)).map
            fun pair => r.placeholderIn pair.1 pair.2 := by
    simp only [decide_eq_true_eq, h.exists_missing_iff hspares, List.map_map, List.mem_map,
      List.mem_filter, Function.comp, and_assoc]
  rw [Registry.countP_eq h.tracks.symbols.coherent.indexed _ hmem]
  -- The owners are declared, so that different pairs have different placeholders.
  refine length_dedup_map fun x hx y hy heq => ?_
  obtain ⟨ref, href, rfl⟩ := List.mem_map.1 hx
  obtain ⟨ref', href', rfl⟩ := List.mem_map.1 hy
  obtain ⟨howner, htext⟩ := Registry.placeholderIn_inj h.coherent.identified
    (h.tracks.owned ref (List.mem_filter.1 href).1)
    (h.tracks.owned ref' (List.mem_filter.1 href').1) heq
  exact Prod.ext howner htext

/-! ### Edges -/

/-- There are as many edges as different triples of an owner, a field and an entity that a reference
stands for. -/
theorem edgeCount_eq (h : Finished r winners showMissing b) :
    b.graph.edgeCount = ((winners.flatMap (·.references)).filterMap
      (Reference.triple? r showMissing)).dedup.length := by
  have hedges : (winners.flatMap (·.references)).filterMap
        (r.edgeOf? b.symbols.registry showMissing) =
      ((winners.flatMap (·.references)).filterMap (Reference.triple? r showMissing)).map
        b.symbols.registry.edge := by
    rw [List.map_filterMap]
    exact List.filterMap_congr fun ref href => Registry.edgeOf?_eq_map
      (h.tracks.symbols.grows.isSome (h.tracks.owned ref href)) (h.tracks.registered ref href)
  rw [h.tracks.counts.edgeCount_eq, hedges]
  have hends {owner field q : String} (hmem : (owner, field, q) ∈
      (winners.flatMap (·.references)).filterMap (Reference.triple? r showMissing)) :
      (b.symbols.registry.get? owner).isSome ∧ (b.symbols.registry.get? q).isSome := by
    obtain ⟨ref, href, htriple⟩ := List.mem_filterMap.1 hmem
    obtain ⟨rfl, -, hreferent⟩ := Reference.triple?_eq_some_iff.1 htriple
    exact ⟨h.tracks.symbols.grows.isSome (h.tracks.owned ref href),
      h.tracks.registered ref href hreferent⟩
  refine length_dedup_map fun x hx y hy heq => ?_
  exact Registry.edge_inj h.tracks.symbols.coherent.identified (hends hx).1 (hends hy).1
    (hends hx).2 (hends hy).2 heq

/-- An edge leads to an entity just when a reference stands for it. -/
theorem mem_targets_iff (h : Finished r winners showMissing b) {q : String} {e : Entity}
    (he : b.symbols.registry.get? q = some e) :
    e.nodeId ∈ b.graph.edges.values.flatMap Table.keys ↔
      ∃ ref ∈ winners.flatMap (·.references),
        r.referent showMissing ref.owner ref.typeName = .ok (.entity q) := by
  have htargets : e.nodeId ∈ b.graph.edges.values.flatMap Table.keys ↔
      ∃ key, ∃ targets, b.graph.edges.get? key = some targets ∧
        (targets.get? e.nodeId).isSome := by
    simp only [List.mem_flatMap, Table.mem_values, Table.mem_keys]
    constructor
    · rintro ⟨targets, ⟨key, hkey⟩, hid⟩
      exact ⟨key, targets, hkey, hid⟩
    · rintro ⟨key, targets, hkey, hid⟩
      exact ⟨targets, ⟨key, hkey⟩, hid⟩
  rw [htargets]
  simp only [← h.tracks.counts.mem_iff, List.mem_filterMap]
  constructor
  · rintro ⟨key, ref, href, hedge⟩
    obtain ⟨t, owner, target, hreferent, -, htarget, heq⟩ := Registry.edgeOf?_eq_some_iff.1 hedge
    have hids := h.tracks.symbols.coherent.identified
    obtain rfl := hids.qualifiedName_eq htarget he (Prod.mk.inj heq).2
    exact ⟨ref, href, hreferent⟩
  · rintro ⟨ref, href, hreferent⟩
    obtain ⟨owner, howner⟩ := Option.isSome_iff_exists.1
      (h.tracks.symbols.grows.isSome (h.tracks.owned ref href))
    exact ⟨_, ref, href, Registry.edgeOf?_eq_some hreferent howner he⟩

/-- The types that no edge leads to are the messages and enums declared that no reference stands
for. -/
theorem mem_unreferencedTypes (h : Finished r winners showMissing b) (q : String) :
    q ∈ b.symbols.registry.unreferencedTypes b.graph ↔
      (∃ w ∈ winners, w.qualifiedName = q ∧ w.kind.isType = true) ∧
        ∀ ref ∈ winners.flatMap (·.references),
          r.referent showMissing ref.owner ref.typeName ≠ .ok (.entity q) := by
  unfold Registry.unreferencedTypes
  rw [Registry.mem_names_filter h.tracks.symbols.coherent.indexed,
    ← h.exists_iff_winner (p := (·.isType = true)) (by decide)]
  simp only [decide_eq_true_eq]
  constructor
  · rintro ⟨e, he, hkind, hno⟩
    rw [h.mem_targets_iff he] at hno
    exact ⟨⟨e, he, hkind⟩, fun ref href hreferent => hno ⟨ref, href, hreferent⟩⟩
  · rintro ⟨⟨e, he, hkind⟩, hno⟩
    refine ⟨e, he, hkind, ?_⟩
    rw [h.mem_targets_iff he]
    rintro ⟨ref, href, hreferent⟩
    exact hno ref href hreferent

end Finished

/-! ## Whole loads -/

namespace LoadedGraph

/-- The statistics of the graph describe a run with the import walk `walk`, in which the
declarations `winners` hold their names. -/
structure StatisticsDescribe (g : LoadedGraph) (walk : Walk) (winners : List Winner) : Prop where
  /-- Each file of the walk has been parsed. -/
  parsed : ∀ file ∈ walk.files, ∃ text, parseSchema file.1 text = .ok file.2
  /-- The files counted are these. -/
  files : g.statistics.fileCount = walk.files.length
  /-- With the missing ones they are the units. -/
  units : g.statistics.fileCount + g.statistics.missingFileCount = g.units.size
  /-- What is counted for a kind are the entities of the kind. -/
  kinds : ∀ kind, (g.statistics.entitiesByKind.get? kind.text).getD 0 =
    g.registry.all.countP (·.kind = kind)
  /-- Together these are all entities. -/
  total : g.statistics.entityCount = g.statistics.entitiesByKind.values.sum
  /-- An entity is a declaration that holds its name, or it is unresolved. -/
  entities : g.statistics.entityCount = winners.length + g.statistics.unresolvedCount
  /-- What no message or enum answers is counted once for each owner and text; a scalar type needs
  neither. -/
  unresolved : g.statistics.unresolvedCount =
    (((winners.flatMap (·.references)).filter fun ref =>
      ¬ walk.registry.Answers ref.owner ref.typeName).map fun ref =>
        (ref.owner, ref.typeName)).dedup.length
  /-- An edge is counted once for each owner, field and entity that a reference resolves to. -/
  edges : g.statistics.edgeCount = ((winners.flatMap (·.references)).filterMap
    (Reference.triple? walk.registry g.options.showMissingTypes)).dedup.length
  /-- The unreferenced types stand in ascending order, each once. -/
  sorted : g.statistics.unreferencedTypes.Pairwise (· < ·)
  /-- They are the messages and enums that no reference resolves to. -/
  unreferenced : ∀ q, q ∈ g.statistics.unreferencedTypes ↔
    (∃ w ∈ winners, w.qualifiedName = q ∧ w.kind.isType = true) ∧
      ∀ ref ∈ winners.flatMap (·.references),
        walk.registry.referent g.options.showMissingTypes ref.owner ref.typeName ≠
          .ok (.entity q)

variable {loader : Loader} {options : RunOptions} {renderer : Renderer} {root : String}
  {g : LoadedGraph} {walk : Walk}

/--
**The statistics describe the run.** Let a load succeed, and let no entity declared have a name that
starts like those of placeholders. Then the winners among the declarations of the files entered are
the entities declared, and each number of the statistics counts what it says about the files, these
declarations and the references in their bodies.
-/
theorem load_statistics (h : load loader options renderer root = .ok g)
    (hrun : Walk.run loader options root .empty = (.ok (), walk))
    (hspares : walk.registry.SparesPlaceholders) :
    ∃ entered, Walk.Traverses (.start .empty) walk entered ∧
      Registry.empty.Takes (Winner.ofFiles entered) walk.registry ∧
      g.StatisticsDescribe walk (Winner.ofFiles entered) := by
  obtain ⟨entered, htraverses, -, hsymbols, hgraph, hoptions, hunits, hnil⟩ := load_built h hrun
  have hfinished := finished_buildOf htraverses renderer options hnil
  have hindexed := hfinished.tracks.symbols.coherent.indexed
  have hregistry : g.registry = (buildOf renderer options walk).symbols.registry := by
    rw [registry, hsymbols]
  have hmissing : g.statistics.unresolvedCount = g.registry.all.countP (·.kind = .missing) :=
    g.registry.getD_countByKind .missing
  refine ⟨entered, htraverses, hfinished.takes, ?_⟩
  constructor
  case parsed =>
    obtain ⟨entered', htraverses', henters⟩ := Walk.run_enters hrun
    exact fun file hfile => henters.parsed file (htraverses'.of_start.1.mem_iff.1 hfile)
  case files =>
    rw [← Walk.countP_units hrun, ← hunits]
    rfl
  case units =>
    have hsplit := List.length_eq_countP_add_countP (·.missing) (l := g.units.values)
    have hsize : g.units.values.length = g.units.size := List.length_map ..
    simp only [Bool.not_eq_true, Bool.decide_eq_false] at hsplit
    rw [← hsize, hsplit, Nat.add_comm]
    rfl
  case kinds => exact g.registry.getD_countByKind
  case total => exact g.registry.sum_countByKind.symm
  case entities =>
    have hsplit := List.length_eq_countP_add_countP (fun e : Entity => decide (e.kind = .missing))
      (l := g.registry.all)
    simp only [decide_eq_true_eq] at hsplit
    rw [hmissing, ← hfinished.countP_declared, ← hregistry, Nat.add_comm, ← hsplit]
    exact g.registry.length_all.symm
  case unresolved =>
    rw [hmissing, hregistry]
    exact hfinished.countP_missing hspares
  case edges =>
    rw [hoptions, ← hfinished.edgeCount_eq, ← hgraph]
    rfl
  case sorted =>
    rw [← hregistry] at hindexed
    exact Registry.names_filter_sorted hindexed _
  case unreferenced =>
    intro q
    rw [hoptions, ← hfinished.mem_unreferencedTypes q, ← hgraph, ← hregistry]
    rfl

/-- Two files that have been read and one that is missing. A message names a type twice that nothing
declares, and another message of its name is rejected. -/
def countedTexts : Table String String :=
  .ofList
    [("a", "import \"b\";import \"c\";message A\x7bX x=1;X y=2;\x7dmessage A\x7bB z=3;\x7d"),
      ("b", "message B\x7bA x=1;\x7d")]

/-- One entity is unresolved, and what the rejected message names is not counted. -/
theorem load_countedTexts : ∃ g walk entered,
    load (.ofTable countedTexts) ⟨true, true⟩ (fun _ _ => "") "a" = .ok g ∧
      Walk.run (.ofTable countedTexts) ⟨true, true⟩ "a" .empty = (.ok (), walk) ∧
      walk.registry.SparesPlaceholders ∧ g.StatisticsDescribe walk (Winner.ofFiles entered) ∧
      g.statistics.fileCount = 2 ∧ g.statistics.missingFileCount = 1 ∧
      g.statistics.entityCount = 3 ∧ g.statistics.unresolvedCount = 1 ∧
      g.statistics.edgeCount = 3 ∧ g.statistics.unreferencedTypes = ["B"] := by
  have hloaded : ((load (.ofTable countedTexts) ⟨true, true⟩ (fun _ _ => "") "a").toOption.any
      fun g => g.statistics.fileCount == 2 && g.statistics.missingFileCount == 1 &&
        g.statistics.entityCount == 3 && g.statistics.unresolvedCount == 1 &&
        g.statistics.edgeCount == 3 && g.statistics.unreferencedTypes == ["B"]) = true := by
    decide +kernel
  have hwalked :
      (Walk.run (.ofTable countedTexts) ⟨true, true⟩ "a" .empty).2.registry.entities.keys =
        ["A", "B"] := by
    decide +kernel
  obtain ⟨g, hload, hg⟩ := exists_ok_of_any hloaded
  simp only [Bool.and_eq_true, beq_iff_eq, and_assoc] at hg
  obtain ⟨walk, hrun, -⟩ := load_eq_ok hload
  rw [hrun] at hwalked
  have hspares : walk.registry.SparesPlaceholders := by
    rw [Registry.sparesPlaceholders_iff, hwalked]
    decide
  obtain ⟨entered, -, -, hdescribe⟩ := load_statistics hload hrun hspares
  exact ⟨g, walk, entered, hload, hrun, hspares, hdescribe, hg⟩

end LoadedGraph
end SchemaGraph
