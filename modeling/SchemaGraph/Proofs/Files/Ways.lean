import SchemaGraph.Files.Tree
import SchemaGraph.Proofs.Files.Paths
/-!
# Ways through a file tree

`FileTree.Leads` is the way of a path as a relation: piece by piece, and from a link on to where the
link leads. It holds of just the walks that arrive (`walk_eq_ok`), so that what is true of ways is
proved by induction on them. A blank piece changes nothing before another piece (`Leads.skip`) and
ends at a directory (`Leads.entry?_of_blank`), and a name at the end is a name in the directory that
the pieces before it lead to (`Leads.of_name`).

`FileTree.KeepsWays` says that one tree has the directories, links and devices of another one and
nothing but directories and files besides. What leads somewhere in a tree then leads there still.
-/

namespace SchemaGraph.FileTree

/-- A link stands at the location. -/
def IsLink (t : FileTree) (location : Location) : Prop :=
  ∃ target, t.entry? location = some (.link target)

/-- Neither a link nor a device stands at the location. -/
structure IsPlain (t : FileTree) (location : Location) : Prop where
  not_link : ¬ t.IsLink location
  not_device : t.entry? location ≠ some .nullDevice

/-- The way of a path: `t.Leads followsLast links location pieces last` means that the pieces lead
from the location to the last one, through at most so many links. A link at the end is followed only
with `followsLast`. -/
inductive Leads (t : FileTree) (followsLast : Bool) :
    (links : Nat) → Location → List String → Location → Prop
  | done {links : Nat} {location : Location} : Leads t followsLast links location [] location
  | next {links : Nat} {location next last : Location} {piece : String} {rest : List String} :
      t.descend location piece = .ok next → ¬ t.IsLink next →
      Leads t followsLast links next rest last →
      Leads t followsLast links location (piece :: rest) last
  | stop {links : Nat} {location next : Location} {piece : String} :
      t.descend location piece = .ok next → t.IsLink next → followsLast = false →
      Leads t followsLast links location [piece] next
  | link {links : Nat} {location next last : Location} {piece target : String}
      {rest : List String} :
      t.descend location piece = .ok next → t.entry? next = some (.link target) →
      (rest = [] → followsLast = true) →
      Leads t followsLast links (if Path.isAbsolute target then [] else location)
        (Path.pieces target ++ rest) last →
      Leads t followsLast (links + 1) location (piece :: rest) last

variable {t t' : FileTree} {followsLast : Bool} {location next last : Location} {piece : String}
  {rest pieces before : List String} {links : Nat}

/-! ## One piece -/

/-- A way only goes on from directories. -/
theorem entry?_of_descend (h : t.descend location piece = .ok next) :
    t.entry? location = some .directory := by
  unfold descend at h
  split at h
  · cases h
  · cases h
  · cases h
  · cases h
  · assumption

theorem descend_of_blank (hblank : Path.IsBlank piece) (h : t.descend location piece = .ok next) :
    next = location := by
  have hentry := entry?_of_descend h
  have hstays : piece = "" ∨ piece = "." := hblank
  unfold descend at h
  rw [hentry] at h
  dsimp only at h
  rw [if_pos hstays] at h
  exact (Except.ok.inj h).symm

theorem descend_dot (h : t.entry? location = some .directory) :
    t.descend location "." = .ok location := by
  unfold descend
  rw [h]
  rfl

theorem descend_of_name (hname : Path.IsName piece) (h : t.descend location piece = .ok next) :
    next = location ++ [piece] := by
  have hentry := entry?_of_descend h
  have hblank : ¬ (piece = "" ∨ piece = ".") := hname.not_blank
  unfold descend at h
  rw [hentry] at h
  dsimp only at h
  rw [if_neg hblank, if_neg hname.not_up] at h
  split at h
  · cases h
  · exact (Except.ok.inj h).symm

theorem not_isLink_of_directory (h : t.entry? location = some .directory) :
    ¬ t.IsLink location := by
  rintro ⟨target, htarget⟩
  rw [h] at htarget
  cases htarget

/-! ## Walks and ways -/

section

variable {follow : Location → List String → Except SystemError Location}

theorem descendAll_next (h : t.descend location piece = .ok next) (hnext : ¬ t.IsLink next) :
    t.descendAll followsLast follow location (piece :: rest) =
      t.descendAll followsLast follow next rest := by
  rw [descendAll, h]
  dsimp only
  split
  · rename_i target hlink
    exact absurd ⟨target, hlink⟩ hnext
  · rfl

theorem descendAll_link {target : String} (h : t.descend location piece = .ok next)
    (hlink : t.entry? next = some (.link target)) :
    t.descendAll followsLast follow location (piece :: rest) =
      if rest = [] && !followsLast then .ok next
      else
        follow (if Path.isAbsolute target then [] else location) (Path.pieces target ++ rest) := by
  rw [descendAll, h]
  dsimp only
  rw [hlink]

/-- Pieces that are walked through make up a way, if what follows a link does. -/
theorem leads_of_descendAll
    (hfollow : ∀ {piece target rest location next}, t.descend location piece = .ok next →
      t.entry? next = some (.link target) → (rest = [] → followsLast = true) →
      follow (if Path.isAbsolute target then [] else location) (Path.pieces target ++ rest) =
        .ok last → Leads t followsLast links location (piece :: rest) last)
    (h : t.descendAll followsLast follow location pieces = .ok last) :
    Leads t followsLast links location pieces last := by
  induction pieces generalizing location with
  | nil => exact Except.ok.inj h ▸ .done
  | cons piece rest ih =>
    cases hstep : t.descend location piece with
    | error e =>
      rw [descendAll, hstep] at h
      cases h
    | ok next =>
      by_cases hlink : t.IsLink next
      · obtain ⟨target, htarget⟩ := hlink
        rw [descendAll_link hstep htarget] at h
        split at h
        · rename_i hend
          obtain ⟨rfl, hstops⟩ : rest = [] ∧ followsLast = false := by simpa using hend
          exact Except.ok.inj h ▸ .stop hstep ⟨target, htarget⟩ hstops
        · rename_i hgoes
          refine hfollow hstep htarget (fun hrest => ?_) h
          simpa [hrest] using hgoes
      · rw [descendAll_next hstep hlink] at h
        exact .next hstep hlink (ih h)

end

/-- A walk arrives just where its way leads. -/
theorem walk_eq_ok :
    t.walk followsLast links location pieces = .ok last ↔
      Leads t followsLast links location pieces last := by
  constructor
  · intro h
    induction links generalizing location pieces last with
    | zero =>
      refine leads_of_descendAll (fun _ _ _ hloop => ?_) h
      cases hloop
    | succ links ih =>
      exact leads_of_descendAll (fun hstep htarget hends h => .link hstep htarget hends (ih h)) h
  · intro h
    induction h with
    | done => cases ‹Nat› <;> rfl
    | @next links location next last piece rest hstep hlink _ ih =>
      rw [← ih]
      cases links <;> exact descendAll_next hstep hlink
    | @stop links location next piece hstep hlink hstops =>
      obtain ⟨target, htarget⟩ := hlink
      have hend : (decide (([] : List String) = []) && !followsLast) = true := by simp [hstops]
      cases links <;> exact (descendAll_link hstep htarget).trans (if_pos hend)
    | @link links location next last piece target rest hstep htarget hends _ ih =>
      have hgoes : ¬ (decide (rest = []) && !followsLast) = true := by
        simpa using hends
      exact (descendAll_link hstep htarget).trans ((if_neg hgoes).trans ih)

/-- A way leads to one location. -/
theorem Leads.eq (h : Leads t followsLast links location pieces last)
    (h' : Leads t followsLast links location pieces next) : last = next := by
  rw [← walk_eq_ok] at h h'
  rw [h] at h'
  exact Except.ok.inj h'

/-- Where the pieces of a path start. -/
def startOf (t : FileTree) (path : String) : Location :=
  if Path.isAbsolute path then [] else t.workingDirectory

/-- Where a path leads that no system refuses. -/
theorem locate_eq_ok {path : String} : t.locate path = .ok last ↔
    refusal? path = none ∧
      Leads t true linkLimit (t.startOf path) (Path.pieces path) last := by
  unfold locate locatePieces
  cases hrefusal : refusal? path with
  | some e => simp
  | none => exact walk_eq_ok.trans (and_iff_right rfl).symm

/-! ## Blank pieces -/

/-- A blank piece before another one may be left out. -/
theorem Leads.skip (h : Leads t followsLast links location pieces last)
    (hblank : Path.IsBlank piece) (hrest : rest ≠ []) (hpieces : pieces = before ++ piece :: rest) :
    Leads t followsLast links location (before ++ rest) last := by
  induction h generalizing before with
  | done => simp at hpieces
  | @next links location next last first others hstep hlink hways ih =>
    cases before with
    | nil =>
      obtain ⟨rfl, rfl⟩ := List.cons.inj hpieces
      exact descend_of_blank hblank hstep ▸ hways
    | cons first' before =>
      rw [List.cons_append, List.cons.injEq] at hpieces
      obtain ⟨rfl, rfl⟩ := hpieces
      exact .next hstep hlink (ih rfl)
  | stop =>
    have hlength := congrArg List.length hpieces
    have hpos := List.length_pos_iff.2 hrest
    simp at hlength
    omega
  | @link links location next last first target others hstep htarget hends hways ih =>
    cases before with
    | nil =>
      obtain ⟨rfl, rfl⟩ := List.cons.inj hpieces
      -- A blank piece stays at a directory, which is no link.
      obtain rfl := descend_of_blank hblank hstep
      exact absurd ⟨target, htarget⟩ (not_isLink_of_directory (entry?_of_descend hstep))
    | cons first' before =>
      rw [List.cons_append, List.cons.injEq] at hpieces
      obtain ⟨rfl, rfl⟩ := hpieces
      have hways := ih (List.append_assoc _ _ _).symm
      rw [List.append_assoc] at hways
      refine .link hstep htarget (fun hnone => ?_) hways
      exact absurd (List.append_eq_nil_iff.1 hnone).2 hrest

/-- So may any number of them. -/
theorem Leads.skipAll {blanks : List String} (hblanks : ∀ piece ∈ blanks, Path.IsBlank piece)
    (hrest : rest ≠ [])
    (h : Leads t followsLast links location (before ++ (blanks ++ rest)) last) :
    Leads t followsLast links location (before ++ rest) last := by
  induction blanks with
  | nil => exact h
  | cons piece blanks ih =>
    refine ih (fun p hp => hblanks p (List.mem_cons_of_mem _ hp)) ?_
    exact h.skip (hblanks piece List.mem_cons_self) (by simp [hrest]) rfl

/-- With a blank piece at the end a way leads to a directory. -/
theorem Leads.entry?_of_blank (h : Leads t followsLast links location pieces last)
    (hblank : Path.IsBlank piece) (hpieces : pieces = before ++ [piece]) :
    t.entry? last = some .directory := by
  induction h generalizing before with
  | done => simp at hpieces
  | @next links location next last first others hstep hlink hways ih =>
    cases before with
    | nil =>
      obtain ⟨rfl, rfl⟩ := List.cons.inj hpieces
      cases hways
      exact descend_of_blank hblank hstep ▸ entry?_of_descend hstep
    | cons first' before => exact ih (List.cons.inj hpieces).2
  | @stop links location next first hstep hlink hstops =>
    cases before with
    | nil =>
      obtain ⟨rfl, -⟩ := List.cons.inj hpieces
      exact descend_of_blank hblank hstep ▸ entry?_of_descend hstep
    | cons first' before => simp at hpieces
  | @link links location next last first target others hstep htarget hends hways ih =>
    cases before with
    | nil =>
      obtain ⟨rfl, rfl⟩ := List.cons.inj hpieces
      obtain rfl := descend_of_blank hblank hstep
      exact absurd ⟨target, htarget⟩ (not_isLink_of_directory (entry?_of_descend hstep))
    | cons first' before =>
      rw [List.cons_append, List.cons.injEq] at hpieces
      obtain ⟨rfl, rfl⟩ := hpieces
      exact ih (List.append_assoc _ _ _).symm

/-! ## The last name -/

/-- A name at the end is a name in the directory before it, unless it is the name of a link. -/
theorem Leads.of_name (h : Leads t followsLast links location pieces last)
    (hname : Path.IsName piece) (hpieces : pieces = before ++ [piece]) :
    ∃ around, Leads t followsLast links location (before ++ ["."]) around ∧
      (¬ t.IsLink (around ++ [piece]) → last = around ++ [piece]) := by
  induction h generalizing before with
  | done => simp at hpieces
  | @next links location next last first others hstep hlink hways ih =>
    cases before with
    | nil =>
      obtain ⟨rfl, rfl⟩ := List.cons.inj hpieces
      cases hways
      have hentry := entry?_of_descend hstep
      exact ⟨location, .next (descend_dot hentry) (not_isLink_of_directory hentry) .done,
        fun _ => descend_of_name hname hstep⟩
    | cons first' before =>
      rw [List.cons_append, List.cons.injEq] at hpieces
      obtain ⟨rfl, rfl⟩ := hpieces
      obtain ⟨around, hways, hlast⟩ := ih rfl
      exact ⟨around, .next hstep hlink hways, hlast⟩
  | @stop links location next first hstep hlink hstops =>
    cases before with
    | nil =>
      obtain ⟨rfl, -⟩ := List.cons.inj hpieces
      have hentry := entry?_of_descend hstep
      exact ⟨location, .next (descend_dot hentry) (not_isLink_of_directory hentry) .done,
        fun _ => descend_of_name hname hstep⟩
    | cons first' before => simp at hpieces
  | @link links location next last first target others hstep htarget hends hways ih =>
    cases before with
    | nil =>
      obtain ⟨rfl, rfl⟩ := List.cons.inj hpieces
      have hentry := entry?_of_descend hstep
      obtain rfl := descend_of_name hname hstep
      exact ⟨location, .next (descend_dot hentry) (not_isLink_of_directory hentry) .done,
        fun hnot => absurd ⟨target, htarget⟩ hnot⟩
    | cons first' before =>
      rw [List.cons_append, List.cons.injEq] at hpieces
      obtain ⟨rfl, rfl⟩ := hpieces
      obtain ⟨around, hways, hlast⟩ := ih (List.append_assoc _ _ _).symm
      rw [List.append_assoc] at hways
      refine ⟨around, .link hstep htarget (fun hnone => ?_) hways, hlast⟩
      simp at hnone

/-- Where links at the end are followed, a way does not end at one. -/
theorem Leads.not_isLink (h : Leads t true links location pieces last) (hpieces : pieces ≠ []) :
    ¬ t.IsLink last := by
  induction h with
  | done => exact absurd rfl hpieces
  | @next links location next last first others hstep hlink hways ih =>
    cases others with
    | nil =>
      cases hways
      exact hlink
    | cons => exact ih (List.cons_ne_nil _ _)
  | stop _ _ hstops => cases hstops
  | @link links location next last first target others _ _ _ _ ih =>
    refine ih fun hnone => ?_
    exact Path.pieces_ne_nil target (List.append_eq_nil_iff.1 hnone).1

/-! ## Trees that keep ways -/

/-- The directories, links and devices of `t` are in `t'`, which has nothing but directories and
files besides. -/
structure KeepsWays (t t' : FileTree) : Prop where
  workingDirectory : t'.workingDirectory = t.workingDirectory
  kept : ∀ {location entry}, t.entry? location = some entry →
    (∀ content executable, entry ≠ .file content executable) → t'.entry? location = some entry
  plain : ∀ {location}, t.IsPlain location → t'.IsPlain location

namespace KeepsWays

theorem refl (t : FileTree) : t.KeepsWays t :=
  ⟨rfl, fun h _ => h, fun h => h⟩

theorem trans {t'' : FileTree} (h : t.KeepsWays t') (h' : t'.KeepsWays t'') : t.KeepsWays t'' :=
  ⟨h'.workingDirectory.trans h.workingDirectory, fun he hfile => h'.kept (h.kept he hfile) hfile,
    fun hplain => h'.plain (h.plain hplain)⟩

variable (h : t.KeepsWays t')
include h

theorem directory (hentry : t.entry? location = some .directory) :
    t'.entry? location = some .directory :=
  h.kept hentry (by simp)

theorem link {target : String} (hentry : t.entry? location = some (.link target)) :
    t'.entry? location = some (.link target) :=
  h.kept hentry (by simp)

theorem not_isLink (hnot : ¬ t.IsLink location) : ¬ t'.IsLink location := by
  by_cases hdevice : t.entry? location = some .nullDevice
  · rintro ⟨target, htarget⟩
    rw [h.kept hdevice (by simp)] at htarget
    cases htarget
  · exact (h.plain ⟨hnot, hdevice⟩).not_link

theorem descend (hstep : t.descend location piece = .ok next) :
    t'.descend location piece = .ok next := by
  have hentry := entry?_of_descend hstep
  unfold FileTree.descend at hstep ⊢
  rw [hentry] at hstep
  rw [h.directory hentry]
  exact hstep

/-- **What leads somewhere leads there still.** -/
theorem leads (hways : Leads t followsLast links location pieces last) :
    Leads t' followsLast links location pieces last := by
  induction hways with
  | done => exact .done
  | next hstep hlink _ ih => exact .next (h.descend hstep) (h.not_isLink hlink) ih
  | stop hstep hlink hstops =>
    obtain ⟨target, htarget⟩ := hlink
    exact .stop (h.descend hstep) ⟨target, h.link htarget⟩ hstops
  | link hstep htarget hends _ ih => exact .link (h.descend hstep) (h.link htarget) hends ih

theorem locate {path : String} (hlocate : t.locate path = .ok location) :
    t'.locate path = .ok location := by
  obtain ⟨hrefusal, hways⟩ := locate_eq_ok.1 hlocate
  refine locate_eq_ok.2 ⟨hrefusal, ?_⟩
  unfold startOf at hways ⊢
  rw [h.workingDirectory]
  exact h.leads hways

end KeepsWays

end SchemaGraph.FileTree
