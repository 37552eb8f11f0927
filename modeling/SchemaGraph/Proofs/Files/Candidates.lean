import SchemaGraph.Proofs.Files.Opening
/-!
# Which candidate is loaded

A name is loaded from the first candidate that is a file (`loadFirst_of_first`). That is the first
one that can be read, unless a file that cannot be read stands before it: the lookup ends there,
with the error of that file.
-/

namespace SchemaGraph

/-- The first element of a list that has a property. -/
inductive FirstWith {α : Type} (p : α → Prop) : List α → α → Prop
  | here {x : α} {xs : List α} : p x → FirstWith p (x :: xs) x
  | there {x y : α} {xs : List α} : ¬ p y → FirstWith p xs x → FirstWith p (y :: xs) x

namespace FirstWith

variable {α : Type} {p q : α → Prop} {xs : List α} {x y : α}

theorem holds (h : FirstWith p xs x) : p x := by
  induction h with
  | here hx => exact hx
  | there _ _ ih => exact ih

theorem mem (h : FirstWith p xs x) : x ∈ xs := by
  induction h with
  | here _ => exact List.mem_cons_self
  | there _ _ ih => exact List.mem_cons_of_mem _ ih

theorem unique (hx : FirstWith p xs x) (hy : FirstWith p xs y) : x = y := by
  induction hx with
  | here hx =>
    cases hy with
    | here _ => rfl
    | there hnot _ => exact absurd hx hnot
  | there hnot _ ih =>
    cases hy with
    | here hy => exact absurd hy hnot
    | there _ hy => exact ih hy

/-- A list has a first element with the property, or none at all. -/
theorem exists_or_forall_not (p : α → Prop) (xs : List α) :
    (∃ x, FirstWith p xs x) ∨ ∀ x ∈ xs, ¬ p x := by
  induction xs with
  | nil => exact .inr nofun
  | cons x xs ih =>
    by_cases hx : p x
    · exact .inl ⟨x, .here hx⟩
    · rcases ih with ⟨y, hy⟩ | hnone
      · exact .inl ⟨y, .there hx hy⟩
      · exact .inr (List.forall_mem_cons.2 ⟨hx, hnone⟩)

/-- The first element with a property is also the first one with a stronger property, if it has
that one. -/
theorem strengthen (h : FirstWith p xs x) (hx : q x) (hqp : ∀ y, q y → p y) :
    FirstWith q xs x := by
  induction h with
  | here _ => exact .here hx
  | there hnot _ ih => exact .there (fun hy => hnot (hqp _ hy)) (ih hx)

end FirstWith

namespace FileTree

/-- The path leads to a file that is read as the text. -/
def Reads (t : FileTree) (path text : String) : Prop :=
  t.isFile path ∧ t.readText path = .ok text

/-- The path leads to a file that can be read as a text. -/
def Readable (t : FileTree) (path : String) : Prop :=
  ∃ text, t.Reads path text

theorem Readable.isFile {t : FileTree} {path : String} (h : t.Readable path) : t.isFile path := by
  obtain ⟨_, hfile, -⟩ := h
  exact hfile

end FileTree

namespace ImportLookup

variable {lookup : ImportLookup} {t : FileTree} {name path text : String} {paths : List String}

/-- The name that is looked up for a name. -/
def mapped (lookup : ImportLookup) (name : String) : String :=
  (lookup.mapping.get? name).getD name

/-- The paths at which a name is looked up once it is mapped, in their order. -/
def places (lookup : ImportLookup) (name : String) : List String :=
  lookup.candidates (lookup.mapped name)

/-- The name is not mapped to a schema text. -/
def NamesFiles (lookup : ImportLookup) (name : String) : Prop :=
  ∀ value, lookup.mapping.get? name = some value → isInlineText value = false

/-- The first candidate that is a file cannot be read, although another one can. -/
def Obstructed (lookup : ImportLookup) (t : FileTree) (name : String) : Prop :=
  ∃ path, FirstWith (fun path => t.isFile path) (lookup.places name) path ∧ ¬ t.Readable path ∧
    ∃ other ∈ lookup.places name, t.Readable other

/-- The candidates are over at the first one that is a file. -/
theorem loadFirst_of_first (h : FirstWith (fun path => t.isFile path) paths path) :
    loadFirst t name paths = (t.readText path).mapError fun e => ⟨.unreadable e, path⟩ := by
  induction h with
  | @here path paths hfile =>
    rw [loadFirst, if_pos hfile]
    cases t.readText path <;> rfl
  | there hfile _ ih => rw [loadFirst, if_neg hfile, ih]

theorem load_eq_loadFirst (h : lookup.NamesFiles name) :
    lookup.load t name = loadFirst t (lookup.mapped name) (lookup.places name) := by
  unfold load
  refine if_neg fun ⟨hmapped, hinline⟩ => ?_
  obtain ⟨value, hvalue⟩ := Option.isSome_iff_exists.1 hmapped
  rw [hvalue, Option.getD_some, h value hvalue] at hinline
  cases hinline

/-- What is loaded is the text of the first candidate that is a file. -/
theorem load_eq_ok_iff (h : lookup.NamesFiles name) :
    lookup.load t name = .ok text ↔
      ∃ path, FirstWith (fun path => t.isFile path) (lookup.places name) path ∧
        t.readText path = .ok text := by
  rw [load_eq_loadFirst h]
  constructor
  · intro hload
    rcases FirstWith.exists_or_forall_not (fun path => t.isFile path) (lookup.places name) with
      ⟨path, hpath⟩ | hnone
    · refine ⟨path, hpath, ?_⟩
      rw [loadFirst_of_first hpath] at hload
      cases hread : t.readText path with
      | error e => rw [hread] at hload; cases hload
      | ok read => rw [hread] at hload; cases hload; rfl
    · rw [loadFirst_of_not_isFile fun path hpath => Bool.eq_false_iff.2 (hnone path hpath)] at hload
      cases hload
  · rintro ⟨path, hpath, hread⟩
    rw [loadFirst_of_first hpath, hread]
    rfl

/-- Nothing is loaded where no candidate is a file, or where the first one that is cannot be
read. -/
theorem load_eq_error_iff (h : lookup.NamesFiles name) {e : FileError} :
    lookup.load t name = .error e ↔
      (∀ path ∈ lookup.places name, ¬ t.isFile path) ∧ e = ⟨.noCandidate, lookup.mapped name⟩ ∨
      ∃ path cause, FirstWith (fun path => t.isFile path) (lookup.places name) path ∧
        t.readText path = .error cause ∧ e = ⟨.unreadable cause, path⟩ := by
  rw [load_eq_loadFirst h]
  rcases FirstWith.exists_or_forall_not (fun path => t.isFile path) (lookup.places name) with
    ⟨path, hpath⟩ | hnone
  · rw [loadFirst_of_first hpath]
    constructor
    · intro hload
      cases hread : t.readText path with
      | error cause =>
        rw [hread] at hload
        exact .inr ⟨path, cause, hpath, hread, (Except.error.inj hload).symm⟩
      | ok read => rw [hread] at hload; cases hload
    · rintro (⟨hnone, -⟩ | ⟨path', cause, hpath', hread, rfl⟩)
      · exact absurd hpath.holds (hnone path hpath.mem)
      · rw [hpath.unique hpath', hread]
        rfl
  · rw [loadFirst_of_not_isFile fun path hpath => Bool.eq_false_iff.2 (hnone path hpath)]
    constructor
    · intro hload
      exact .inl ⟨hnone, (Except.error.inj hload).symm⟩
    · rintro (⟨-, rfl⟩ | ⟨path, _, hpath, -⟩)
      · rfl
      · exact absurd hpath.holds (hnone path hpath.mem)

/-- Unless a file obstructs the lookup, the first candidate that can be read is loaded. -/
theorem load_iff_of_not_obstructed (h : lookup.NamesFiles name)
    (hfree : ¬ lookup.Obstructed t name) :
    lookup.load t name = .ok text ↔
      ∃ path, FirstWith t.Readable (lookup.places name) path ∧ t.Reads path text := by
  rw [load_eq_ok_iff h]
  constructor
  · rintro ⟨path, hpath, hread⟩
    have hreads : t.Reads path text := ⟨hpath.holds, hread⟩
    exact ⟨path, hpath.strengthen ⟨text, hreads⟩ fun _ => FileTree.Readable.isFile, hreads⟩
  · rintro ⟨path, hpath, hreads⟩
    rcases FirstWith.exists_or_forall_not (fun path => t.isFile path) (lookup.places name) with
      ⟨path', hpath'⟩ | hnone
    · by_cases hreadable : t.Readable path'
      · rw [hpath.unique (hpath'.strengthen hreadable fun _ => FileTree.Readable.isFile)] at hreads
        exact ⟨path', hpath', hreads.2⟩
      · exact absurd ⟨path', hpath', hreadable, path, hpath.mem, hpath.holds⟩ hfree
    · exact absurd hpath.holds.isFile (hnone path hpath.mem)

/-- **A name is loaded from the first candidate that is a file.** The lookup fails where there is
none, and where that file cannot be read. So it gives the content of the first candidate that can be
read exactly where no file obstructs it. -/
theorem load_first_file (h : lookup.NamesFiles name) :
    (∀ text, lookup.load t name = .ok text ↔
      ∃ path, FirstWith (fun path => t.isFile path) (lookup.places name) path ∧
        t.readText path = .ok text) ∧
    (∀ e, lookup.load t name = .error e ↔
      (∀ path ∈ lookup.places name, ¬ t.isFile path) ∧ e = ⟨.noCandidate, lookup.mapped name⟩ ∨
      ∃ path cause, FirstWith (fun path => t.isFile path) (lookup.places name) path ∧
        t.readText path = .error cause ∧ e = ⟨.unreadable cause, path⟩) ∧
    ((∀ text, lookup.load t name = .ok text ↔
      ∃ path, FirstWith t.Readable (lookup.places name) path ∧ t.Reads path text) ↔
        ¬ lookup.Obstructed t name) := by
  refine ⟨fun text => load_eq_ok_iff h, fun e => load_eq_error_iff h, fun hfirst => ?_,
    fun hfree text => load_iff_of_not_obstructed h hfree⟩
  rintro ⟨path, hpath, hunreadable, other, hother, hreadable⟩
  -- The first candidate that can be read would have to be loaded, but the lookup ends before it.
  rcases FirstWith.exists_or_forall_not t.Readable (lookup.places name) with
    ⟨first, hfirst'⟩ | hnone
  · obtain ⟨text, hreads⟩ := hfirst'.holds
    obtain ⟨path', hpath', hread⟩ := (load_eq_ok_iff h).1 ((hfirst text).2 ⟨first, hfirst', hreads⟩)
    rw [hpath.unique hpath'] at hunreadable
    exact hunreadable ⟨text, hpath'.holds, hread⟩
  · exact hnone other hother hreadable

/-- Imports that are looked up under `r`, then in the working directory. -/
def besideRoot : ImportLookup where
  rootDirectory := "r"
  importPaths := []
  mapping := .empty

/-- A file, and a directory of its name under `r`. -/
def directoryBefore : FileTree where
  entries := .ofList
    [(["a.proto"], .file (.text "message A\x7b\x7d") false), (["r"], .directory),
      (["r", "a.proto"], .directory)]
  workingDirectory := []

/-- The directory is passed over. -/
theorem load_directoryBefore :
    besideRoot.NamesFiles "a.proto" ∧ ¬ besideRoot.Obstructed directoryBefore "a.proto" ∧
      besideRoot.load directoryBefore "a.proto" = .ok "message A\x7b\x7d" := by
  have hnames : besideRoot.NamesFiles "a.proto" := nofun
  have hplaces : besideRoot.places "a.proto" = ["r/a.proto", "a.proto"] := by decide +kernel
  have hdirectory : ¬ directoryBefore.isFile "r/a.proto" := by decide +kernel
  have hreads : directoryBefore.Reads "a.proto" "message A\x7b\x7d" :=
    ⟨by decide +kernel, by decide +kernel⟩
  have hfirst : FirstWith (fun path => directoryBefore.isFile path)
      (besideRoot.places "a.proto") "a.proto" := hplaces ▸ .there hdirectory (.here hreads.1)
  have hfree : ¬ besideRoot.Obstructed directoryBefore "a.proto" := by
    rintro ⟨path, hpath, hunreadable, -⟩
    rw [← hfirst.unique hpath] at hunreadable
    exact hunreadable ⟨_, hreads⟩
  refine ⟨hnames, hfree, ((load_first_file hnames).2.2.2 hfree _).2 ⟨"a.proto", ?_, hreads⟩⟩
  exact hfirst.strengthen ⟨_, hreads⟩ fun _ => FileTree.Readable.isFile

/-- A file, and bytes that are no text in a file of its name under `r`. -/
def bytesBefore : FileTree where
  entries := .ofList
    [(["a.proto"], .file (.text "message A\x7b\x7d") false), (["r"], .directory),
      (["r", "a.proto"], .file (.binary [0xff]) false)]
  workingDirectory := []

/-- The second candidate is the first one that can be read, and nothing is loaded. -/
theorem load_bytesBefore :
    besideRoot.NamesFiles "a.proto" ∧
      FirstWith bytesBefore.Readable (besideRoot.places "a.proto") "a.proto" ∧
      bytesBefore.Reads "a.proto" "message A\x7b\x7d" ∧
      besideRoot.load bytesBefore "a.proto" = .error ⟨.unreadable .notText, "r/a.proto"⟩ := by
  have hplaces : besideRoot.places "a.proto" = ["r/a.proto", "a.proto"] := by decide +kernel
  have hbytes : bytesBefore.readText "r/a.proto" = .error .notText := by decide +kernel
  have hreads : bytesBefore.Reads "a.proto" "message A\x7b\x7d" :=
    ⟨by decide +kernel, by decide +kernel⟩
  have hunreadable : ¬ bytesBefore.Readable "r/a.proto" := by
    rintro ⟨text, -, hread⟩
    rw [hbytes] at hread
    cases hread
  exact ⟨nofun, hplaces ▸ .there hunreadable (.here ⟨_, hreads⟩), hreads,
    by decide +kernel⟩

end ImportLookup
end SchemaGraph
