import SchemaGraph.Batch
import SchemaGraph.Proofs.Files.Ways
/-!
# Writing documents

Creating directories only adds to a file tree (`FileTree.Adds`), and writing a text changes the one
entry that its path leads to (`writeText_eq_ok`). Neither makes a path lead elsewhere. So a document
that has been written is found at its path, and every other entry is as before
(`writeDocument_eq_ok`). Drawing its images changes what the drawing program changes:
`SparesDocuments` says that no documents are among it.
-/

namespace SchemaGraph.FileTree

variable {t t' t'' : FileTree} {location : Location} {entry : FileEntry} {path text : String}

/-! ## Putting an entry -/

theorem entry?_put (hne : location ≠ []) (entry : FileEntry) (location' : Location) :
    entry? (t.put location entry) location' =
      if location' = location then some entry else t.entry? location' := by
  unfold entry? put
  rw [Table.get?_insert]
  by_cases hnil : location' = []
  · rw [if_pos hnil, if_pos hnil, if_neg]
    exact fun heq => hne (heq.symm.trans hnil)
  · rw [if_neg hnil, if_neg hnil]

/-- There is nothing at the location, or a file. -/
def IsFree (t : FileTree) (location : Location) : Prop :=
  ∀ entry, t.entry? location = some entry → ∃ content executable, entry = .file content executable

theorem IsFree.ne_nil (h : t.IsFree location) : location ≠ [] := by
  rintro rfl
  obtain ⟨content, executable, hfile⟩ := h .directory rfl
  cases hfile

/-- A directory or a file in a free place is in no way. -/
theorem keepsWays_put (h : t.IsFree location)
    (hentry : entry = .directory ∨ ∃ content executable, entry = .file content executable) :
    t.KeepsWays (t.put location entry) := by
  refine ⟨rfl, fun {location' entry'} hold hspecial => ?_, fun {location'} hplain => ?_⟩
  · rw [entry?_put h.ne_nil, if_neg, hold]
    rintro rfl
    obtain ⟨content, executable, rfl⟩ := h _ hold
    exact hspecial content executable rfl
  · by_cases heq : location' = location
    · constructor
      · rintro ⟨target, htarget⟩
        rw [entry?_put h.ne_nil, if_pos heq] at htarget
        rcases hentry with rfl | ⟨content, executable, rfl⟩ <;> cases htarget
      · rw [entry?_put h.ne_nil, if_pos heq]
        rcases hentry with rfl | ⟨content, executable, rfl⟩ <;> simp
    · constructor
      · rintro ⟨target, htarget⟩
        rw [entry?_put h.ne_nil, if_neg heq] at htarget
        exact hplain.not_link ⟨target, htarget⟩
      · rw [entry?_put h.ne_nil, if_neg heq]
        exact hplain.not_device

/-! ## Creating directories -/

/-- `t'` has all entries of `t`, and leads wherever `t` leads. -/
structure Adds (t t' : FileTree) : Prop extends KeepsWays t t' where
  entry : ∀ {location entry}, t.entry? location = some entry → t'.entry? location = some entry

theorem Adds.refl (t : FileTree) : t.Adds t :=
  ⟨.refl t, fun h => h⟩

theorem Adds.trans (h : t.Adds t') (h' : t'.Adds t'') : t.Adds t'' :=
  ⟨h.toKeepsWays.trans h'.toKeepsWays, fun he => h'.entry (h.entry he)⟩

theorem adds_of_createDirectory (h : t.createDirectory path = .ok t') : t.Adds t' := by
  unfold createDirectory at h
  split at h
  · cases h
  · rename_i location _
    split at h
    · cases h
    · rename_i hnone
      cases h
      have hfree : t.IsFree location := fun entry hentry => by
        rw [hnone] at hentry
        cases hentry
      refine ⟨keepsWays_put hfree (.inl rfl), fun {location' entry'} hold => ?_⟩
      rw [entry?_put hfree.ne_nil, if_neg, hold]
      rintro rfl
      rw [hnone] at hold
      cases hold

theorem adds_ensureDirectory (t : FileTree) (path : String) :
    t.Adds (t.ensureDirectory path).2 := by
  unfold ensureDirectory
  split
  · rename_i t' h
    exact adds_of_createDirectory h
  · exact .refl t

theorem adds_createWithin (depth : Nat) (t : FileTree) (path : String) :
    t.Adds (createWithin depth t path).2 := by
  induction depth generalizing t path with
  | zero => exact adds_ensureDirectory t path
  | succ depth ih =>
    rw [createWithin]
    split
    · exact .refl t
    · split
      · rename_i parent _ _
        have haround := ih t parent
        split
        · rename_i heq
          rw [heq] at haround
          exact haround
        · rename_i t' heq
          rw [heq] at haround
          exact haround.trans (adds_ensureDirectory t' path)
      · exact adds_ensureDirectory t path

theorem adds_createDirectories (t : FileTree) (path : String) :
    t.Adds (t.createDirectories path).2 :=
  adds_createWithin _ t path

/-! ## Writing texts -/

/-- `t'` is `t` with the text written at the location, if there is no device that keeps nothing. -/
structure Writes (t t' : FileTree) (location : Location) (text : String) : Prop extends
    KeepsWays t t' where
  others : ∀ {location' entry}, location' ≠ location → t.entry? location' = some entry →
    t'.entry? location' = some entry
  written : t.IsPlain location → ∃ executable,
    t'.entry? location = some (.file (.text text) executable)

theorem Writes.of_adds (h : t.Adds t') (h' : Writes t' t'' location text) :
    Writes t t'' location text :=
  ⟨h.toKeepsWays.trans h'.toKeepsWays, fun hne he => h'.others hne (h.entry he),
    fun hplain => h'.written (h.plain hplain)⟩

theorem writes_put (h : t.IsFree location) (executable : Bool) :
    Writes t (t.put location (.file (.text text) executable)) location text := by
  refine ⟨keepsWays_put h (.inr ⟨_, _, rfl⟩), fun {location' entry} hne hold => ?_,
    fun _ => ⟨executable, ?_⟩⟩
  · rw [entry?_put h.ne_nil, if_neg hne, hold]
  · rw [entry?_put h.ne_nil, if_pos rfl]

/-- Writing a text changes what its path leads to, and nothing else. -/
theorem writeText_eq_ok (h : t.writeText path text = .ok t') :
    ∃ location, t.locate path = .ok location ∧ Writes t t' location text := by
  unfold writeText at h
  split at h
  · cases h
  · rename_i location hlocate
    unfold locateFile at hlocate
    split at hlocate
    · split at hlocate <;> cases hlocate
    · refine ⟨location, hlocate, ?_⟩
      unfold writeAt at h
      split at h
      · cases h
      · rename_i content executable hentry
        cases h
        refine writes_put (fun entry hold => ?_) executable
        rw [hentry] at hold
        exact ⟨content, executable, (Option.some.inj hold).symm⟩
      · rename_i hdevice
        cases h
        exact ⟨.refl t, fun _ he => he, fun hplain => absurd hdevice hplain.not_device⟩
      · rename_i target hlink
        -- A path is followed to where no link is.
        obtain ⟨-, hways⟩ := locate_eq_ok.1 hlocate
        exact absurd ⟨target, hlink⟩ (hways.not_isLink (Path.pieces_ne_nil path))
      · rename_i hnone
        cases h
        refine writes_put (fun entry hold => ?_) false
        rw [hnone] at hold
        cases hold

/-! ## Writing documents -/

theorem writeDocument_eq_ok (h : t.writeDocument path text = (.ok (), t')) :
    ∃ location, t'.locate path = .ok location ∧ Writes t t' location text := by
  unfold writeDocument at h
  have hadds := adds_createDirectories t ((Path.parent? path).getD "")
  split at h
  · cases h
  · rename_i t₁ hcreated
    rw [hcreated] at hadds
    split at h
    · cases h
    · rename_i t₂ hwritten
      obtain rfl := (Prod.mk.inj h).2
      obtain ⟨location, hlocate, hwrites⟩ := writeText_eq_ok hwritten
      exact ⟨location, hwrites.locate hlocate, .of_adds hadds hwrites⟩

/-- A document that is not written leaves at most new directories. -/
theorem adds_of_writeDocument {e : SystemError} (h : t.writeDocument path text = (.error e, t')) :
    t.Adds t' := by
  unfold writeDocument at h
  have hadds := adds_createDirectories t ((Path.parent? path).getD "")
  split at h
  · rename_i hcreated
    rw [hcreated] at hadds
    exact (Prod.mk.inj h).2 ▸ hadds
  · rename_i t₁ hcreated
    rw [hcreated] at hadds
    split at h
    · exact (Prod.mk.inj h).2 ▸ hadds
    · cases h

/-! ## Drawing images -/

/-- A place for documents, by its name. -/
def IsDocument (location : Location) : Prop :=
  ∃ around name, location = around ++ [name] ∧ ".dot".toList <:+ name.toList

/-- `t'` has all documents of `t`, and leads wherever `t` leads. -/
structure KeepsDocuments (t t' : FileTree) : Prop extends KeepsWays t t' where
  document : ∀ {location entry}, IsDocument location → t.entry? location = some entry →
    t'.entry? location = some entry

theorem KeepsDocuments.refl (t : FileTree) : t.KeepsDocuments t :=
  ⟨.refl t, fun _ h => h⟩

theorem KeepsDocuments.trans (h : t.KeepsDocuments t') (h' : t'.KeepsDocuments t'') :
    t.KeepsDocuments t'' :=
  ⟨h.toKeepsWays.trans h'.toKeepsWays, fun hdocument he =>
    h'.document hdocument (h.document hdocument he)⟩

/-- `t'` is `t` with the text written at the location, maybe with images. Other documents are as
before. -/
structure Leaves (t t' : FileTree) (location : Location) (text : String) : Prop extends
    KeepsWays t t' where
  others : ∀ {location' entry}, IsDocument location' → location' ≠ location →
    t.entry? location' = some entry → t'.entry? location' = some entry
  written : IsDocument location → t.IsPlain location → ∃ executable,
    t'.entry? location = some (.file (.text text) executable)

theorem Writes.leaves (h : Writes t t' location text) (h' : t'.KeepsDocuments t'') :
    Leaves t t'' location text := by
  refine ⟨h.toKeepsWays.trans h'.toKeepsWays, fun hdocument hne he =>
    h'.document hdocument (h.others hne he), fun hdocument hplain => ?_⟩
  obtain ⟨executable, hwritten⟩ := h.written hplain
  exact ⟨executable, h'.document hdocument hwritten⟩

/-- The program of this name leaves documents alone when it draws an image. -/
def SparesDocuments [Programs] (command : String) : Prop :=
  ∀ (t : FileTree) (document : String) (format : ImageFormat),
    t.KeepsDocuments (t.draw command document format).2

theorem SparesDocuments.drawAll [Programs] {command : String} (h : SparesDocuments command)
    (t : FileTree) (document : String) (formats : List ImageFormat) :
    t.KeepsDocuments (t.drawAll command document formats).2 := by
  induction formats generalizing t with
  | nil => exact .refl t
  | cons format rest ih =>
    rw [FileTree.drawAll]
    have hdrawn := h t document format
    generalize t.draw command document format = drawn at hdrawn ⊢
    obtain ⟨_ | image, t'⟩ := drawn
    · exact hdrawn
    · exact hdrawn.trans (ih t')

/-! ## Reading documents -/

/-- What is read at a path is what stands where it leads. -/
theorem readText_of_entry? {executable : Bool} (hlocate : t.locate path = .ok location)
    (hentry : t.entry? location = some (.file (.text text) executable)) :
    t.readText path = .ok text := by
  unfold readText readFile stat
  rw [hlocate]
  dsimp only
  rw [hentry]

end SchemaGraph.FileTree
