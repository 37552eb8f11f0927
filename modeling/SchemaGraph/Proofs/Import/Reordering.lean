import SchemaGraph.Proofs.Import.Flags
import SchemaGraph.Proofs.Import.Rejections
import SchemaGraph.Proofs.Registry.Alike
/-!
# Walks that reach the same files

Two walks may reach the same files from other roots, or through other orders of the same import
statements. Then they enter and complete the files in other orders. `Walk.Corresponds` relates such
walks. Where one of them rejects no declaration, neither does the other (`Corresponds.winners`), and
both declare the same (`Corresponds.alike`); the flags of the units are the same in any case
(`Corresponds.flags`).
-/

namespace SchemaGraph

/-- The files differ at most in the order of their import statements, and in what neither declaring
nor building looks at. -/
structure SchemaFile.Reorders (file file' : SchemaFile) : Prop where
  outline : ∀ source, Outline.ofFile (source, file) = Outline.ofFile (source, file')
  imports : (file.imports.map fun s => (s.path, s.modifier)).Perm
    (file'.imports.map fun s => (s.path, s.modifier))

namespace SchemaFile.Reorders

theorem refl (file : SchemaFile) : file.Reorders file :=
  ⟨fun _ => rfl, .refl _⟩

theorem symm {file file' : SchemaFile} (h : file.Reorders file') : file'.Reorders file :=
  ⟨fun source => (h.outline source).symm, h.imports.symm⟩

/-- Files of one package with the same elements, and with the same import statements in any
order. -/
theorem of_elements {file file' : SchemaFile} (hpackage : file.packageName = file'.packageName)
    (helements : file.elements = file'.elements)
    (himports : (file.imports.map fun s => (s.path, s.modifier)).Perm
      (file'.imports.map fun s => (s.path, s.modifier))) : file.Reorders file' := by
  refine ⟨fun source => ?_, himports⟩
  unfold Outline.ofFile
  rw [hpackage, helements]

theorem weaklyNamed_iff {file file' : SchemaFile} (h : file.Reorders file') (path : String) :
    WeaklyNamed file.imports path ↔ WeaklyNamed file'.imports path := by
  have hmem (file : SchemaFile) : WeaklyNamed file.imports path ↔
      (path, ImportModifier.weak) ∈ file.imports.map fun s => (s.path, s.modifier) := by
    unfold WeaklyNamed
    simp only [List.mem_map, Prod.mk.injEq]
    exact exists_congr fun s => and_congr_right fun _ => and_comm
  rw [hmem, hmem, h.imports.mem_iff]

end SchemaFile.Reorders

/-- The declarations of a list are those of its members, in whatever order these are. -/
theorem Outline.declaredIn_eq_flatMap (os : List Outline) :
    declaredIn os = os.flatMap declared := by
  induction os with
  | nil => rfl
  | cons o os ih => rw [declaredIn, List.flatMap_cons, ih]

namespace Walk

/-- The walks reach the same units, and read the same files in them, up to the order of import
statements. -/
structure Corresponds (w w' : Walk) : Prop where
  units : ∀ id, w.units.contains id = w'.units.contains id
  forth : ∀ {source file}, (source, file) ∈ w.files →
    ∃ file', (source, file') ∈ w'.files ∧ file.Reorders file'
  back : ∀ {source file'}, (source, file') ∈ w'.files →
    ∃ file, (source, file) ∈ w.files ∧ file.Reorders file'

variable {w w' : Walk} {entered entered' : List (String × SchemaFile)}

/-! ## Loaders that read the same -/

/-- Under the name the loaders have the same file, up to the order of its import statements, or none
of them has any. -/
structure ReadsAlike (loader loader' : Loader) (name : String) : Prop where
  forth : ∀ {file}, Reads loader name file → ∃ file', Reads loader' name file' ∧ file.Reorders file'
  back : ∀ {file'}, Reads loader' name file' → ∃ file, Reads loader name file ∧ file.Reorders file'

theorem ReadsAlike.symm {loader loader' : Loader} {name : String}
    (h : ReadsAlike loader loader' name) : ReadsAlike loader' loader name := by
  refine ⟨fun hreads => ?_, fun hreads => ?_⟩
  · obtain ⟨file, hreads, hreorders⟩ := h.back hreads
    exact ⟨file, hreads, hreorders.symm⟩
  · obtain ⟨file', hreads, hreorders⟩ := h.forth hreads
    exact ⟨file', hreads, hreorders.symm⟩

theorem ReadsAlike.of_textOf_eq {loader loader' : Loader} {name : String}
    (h : textOf loader name = textOf loader' name) : ReadsAlike loader loader' name := by
  refine ⟨fun ⟨text, htext, hparse⟩ => ?_, fun ⟨text, htext, hparse⟩ => ?_⟩
  · exact ⟨_, ⟨text, h ▸ htext, hparse⟩, .refl _⟩
  · exact ⟨_, ⟨text, h ▸ htext, hparse⟩, .refl _⟩

theorem ReadsAlike.of_reads {loader loader' : Loader} {name : String} {file file' : SchemaFile}
    (h : Reads loader name file) (h' : Reads loader' name file') (hreorders : file.Reorders file') :
    ReadsAlike loader loader' name :=
  ⟨fun hreads => ⟨file', h', h.eq hreads ▸ hreorders⟩,
    fun hreads => ⟨file, h, h'.eq hreads ▸ hreorders⟩⟩

section

variable {loader loader' : Loader} {options : RunOptions} {root root' : String}

/-- A file that one walk has completed is completed by the other one, where both reach its unit. -/
theorem exists_reordered (hrun : run loader options root .empty = (.ok (), w))
    (hrun' : run loader' options root' .empty = (.ok (), w'))
    (hunits : ∀ id, w.units.contains id = w'.units.contains id)
    (hidentifies : ∀ p q, Reach loader root p → Reach loader' root' q →
      unitIdentifier p = unitIdentifier q → p = q)
    (halike : ∀ name, Reach loader root name → ReadsAlike loader loader' name) {source : String}
    {file : SchemaFile} (hfile : (source, file) ∈ w.files) :
    ∃ file', (source, file') ∈ w'.files ∧ file.Reorders file' := by
  have haccounted {loader : Loader} {root : String} {w : Walk}
      (hrun : run loader options root .empty = (.ok (), w)) : Accounted loader options root w :=
    visit_accounted .root hrun ⟨fun hget => (by cases hget), fun hfile => (by cases hfile)⟩
  obtain ⟨name, hname, rfl, hreads⟩ := (haccounted hrun).file hfile
  obtain ⟨file', hreads', hreorders⟩ := (halike name hname).forth hreads
  obtain ⟨entered, htraverses⟩ := run_traverses hrun
  have hunit := (htraverses.fresh _ (htraverses.of_start.1.mem_iff.1 hfile)).2
  rw [hunits] at hunit
  obtain ⟨unit, hget⟩ := Option.isSome_iff_exists.1 hunit
  obtain ⟨name', hname', heq, hunitOf⟩ := (haccounted hrun').unit hget
  rw [← hidentifies name name' hname hname' heq.symm] at hunitOf
  have hmissing : unit.missing = false := by
    rcases hunitOf with ⟨-, -, hmissing, -⟩ | ⟨hnot, -⟩
    · exact hmissing
    · exact absurd hreads'.loads hnot
  -- A unit that is not missing has been completed, with what its name reads.
  have hcompleted : unitIdentifier name ∈ w'.files.map (·.1) := by
    refine ((visit_completes hrun').completed hget hmissing).resolve_left ?_
    rintro ⟨old, hold, -⟩
    cases hold
  obtain ⟨⟨source, file''⟩, hfile'', hsource⟩ := List.mem_map.1 hcompleted
  obtain ⟨name'', hname'', heq'', hreads''⟩ := (haccounted hrun').file hfile''
  rw [← hidentifies name name'' hname hname'' (hsource.symm.trans heq''.symm)] at hreads''
  exact ⟨file', hsource ▸ hreads''.eq hreads' ▸ hfile'', hreorders⟩

/-- Walks that reach the same units correspond if their loaders have the same files. -/
theorem Corresponds.of_loaders (hrun : run loader options root .empty = (.ok (), w))
    (hrun' : run loader' options root' .empty = (.ok (), w'))
    (hunits : ∀ id, w.units.contains id = w'.units.contains id)
    (hidentifies : ∀ p q, Reach loader root p → Reach loader' root' q →
      unitIdentifier p = unitIdentifier q → p = q)
    (halike : ∀ name, Reach loader root name ∨ Reach loader' root' name →
      ReadsAlike loader loader' name) : Corresponds w w' := by
  refine ⟨hunits, fun hfile => exists_reordered hrun hrun' hunits hidentifies
    (fun name hname => halike name (.inl hname)) hfile, fun hfile => ?_⟩
  obtain ⟨file, hfile, hreorders⟩ := exists_reordered hrun' hrun (fun id => (hunits id).symm)
    (fun p q hp hq heq => (hidentifies q p hq hp heq.symm).symm)
    (fun name hname => (halike name (.inr hname)).symm) hfile
  exact ⟨file, hfile, hreorders.symm⟩

end

/-! ## Corresponding walks -/

/-- What is said of a file up to the order of its imports holds of one in both walks. -/
theorem Corresponds.exists_file_iff (h : Corresponds w w') {P : String → SchemaFile → Prop}
    (hP : ∀ {source file file'}, file.Reorders file' → (P source file ↔ P source file')) :
    (∃ file ∈ w.files, P file.1 file.2) ↔ ∃ file ∈ w'.files, P file.1 file.2 := by
  constructor
  · rintro ⟨⟨source, file⟩, hfile, hsaid⟩
    obtain ⟨file', hfile', hreorders⟩ := h.forth hfile
    exact ⟨(source, file'), hfile', (hP hreorders).1 hsaid⟩
  · rintro ⟨⟨source, file'⟩, hfile', hsaid⟩
    obtain ⟨file, hfile, hreorders⟩ := h.back hfile'
    exact ⟨(source, file), hfile, (hP hreorders).2 hsaid⟩

/-! ## Declarations -/

/-- The files have the same outlines, in another order. -/
theorem Corresponds.outlines_perm (h : Corresponds w w')
    (htraverses : Traverses (start .empty) w entered)
    (htraverses' : Traverses (start .empty) w' entered') :
    (entered.flatMap Outline.ofFile).Perm (entered'.flatMap Outline.ofFile) := by
  have hperm := htraverses.of_start.1
  have hperm' := htraverses'.of_start.1
  have hpairs (entered : List (String × SchemaFile)) : entered.flatMap Outline.ofFile =
      (entered.map fun file => (file.1, Outline.ofFile file)).flatMap (·.2) := by
    rw [List.flatMap_map]
  have hnodup {w : Walk} {entered : List (String × SchemaFile)}
      (htraverses : Traverses (start .empty) w entered) :
      (entered.map fun file => (file.1, Outline.ofFile file)).Nodup := by
    refine List.Nodup.of_map (·.1) ?_
    rw [List.map_map]
    exact htraverses.nodup
  rw [hpairs, hpairs entered']
  refine List.Perm.flatMap_right _ ((List.perm_ext_iff_of_nodup (hnodup htraverses)
    (hnodup htraverses')).2 fun pair => ?_)
  simp only [List.mem_map, Prod.exists]
  constructor
  · rintro ⟨source, file, hfile, rfl⟩
    obtain ⟨file', hfile', hreorders⟩ := h.forth (hperm.mem_iff.2 hfile)
    exact ⟨source, file', hperm'.mem_iff.1 hfile', by rw [hreorders.outline]⟩
  · rintro ⟨source, file', hfile', rfl⟩
    obtain ⟨file, hfile, hreorders⟩ := h.back (hperm'.mem_iff.2 hfile')
    exact ⟨source, file, hperm.mem_iff.1 hfile, by rw [hreorders.outline]⟩

/-- Where one walk rejects nothing, neither does the other, and both have the same winners. -/
theorem Corresponds.winners (h : Corresponds w w')
    (htraverses : Traverses (start .empty) w entered)
    (htraverses' : Traverses (start .empty) w' entered')
    (hlost : Outline.lostIn (entered.flatMap Outline.ofFile) [] = []) :
    Outline.lostIn (entered'.flatMap Outline.ofFile) [] = [] ∧
      (Winner.ofFiles entered).Perm (Winner.ofFiles entered') := by
  have hdeclared : (Outline.declaredIn (entered.flatMap Outline.ofFile)).Perm
      (Outline.declaredIn (entered'.flatMap Outline.ofFile)) := by
    rw [Outline.declaredIn_eq_flatMap, Outline.declaredIn_eq_flatMap]
    exact (h.outlines_perm htraverses htraverses').flatMap_right _
  have hwinners : Winner.ofFiles entered =
      Outline.declaredIn (entered.flatMap Outline.ofFile) := by
    rw [Outline.ofFiles_eq_winnersIn, Outline.winnersIn_eq_declaredIn hlost]
  have hnodup := (Registry.takes_declareFiles entered).nodup
  rw [hwinners, (hdeclared.map _).nodup_iff] at hnodup
  have hlost' : Outline.lostIn (entered'.flatMap Outline.ofFile) [] = [] :=
    Outline.lostIn_eq_nil hnodup
  refine ⟨hlost', ?_⟩
  rw [hwinners, Outline.ofFiles_eq_winnersIn entered', Outline.winnersIn_eq_declaredIn hlost']
  exact hdeclared

/-- Walks with the same winners declare the same. -/
theorem alike_of_winners (htraverses : Traverses (start .empty) w entered)
    (htraverses' : Traverses (start .empty) w' entered')
    (hwinners : (Winner.ofFiles entered).Perm (Winner.ofFiles entered')) :
    w.registry.Alike w'.registry := by
  rw [htraverses.of_start.2, htraverses'.of_start.2]
  exact (Registry.takes_declareFiles entered).alike (Registry.takes_declareFiles entered')
    (Registry.coherent_declareFiles entered).indexed
    (Registry.coherent_declareFiles entered').indexed fun _ => hwinners.mem_iff

/-! ## Flags -/

/-- The flags of the units are the same. -/
theorem Corresponds.flags (h : Corresponds w w') {loader loader' : Loader}
    {options : RunOptions} {root root' : String} (hsuffices : loader.Suffices root)
    (hsuffices' : loader'.Suffices root') {registry registry' : Registry}
    (hrun : run loader options root registry = (.ok (), w))
    (hrun' : run loader' options root' registry' = (.ok (), w')) (id : String) :
    (w.units.get? id).map (fun unit => (unit.missing, unit.weak)) =
      (w'.units.get? id).map fun unit => (unit.missing, unit.weak) := by
  have hunits := h.units id
  unfold Table.contains at hunits
  cases hget : w.units.get? id with
  | none =>
    rw [hget, Option.isSome_none, Eq.comm, Option.isSome_eq_false_iff,
      Option.isNone_iff_eq_none] at hunits
    rw [hunits]
  | some unit =>
    rw [hget] at hunits
    obtain ⟨unit', hget'⟩ := Option.isSome_iff_exists.1 hunits.symm
    obtain ⟨hmissing, hweak⟩ := run_flags hsuffices hrun hget
    obtain ⟨hmissing', hweak'⟩ := run_flags hsuffices' hrun' hget'
    have hsources := h.exists_file_iff (P := fun source _ => source = id) fun _ => Iff.rfl
    have hmarks := h.exists_file_iff (P := fun _ file => WeaklyNamed file.imports id)
      fun hreorders => hreorders.weaklyNamed_iff id
    rw [List.mem_map] at hmissing hmissing'
    have hsame : unit.missing = unit'.missing := by
      rw [← Bool.not_inj_iff, Bool.eq_iff_iff]
      simp only [Bool.not_eq_true', hmissing, hmissing', hsources]
    have hsame' : unit.weak = unit'.weak := by
      rw [Bool.eq_iff_iff, hweak, hweak', hmarks]
    rw [hget', Option.map_some, Option.map_some, hsame, hsame']

end Walk
end SchemaGraph
