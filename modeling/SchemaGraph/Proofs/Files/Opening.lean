import SchemaGraph.Batch
import SchemaGraph.Proofs.Files.Ways
import SchemaGraph.Proofs.Graph.Methods
import SchemaGraph.Proofs.Import.Root
/-!
# Opening a file

The graph of a path is loaded under the file name of the path, which is looked up like an import.
Where the path leads to a file, the first place of this lookup is the file itself
(`FileTree.stat_beside`). So the root unit is that of the file, unless something else stands in for
it: the name may be mapped, and a file elsewhere may be found where there is none at the path
(`openGraph_reads`).
-/

namespace SchemaGraph

/-- The root unit of the graph is that of the text, apart from a weak mark, and what the text
declares is registered. -/
def LoadedGraph.RootReadFrom (g : LoadedGraph) (text : String) : Prop :=
  ∃ file weak, parseSchema g.root text = .ok file ∧
    g.units.get? g.root = some { SourceUnit.ofFile g.root file with weak } ∧
    ∀ w ∈ Winner.ofFile (g.root, file) [],
      ∃ e, g.registry.get? w.qualifiedName = some e ∧ w.Describes e

/-- A graph that is loaded has read its root. -/
theorem LoadedGraph.load_root {loader : Loader} {options : RunOptions} {renderer : Renderer}
    {root : String} {g : LoadedGraph} (h : load loader options renderer root = .ok g) :
    g.root = unitIdentifier root ∧
      ∃ text, Walk.textOf loader root = .ok text ∧ g.RootReadFrom text := by
  have hroot : g.root = unitIdentifier root := by
    unfold load at h
    split at h
    · cases h
    · dsimp only at h
      split at h
      · cases h
      · exact (Except.ok.inj h) ▸ rfl
  obtain ⟨walk, hrun, hsymbols, -, -, hunits, -⟩ := load_eq_ok h
  obtain ⟨text, file, weak, entered, htext, hparse, hunit, htraverses⟩ := Walk.run_root hrun
  obtain ⟨-, hregistry⟩ := htraverses.of_start
  have htakes := hregistry ▸ Registry.takes_declareFiles ((unitIdentifier root, file) :: entered)
  have hextends := (tracks_buildOf htraverses renderer options).symbols
  refine ⟨hroot, text, htext, file, weak, hroot ▸ hparse, ?_, fun w hw => ?_⟩
  · rw [hroot, hunits]
    exact hunit
  · rw [hroot] at hw
    unfold registry
    rw [hsymbols]
    -- The file of the root is entered first, so nothing is taken before it.
    exact htakes.exists_registered hextends.grows (List.mem_append_left _ hw)

namespace FileTree

variable {t : FileTree} {settings : Settings} {path name : String}

/-! ## The file beside its imports -/

theorem utf8ByteSize_ofList_cons (c : Char) (cs : List Char) :
    (String.ofList (c :: cs)).utf8ByteSize = c.utf8Size + (String.ofList cs).utf8ByteSize := by
  have hcons : String.ofList (c :: cs) = String.singleton c ++ String.ofList cs := by
    rw [← String.toList_inj, String.toList_append]
    simp
  rw [hcons, String.utf8ByteSize_append, String.utf8ByteSize_singleton]

theorem utf8ByteSize_le_of_sublist {s s' : String} (h : s.toList.Sublist s'.toList) :
    s.utf8ByteSize ≤ s'.utf8ByteSize := by
  rw [← String.ofList_toList (s := s), ← String.ofList_toList (s := s')]
  generalize s.toList = cs at h ⊢
  generalize s'.toList = cs' at h ⊢
  induction h with
  | slnil => exact Nat.le_refl _
  | cons c _ ih =>
    rw [utf8ByteSize_ofList_cons]
    omega
  | cons_cons c _ ih =>
    rw [utf8ByteSize_ofList_cons, utf8ByteSize_ofList_cons]
    omega

/-- What does not refuse a path refuses no part of it. -/
theorem refusal?_of_sublist {path' : String} (h : refusal? path = none)
    (hsub : path'.toList.Sublist path.toList) (hne : path' ≠ "") : refusal? path' = none := by
  have hsize := utf8ByteSize_le_of_sublist hsub
  unfold refusal? at h ⊢
  split at h
  · cases h
  · rename_i hnul
    split at h
    · cases h
    · split at h
      · cases h
      · rename_i hlimit
        rw [if_neg, if_neg hne, if_neg (by omega)]
        rw [List.contains_iff_mem] at hnul ⊢
        exact fun hmem => hnul (hsub.subset hmem)

theorem stat_of_isFile (h : t.isFile path = true) :
    ∃ location content executable, t.locate path = .ok location ∧
      t.entry? location = some (.file content executable) := by
  unfold isFile at h
  split at h
  · rename_i content executable hstat
    unfold stat at hstat
    split at hstat
    · cases hstat
    · rename_i location hlocate
      split at hstat
      · cases hstat
      · rename_i entry hentry
        cases hstat
        exact ⟨location, content, executable, hlocate, hentry⟩
  · cases h

/-- A path to a file leads to the same location as its file name beside the path around it. -/
theorem stat_beside (hname : Path.fileName? path = some name) (hfile : t.isFile path = true) :
    t.stat (Path.beside path name) = t.stat path := by
  obtain ⟨location, content, executable, hlocate, hentry⟩ := stat_of_isFile hfile
  obtain ⟨before, blanks, trailing, hpieces, hblanks, htrailing, hbeside, habsolute⟩ :=
    Path.beside_of_fileName? hname
  obtain ⟨hrefusal, hways⟩ := locate_eq_ok.1 hlocate
  rw [hpieces] at hways
  -- A blank piece at the end would lead to a directory.
  obtain rfl : trailing = [] := by
    rcases List.eq_nil_or_concat trailing with hnone | ⟨others, last, rfl⟩
    · exact hnone
    · have hend : before ++ (blanks ++ name :: others.concat last) =
          (before ++ (blanks ++ name :: others)) ++ [last] := by simp
      have hdirectory := hways.entry?_of_blank (htrailing last (by simp)) hend
      rw [hentry] at hdirectory
      cases hdirectory
  have hlocate' : t.locate (Path.beside path name) = .ok location := by
    refine locate_eq_ok.2 ⟨refusal?_of_sublist hrefusal ?_ ?_, ?_⟩
    · have hsub := Path.ofPieces_sublist
        ((List.Sublist.refl before).append (List.sublist_append_right blanks [name]))
      rwa [← hbeside, ← hpieces, Path.ofPieces_pieces, Path.ofPieces_pieces] at hsub
    · intro hempty
      have hlast := congrArg List.getLast? hbeside
      rw [hempty, Path.pieces_eq_singleton (by simp), List.getLast?_concat] at hlast
      exact (Path.isName_of_fileName? hname).not_blank (.inl (Option.some.inj hlast).symm)
    · unfold startOf at hways ⊢
      rw [habsolute, hbeside]
      exact hways.skipAll hblanks (by simp)
  unfold stat
  rw [hlocate, hlocate']

theorem isFile_beside (hname : Path.fileName? path = some name) (hfile : t.isFile path = true) :
    t.isFile (Path.beside path name) = true := by
  unfold isFile at hfile ⊢
  rw [stat_beside hname hfile]
  exact hfile

theorem readText_beside (hname : Path.fileName? path = some name) (hfile : t.isFile path = true) :
    t.readText (Path.beside path name) = t.readText path := by
  unfold readText readFile
  rw [stat_beside hname hfile]

/-! ## Looking up the root -/

/-- The file name of a path is no schema text if the path is none. -/
theorem isInlineText_fileName? (hname : Path.fileName? path = some name)
    (h : isInlineText path = false) : isInlineText name = false := by
  have hcount := (Path.fileName?_sublist hname).count_le '\n'
  unfold isInlineText at h ⊢
  rw [decide_eq_false_iff_not] at h ⊢
  omega

/-- Nothing stands in for the file at a path: its name is neither a schema text nor mapped, and
where it is no file, no other file is found under its name. -/
def StandsAlone (t : FileTree) (settings : Settings) (path : String) : Prop :=
  ∀ name, Path.fileName? path = some name →
    isInlineText name = false ∧ settings.importMapping.get? name = none ∧
      (t.isFile path = false → ∀ candidate ∈
        (lookupOf settings ((Path.parent? path).getD "")).candidates name,
          t.isFile candidate = false)

end FileTree

namespace ImportLookup

variable {lookup : ImportLookup} {t : FileTree} {name : String}

theorem loadFirst_of_not_isFile {paths : List String}
    (h : ∀ candidate ∈ paths, t.isFile candidate = false) :
    loadFirst t name paths = .error ⟨.noCandidate, name⟩ := by
  induction paths with
  | nil => rfl
  | cons path paths ih =>
    rw [loadFirst, h path List.mem_cons_self, if_neg (by decide)]
    exact ih fun candidate hcandidate => h candidate (List.mem_cons_of_mem _ hcandidate)

/-- The first candidate that is a file is the one that is read. -/
theorem readText_of_loadFirst {path text : String} {rest : List String} (hfile : t.isFile path)
    (h : loadFirst t name (path :: rest) = .ok text) : t.readText path = .ok text := by
  rw [loadFirst, if_pos hfile] at h
  split at h
  · rename_i hread
    exact hread.trans (congrArg _ (Except.ok.inj h))
  · cases h

/-- A name that is not mapped is looked up as it is. -/
theorem load_of_not_mapped (h : lookup.mapping.get? name = none) :
    lookup.load t name = loadFirst t name (lookup.candidates name) := by
  unfold load Table.contains
  rw [h]
  rfl

end ImportLookup

namespace FileTree

variable {t : FileTree} {settings : Settings} {path name text : String}

/-- Where nothing stands in for a file, its name is looked up as the file. -/
theorem readText_of_load (halone : t.StandsAlone settings path)
    (hname : Path.fileName? path = some name)
    (h : (lookupOf settings ((Path.parent? path).getD "")).load t name = .ok text) :
    t.readText path = .ok text := by
  obtain ⟨-, hmapping, hfallback⟩ := halone name hname
  rw [ImportLookup.load_of_not_mapped hmapping] at h
  cases hfile : t.isFile path with
  | false =>
    rw [ImportLookup.loadFirst_of_not_isFile (hfallback hfile)] at h
    cases h
  | true =>
    have hrelative := Path.isAbsolute_of_slash_not_mem (Path.slash_not_mem_of_fileName? hname)
    have hfirst : (lookupOf settings ((Path.parent? path).getD "")).candidates name =
        Path.beside path name ::
          name :: settings.importPaths.map fun directory => Path.join directory name := by
      unfold ImportLookup.candidates
      rw [hrelative]
      rfl
    rw [hfirst] at h
    rw [← readText_beside hname hfile]
    exact ImportLookup.readText_of_loadFirst (isFile_beside hname hfile) h

/-- What opening a path loads. -/
theorem openGraph_eq_ok {g : LoadedGraph} (h : t.openGraph settings path = .ok g) :
    ∃ name, Path.fileName? path = some name ∧
      LoadedGraph.load ((lookupOf settings ((Path.parent? path).getD "")).loader t)
        settings.runOptions Dot.renderEntity name = .ok g := by
  unfold openGraph rootAt at h
  cases hname : Path.fileName? path with
  | none =>
    rw [hname] at h
    cases h
  | some name =>
    rw [hname] at h
    dsimp only at h
    split at h
    · cases h
    · rename_i hload
      exact ⟨name, rfl, hload.trans (congrArg _ (Except.ok.inj h))⟩

/-- A file that imports nothing is opened alike in all trees where its name has the same text. -/
theorem openGraph_alone {t' : FileTree} {file : SchemaFile}
    (hname : Path.fileName? path = some name) (hinline : isInlineText name = false)
    (hload : (lookupOf settings ((Path.parent? path).getD "")).load t name = .ok text)
    (hload' : (lookupOf settings ((Path.parent? path).getD "")).load t' name = .ok text)
    (hparse : parseSchema name text = .ok file) (hnone : file.imports = []) :
    t.openGraph settings path = t'.openGraph settings path := by
  rw [← unitIdentifier_eq_self hinline] at hparse
  have htext {s : FileTree}
      (h : (lookupOf settings ((Path.parent? path).getD "")).load s name = .ok text) :
      Walk.textOf ((lookupOf settings ((Path.parent? path).getD "")).loader s) name =
        .ok text := by
    unfold Walk.textOf
    rw [hinline, if_neg (by decide)]
    exact h
  unfold openGraph rootAt LoadedGraph.load
  rw [hname]
  dsimp only
  rw [Walk.run_alone (htext hload) hparse hnone, Walk.run_alone (htext hload') hparse hnone]

/-- **Opening a path reads the file at that path**, if nothing stands in for it. Then a path that
cannot be read is not opened. -/
theorem openGraph_reads (halone : t.StandsAlone settings path) :
    (∀ g, t.openGraph settings path = .ok g →
      ∃ text, t.readText path = .ok text ∧ Path.fileName? path = some g.root ∧
        g.RootReadFrom text) ∧
    ∀ e, t.readText path = .error e → ∃ e', t.openGraph settings path = .error e' := by
  have hreads : ∀ g, t.openGraph settings path = .ok g →
      ∃ text, t.readText path = .ok text ∧ Path.fileName? path = some g.root ∧
        g.RootReadFrom text := by
    intro g hopen
    obtain ⟨name, hname, hload⟩ := openGraph_eq_ok hopen
    obtain ⟨hroot, text, htext, hread⟩ := LoadedGraph.load_root hload
    obtain ⟨hinline, -, -⟩ := halone name hname
    unfold Walk.textOf at htext
    rw [hinline, if_neg (by decide)] at htext
    refine ⟨text, readText_of_load halone hname htext, ?_, hread⟩
    rw [hroot, unitIdentifier_eq_self hinline]
    exact hname
  refine ⟨hreads, fun e hunreadable => ?_⟩
  cases hopen : t.openGraph settings path with
  | error e' => exact ⟨e', rfl⟩
  | ok g =>
    obtain ⟨text, htext, -⟩ := hreads g hopen
    rw [hunreadable] at htext
    cases htext

/-- A file in a directory, and another one of that name beside the directory. -/
def namesakes : FileTree where
  entries := .ofList
    [(["a.proto"], .file (.text "message B\x7b\x7d") false), (["p"], .directory),
      (["p", "a.proto"], .file (.text "message A\x7b\x7d") false)]
  workingDirectory := []

/-- The file in the directory is opened. Where there is none, nothing is. -/
theorem openGraph_namesakes :
    (∃ g, namesakes.openGraph .standard "p/a.proto" = .ok g ∧
      g.RootReadFrom "message A\x7b\x7d") ∧
    ∃ e', namesakes.openGraph .standard "p/b.proto" = .error e' := by
  have hopened :
      (namesakes.openGraph .standard "p/a.proto").toOption.any (fun _ => true) = true := by
    decide +kernel
  have hread : (namesakes.readText "p/a.proto").toOption = some "message A\x7b\x7d" := by
    decide +kernel
  have halone : namesakes.StandsAlone .standard "p/a.proto" := by
    intro name hname
    obtain rfl : "a.proto" = name :=
      Option.some.inj ((by decide +kernel : Path.fileName? "p/a.proto" = _).symm.trans hname)
    refine ⟨by decide, by decide, fun hnot => ?_⟩
    rw [show namesakes.isFile "p/a.proto" = true by decide +kernel] at hnot
    cases hnot
  have hnone : namesakes.StandsAlone .standard "p/b.proto" := by
    intro name hname
    obtain rfl : "b.proto" = name :=
      Option.some.inj ((by decide +kernel : Path.fileName? "p/b.proto" = _).symm.trans hname)
    exact ⟨by decide, by decide, fun _ => by decide +kernel⟩
  constructor
  · obtain ⟨g, hopen, -⟩ := exists_ok_of_any hopened
    obtain ⟨text, htext, -, hroot⟩ := (openGraph_reads halone).1 g hopen
    rw [htext] at hread
    exact ⟨g, hopen, Option.some.inj hread ▸ hroot⟩
  · exact (openGraph_reads hnone).2 .notFound (by decide +kernel)

/-- A file beside the directory that a path names, which is not there. -/
def strayFile : FileTree where
  entries := .ofList [(["a.proto"], .file (.text "message A\x7b\x7d") false)]
  workingDirectory := []

/-- The path leads nowhere, but opening it succeeds. -/
theorem openGraph_strayFile :
    ∃ g, strayFile.openGraph .standard "p/a.proto" = .ok g ∧
      strayFile.readText "p/a.proto" = .error .notFound := by
  have hopened :
      (strayFile.openGraph .standard "p/a.proto").toOption.any (fun _ => true) = true := by
    decide +kernel
  obtain ⟨g, hopen, -⟩ := exists_ok_of_any hopened
  exact ⟨g, hopen, by decide +kernel⟩

end FileTree
end SchemaGraph
