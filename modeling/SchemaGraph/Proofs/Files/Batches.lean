import SchemaGraph.Proofs.Files.Opening
import SchemaGraph.Proofs.Files.Writing
/-!
# The documents of a batch

The runs of a batch write into one directory. A run changes the entry at the path of its document
and no other document (`exists_leaves_of_runs`), as long as the programs that draw images leave
documents alone (`DrawsBeside`). So after a batch each document is still at its path unless a later
path leads to the same place (`documents_of_runRoots`). The name of a document tells the stem of its
root and no more: roots with different stems keep their documents (`runBatch_documents`).
-/

namespace SchemaGraph

/-! ## The names of documents -/

/-- The identifier of the unit of a root, which is a path or a schema text. -/
def rootIdentifier (root : String) : String :=
  if isInlineText root then inlineIdentifier root else (Path.fileName? root).getD root

/-- What the document of a unit is named after. -/
def stemOfIdentifier (identifier : String) : String :=
  (Path.fileStem? identifier).getD identifier

/-- What the document of a root is named after: its file name without the extension. -/
def rootStem (root : String) : String :=
  stemOfIdentifier (rootIdentifier root)

/-- What follows the stem in the name of a document. -/
def documentEnding (selection : Option String) : String :=
  let selection := Text.trim (selection.getD "")
  if selection = "" then ".dot"
  else
    "_" ++ String.ofList (selection.toList.map fun c => if isFileNameChar c then c else '_') ++
      ".dot"

theorem outputFileName_eq (identifier : String) (selection : Option String) :
    outputFileName identifier selection =
      stemOfIdentifier identifier ++ documentEnding selection := by
  unfold outputFileName documentEnding stemOfIdentifier
  dsimp only
  split
  · rfl
  · simp only [String.append_assoc]

theorem slash_not_mem_documentEnding (selection : Option String) :
    '/' ∉ (documentEnding selection).toList := by
  unfold documentEnding
  dsimp only
  split
  · decide
  · simp only [String.toList_append, List.mem_append, String.toList_ofList, List.mem_map, not_or]
    refine ⟨⟨by decide, ?_⟩, by decide⟩
    rintro ⟨c, -, hc⟩
    split at hc
    · rename_i hchar
      rw [hc] at hchar
      exact absurd hchar (by decide)
    · cases hc

theorem slash_not_mem_stemOfIdentifier {identifier : String} (h : '/' ∉ identifier.toList) :
    '/' ∉ (stemOfIdentifier identifier).toList := by
  unfold stemOfIdentifier Path.fileStem?
  cases hname : Path.fileName? identifier with
  | none => exact h
  | some name =>
    exact fun hmem => Path.slash_not_mem_of_fileName? hname ((Path.stemOf_sublist name).subset hmem)

theorem slash_not_mem_outputFileName {identifier : String} (h : '/' ∉ identifier.toList)
    (selection : Option String) : '/' ∉ (outputFileName identifier selection).toList := by
  rw [outputFileName_eq, String.toList_append, List.mem_append, not_or]
  exact ⟨slash_not_mem_stemOfIdentifier h, slash_not_mem_documentEnding selection⟩

theorem suffix_join (base name : String) : name.toList <:+ (Path.join base name).toList := by
  unfold Path.join
  split
  · exact List.suffix_refl _
  · split
    · rw [String.toList_append]
      exact List.suffix_append _ _
    · rw [String.toList_append]
      exact List.suffix_append _ _

theorem dot_suffix_documentEnding (selection : Option String) :
    ".dot".toList <:+ (documentEnding selection).toList := by
  unfold documentEnding
  dsimp only
  split
  · exact List.suffix_refl _
  · rw [String.toList_append]
    exact List.suffix_append _ _

theorem dot_suffix_outputFileName (identifier : String) (selection : Option String) :
    ".dot".toList <:+ (outputFileName identifier selection).toList := by
  rw [outputFileName_eq, String.toList_append]
  exact (dot_suffix_documentEnding selection).trans (List.suffix_append _ _)

theorem dot_suffix_outputPath (settings : Settings) (identifier : String)
    (selection output : Option String) :
    ".dot".toList <:+ (outputPath settings identifier selection output).toList := by
  unfold outputPath
  refine List.IsSuffix.trans ?_ (suffix_join _ _)
  cases output with
  | none =>
    exact dot_suffix_outputFileName identifier selection
  | some name =>
    dsimp only
    split
    · rename_i hsuffix
      exact List.isSuffixOf_iff_suffix.1 hsuffix
    · rw [String.toList_append]
      exact List.suffix_append _ _

/-- A piece that ends with an extension is a name. -/
theorem isName_of_dot_suffix {piece : String} (h : ".dot".toList <:+ piece.toList) :
    Path.IsName piece := by
  have hlength := h.length_le
  constructor
  · rintro (rfl | rfl) <;> exact absurd hlength (by decide)
  · rintro rfl
    exact absurd hlength (by decide)

/-- The path of a document ends with its name. -/
theorem exists_name_of_outputPath (settings : Settings) (identifier : String)
    (selection output : Option String) :
    ∃ before name, Path.pieces (outputPath settings identifier selection output) =
        before ++ [name] ∧ ".dot".toList <:+ name.toList ∧
      Path.fileName? (outputPath settings identifier selection output) = some name := by
  obtain ⟨before, name, hpieces, hending⟩ := Path.exists_pieces_of_suffix
    (dot_suffix_outputPath settings identifier selection output) (by decide)
  exact ⟨before, name, hpieces, hending,
    Path.fileName?_of_pieces (isName_of_dot_suffix hending) hpieces⟩

/-- Documents without a name of their own stand in one directory, under the names of their roots. -/
theorem exists_pieces_outputPath (settings : Settings) (selection : Option String) :
    ∃ before, ∀ {identifier : String}, '/' ∉ identifier.toList →
      Path.pieces (outputPath settings identifier selection none) =
          before ++ [outputFileName identifier selection] ∧
        Path.isAbsolute (outputPath settings identifier selection none) =
          Path.isAbsolute settings.outputDirectory := by
  obtain ⟨before, hbefore⟩ := Path.exists_pieces_join settings.outputDirectory
  exact ⟨before, fun hslash => hbefore (slash_not_mem_outputFileName hslash selection)⟩

theorem outputFileName_inj {identifier identifier' : String} {selection : Option String}
    (h : outputFileName identifier selection = outputFileName identifier' selection) :
    stemOfIdentifier identifier = stemOfIdentifier identifier' := by
  rw [outputFileName_eq, outputFileName_eq] at h
  exact (String.append_left_inj _).1 h

/-! ## One run -/

namespace FileTree

variable {t t' : FileTree} {settings : Settings} {selection output : Option String}
  {root path : String}

/-- Nothing that has the file name of the path is a link or a device. -/
def PlainAt (t : FileTree) (path : String) : Prop :=
  ∀ name, Path.fileName? path = some name → ∀ around, t.IsPlain (around ++ [name])

theorem isPlain_of_values {location : Location}
    (h : ∀ entry ∈ t.entries.values, entry = .directory ∨
      ∃ content executable, entry = .file content executable) : t.IsPlain location := by
  have hentry {entry : FileEntry} (hget : t.entry? location = some entry) :
      entry = .directory ∨ ∃ content executable, entry = .file content executable := by
    unfold entry? at hget
    split at hget
    · exact .inl (Option.some.inj hget).symm
    · exact h entry ((Table.mem_values _ _).2 ⟨location, hget⟩)
  constructor
  · rintro ⟨target, htarget⟩
    rcases hentry htarget with heq | ⟨_, _, heq⟩ <;> cases heq
  · intro hdevice
    rcases hentry hdevice with heq | ⟨_, _, heq⟩ <;> cases heq

theorem PlainAt.of_keepsWays (h : t.PlainAt path) (hkeeps : t.KeepsWays t') : t'.PlainAt path :=
  fun name hname around => hkeeps.plain (h name hname around)

/-- A path to a document leads to its name in the directory that the pieces before it lead to. -/
theorem exists_around {location : Location} {before : List String} {name : String}
    (hlocate : t.locate path = .ok location) (hpieces : Path.pieces path = before ++ [name])
    (hname : Path.IsName name) (hplain : t.PlainAt path) :
    ∃ around, Leads t true linkLimit (t.startOf path) (before ++ ["."]) around ∧
      location = around ++ [name] := by
  obtain ⟨-, hways⟩ := locate_eq_ok.1 hlocate
  obtain ⟨around, haround, hlast⟩ := hways.of_name hname hpieces
  have hplace := hplain name (Path.fileName?_of_pieces hname hpieces) around
  exact ⟨around, haround, hlast hplace.not_link⟩

/-- The path of a document leads to a place for documents. -/
theorem PlainAt.isDocument {location : Location} (h : t.PlainAt path) (hkeeps : t.KeepsWays t')
    (hlocate : t'.locate path = .ok location)
    (hname : ∃ before name, Path.pieces path = before ++ [name] ∧ ".dot".toList <:+ name.toList ∧
      Path.fileName? path = some name) : IsDocument location ∧ t.IsPlain location := by
  obtain ⟨before, name, hpieces, hending, hfile⟩ := hname
  obtain ⟨around, -, rfl⟩ :=
    exists_around hlocate hpieces (isName_of_dot_suffix hending) (h.of_keepsWays hkeeps)
  exact ⟨⟨around, name, rfl, hending⟩, h name hfile around⟩

/-- The unit of a root that is loaded. -/
theorem root_of_loadRoot {g : LoadedGraph} (h : t.loadRoot settings root = .ok g) :
    g.root = rootIdentifier root ∧ '/' ∉ g.root.toList := by
  unfold loadRoot at h
  unfold rootIdentifier
  split at h
  · rename_i hinline
    split at h
    · cases h
    · rename_i g' hload
      cases h
      obtain ⟨hroot, -⟩ := LoadedGraph.load_root hload
      unfold unitIdentifier at hroot
      rw [if_pos hinline] at hroot ⊢
      exact ⟨hroot, hroot ▸ not_mem_inlineIdentifier (by decide) (by decide) root⟩
  · rename_i hpath
    obtain ⟨name, hname, hload⟩ := openGraph_eq_ok h
    obtain ⟨hroot, -⟩ := LoadedGraph.load_root hload
    have hinline := isInlineText_fileName? hname (by simpa using hpath)
    rw [unitIdentifier_eq_self hinline] at hroot
    rw [if_neg hpath, hname, hroot]
    exact ⟨rfl, Path.slash_not_mem_of_fileName? hname⟩

section

variable [Programs]

/-- What a run may answer, and the tree that it leaves. -/
inductive Runs (t : FileTree) (settings : Settings) (selection output : Option String)
    (root : String) : Except GraphError String → FileTree → Prop
  /-- The root is not loaded, or nothing is selected. -/
  | unread (e : GraphError) : Runs t settings selection output root (.error e) t
  | unwritten {path document : String} {e : SystemError} {t' : FileTree} :
      t.writeDocument path document = (.error e, t') →
      Runs t settings selection output root (.error (.system e)) t'
  | undrawn {path document : String} {e : DrawingError} {t' t'' : FileTree} :
      t.writeDocument path document = (.ok (), t') →
      t'.drawAll settings.dotCommand path (imageFormats settings) = (.error e, t'') →
      Runs t settings selection output root (.error (.drawing e)) t''
  | done {g : LoadedGraph} {path document : String} {t' t'' : FileTree} :
      t.loadRoot settings root = .ok g → (g.render selection).1 = .ok document →
      path = outputPath settings g.root selection output →
      t.writeDocument path document = (.ok (), t') →
      t'.drawAll settings.dotCommand path (imageFormats settings) = (.ok (), t'') →
      Runs t settings selection output root (.ok path) t''

theorem runs_renderToFile (t : FileTree) (settings : Settings) (selection output : Option String)
    (root : String) :
    t.Runs settings selection output root (t.renderToFile settings selection output root).1
      (t.renderToFile settings selection output root).2 := by
  unfold renderToFile
  split
  · exact .unread _
  · rename_i hload
    split
    · exact .unread _
    · rename_i hrender
      dsimp only
      split
      · rename_i hwritten
        exact .unwritten hwritten
      · rename_i hwritten
        split
        · rename_i hdrawn
          exact .undrawn hwritten hdrawn
        · rename_i hdrawn
          exact .done hload hrender rfl hwritten hdrawn

/-- A run that succeeds reports the path of the document of its root. -/
theorem path_of_runs (h : t.Runs settings selection output root (.ok path) t') :
    path = outputPath settings (rootIdentifier root) selection output ∧
      '/' ∉ (rootIdentifier root).toList := by
  cases h with
  | done hload _ hpath =>
    obtain ⟨hroot, hslash⟩ := root_of_loadRoot hload
    rw [hroot] at hpath hslash
    exact ⟨hpath, hslash⟩

/-- Drawing the images of a run does not touch documents: there are no images to draw, or the
drawing program leaves documents alone and the run does not fail over it. -/
def DrawsBeside (settings : Settings) (result : Except GraphError String) : Prop :=
  imageFormats settings = [] ∨
    SparesDocuments settings.dotCommand ∧ ∀ e, result ≠ .error (.drawing e)

theorem DrawsBeside.drawAll {result : Except GraphError String} (h : DrawsBeside settings result)
    (t : FileTree) (document : String) :
    t.KeepsDocuments (t.drawAll settings.dotCommand document (imageFormats settings)).2 := by
  rcases h with hnone | ⟨hspares, -⟩
  · rw [hnone, FileTree.drawAll]
    exact .refl t
  · exact hspares.drawAll t document _

/-- A run that succeeds has written the document of its root, and changed no other one. -/
theorem exists_leaves_of_runs (hdraws : DrawsBeside settings (.ok path))
    (h : t.Runs settings selection output root (.ok path) t') :
    ∃ g document location, t.loadRoot settings root = .ok g ∧
      (g.render selection).1 = .ok document ∧
      path = outputPath settings g.root selection output ∧
      t'.locate path = .ok location ∧ Leaves t t' location document := by
  cases h with
  | @done _ _ _ written _ hload hrender hpath hwritten hdrawn =>
    have hkeeps := hdraws.drawAll written path
    rw [hdrawn] at hkeeps
    obtain ⟨location, hlocate, hwrites⟩ := writeDocument_eq_ok hwritten
    exact ⟨_, _, location, hload, hrender, hpath, hkeeps.locate hlocate, hwrites.leaves hkeeps⟩

/-- A run that fails leaves at most new directories. -/
theorem adds_of_runs {e : GraphError} (hdraws : DrawsBeside settings (.error e))
    (h : t.Runs settings selection output root (.error e) t') : t.Adds t' := by
  cases h with
  | unread => exact .refl t
  | unwritten hwritten => exact adds_of_writeDocument hwritten
  | undrawn _ hdrawn =>
    rcases hdraws with hnone | ⟨-, hdrawn'⟩
    · rw [hnone, drawAll] at hdrawn
      cases hdrawn
    · exact absurd rfl (hdrawn' _)

/-- No run makes a path lead elsewhere. -/
theorem keepsWays_of_runs {result : Except GraphError String}
    (hdraws : DrawsBeside settings result)
    (h : t.Runs settings selection output root result t') : t.KeepsWays t' := by
  cases result with
  | error e => exact (adds_of_runs hdraws h).toKeepsWays
  | ok path =>
    obtain ⟨_, _, _, -, -, -, -, hleaves⟩ := exists_leaves_of_runs hdraws h
    exact hleaves.toKeepsWays

/-! ## All runs -/

/-- The tree that several runs leave, one after the other. -/
def afterRuns (settings : Settings) (selection output : Option String) (t : FileTree)
    (roots : List String) : FileTree :=
  (runRoots settings selection output roots t).2

/-- The results of several runs, one after the other. -/
def runResults (settings : Settings) (selection output : Option String) (t : FileTree)
    (roots : List String) : List (String × Except GraphError String) :=
  (runRoots settings selection output roots t).1

theorem afterRuns_cons (root : String) (rest : List String) :
    t.afterRuns settings selection output (root :: rest) =
      (t.renderToFile settings selection output root).2.afterRuns settings selection output rest :=
  rfl

theorem runResults_cons (root : String) (rest : List String) :
    t.runResults settings selection output (root :: rest) =
      (root, (t.renderToFile settings selection output root).1) ::
        (t.renderToFile settings selection output root).2.runResults settings selection output
          rest :=
  rfl

theorem keepsWays_afterRuns {roots : List String} {t : FileTree}
    (hdraws : ∀ r ∈ t.runResults settings selection output roots, DrawsBeside settings r.2) :
    t.KeepsWays (t.afterRuns settings selection output roots) := by
  induction roots generalizing t with
  | nil => exact .refl t
  | cons root rest ih =>
    rw [runResults_cons, List.forall_mem_cons] at hdraws
    rw [afterRuns_cons]
    have hruns := t.runs_renderToFile settings selection output root
    exact (keepsWays_of_runs hdraws.1 hruns).trans (ih hdraws.2)

/-- Runs keep every document but those that the paths of their own ones lead to. -/
theorem entry?_afterRuns {location : Location} (hdocument : IsDocument location)
    {entry : FileEntry} {roots : List String} {t : FileTree}
    (hdraws : ∀ r ∈ t.runResults settings selection output roots, DrawsBeside settings r.2)
    (h : t.entry? location = some entry) :
    entry? (t.afterRuns settings selection output roots) location = some entry ∨
      ∃ r ∈ t.runResults settings selection output roots, ∃ path, r.2 = .ok path ∧
        (t.afterRuns settings selection output roots).locate path = .ok location := by
  induction roots generalizing t with
  | nil => exact .inl h
  | cons root rest ih =>
    rw [runResults_cons, List.forall_mem_cons] at hdraws
    rw [afterRuns_cons, runResults_cons]
    have hruns := t.runs_renderToFile settings selection output root
    generalize t.renderToFile settings selection output root = run at hdraws hruns ⊢
    obtain ⟨result, t'⟩ := run
    dsimp only at hdraws hruns ⊢
    by_cases hkept : t'.entry? location = some entry
    · refine (ih hdraws.2 hkept).imp_right fun ⟨r, hr, hpath⟩ => ?_
      exact ⟨r, List.mem_cons_of_mem _ hr, hpath⟩
    · cases result with
      | error e => exact absurd ((adds_of_runs hdraws.1 hruns).entry h) hkept
      | ok path =>
        obtain ⟨_, _, place, -, -, -, hlocate, hleaves⟩ := exists_leaves_of_runs hdraws.1 hruns
        obtain rfl : location = place := by
          by_contra hne
          exact hkept (hleaves.others hdocument hne h)
        exact .inr ⟨_, List.mem_cons_self, path, rfl,
          (keepsWays_afterRuns hdraws.2).locate hlocate⟩

theorem length_runResults (settings : Settings) (selection output : Option String) (t : FileTree)
    (roots : List String) :
    (t.runResults settings selection output roots).length = roots.length := by
  induction roots generalizing t with
  | nil => rfl
  | cons root rest ih => rw [runResults_cons, List.length_cons, List.length_cons, ih]

/-- The path of a run that succeeds, also one that draws images. -/
theorem path_of_mem_runResults {roots : List String} {r : String × Except GraphError String}
    (hr : r ∈ t.runResults settings selection output roots) (hok : r.2 = .ok path) :
    path = outputPath settings (rootIdentifier r.1) selection output ∧
      '/' ∉ (rootIdentifier r.1).toList := by
  induction roots generalizing t with
  | nil => cases hr
  | cons root rest ih =>
    rw [runResults_cons] at hr
    rcases List.mem_cons.1 hr with rfl | hr
    · have hruns := t.runs_renderToFile settings selection output root
      rw [show (t.renderToFile settings selection output root).1 = .ok path from hok] at hruns
      exact path_of_runs hruns
    · exact ih hr

/-- **After all runs each document is at its path**, where the paths of the documents lead to
different places at which no links and devices are. -/
theorem documents_of_runRoots {roots : List String} {t : FileTree}
    (hdraws : ∀ r ∈ t.runResults settings selection output roots, DrawsBeside settings r.2)
    (hplain : ∀ r ∈ t.runResults settings selection output roots, ∀ path, r.2 = .ok path →
      t.PlainAt path)
    (hapart : (t.runResults settings selection output roots).Pairwise fun r r' =>
      ∀ path path' location, r.2 = .ok path → r'.2 = .ok path' →
        (t.afterRuns settings selection output roots).locate path = .ok location →
        (t.afterRuns settings selection output roots).locate path' ≠ .ok location)
    {before after' : List (String × Except GraphError String)}
    (hsplit : t.runResults settings selection output roots = before ++ (root, .ok path) :: after') :
    ∃ g document,
      (t.afterRuns settings selection output (before.map (·.1))).loadRoot settings root = .ok g ∧
      (g.render selection).1 = .ok document ∧
      (t.afterRuns settings selection output roots).readText path = .ok document := by
  induction roots generalizing t before with
  | nil =>
    have hlength := congrArg List.length hsplit
    simp [runResults, runRoots] at hlength
  | cons first rest ih =>
    rw [runResults_cons, List.pairwise_cons] at hapart
    rw [runResults_cons] at hplain hsplit
    rw [runResults_cons, List.forall_mem_cons] at hdraws
    obtain ⟨hfirst, hrest⟩ := hapart
    cases before with
    | cons head before =>
      rw [List.cons_append, List.cons.injEq] at hsplit
      obtain ⟨rfl, hsplit⟩ := hsplit
      refine ih hdraws.2 (fun r hr path hok => ?_) hrest hsplit
      exact (hplain r (List.mem_cons_of_mem _ hr) path hok).of_keepsWays
        (keepsWays_of_runs hdraws.1 (t.runs_renderToFile settings selection output first))
    | nil =>
      obtain ⟨hhead, rfl⟩ := List.cons.inj hsplit
      obtain ⟨rfl, hresult⟩ := Prod.mk.inj hhead
      rw [afterRuns_cons] at hfirst ⊢
      have hat := hplain _ List.mem_cons_self path hresult
      have hruns := t.runs_renderToFile settings selection output first
      generalize t.renderToFile settings selection output first = run
        at hdraws hresult hfirst hruns ⊢
      obtain ⟨result, t'⟩ := run
      obtain rfl : result = .ok path := hresult
      obtain ⟨g, document, location, hload, hrender, hpath, hlocate, hleaves⟩ :=
        exists_leaves_of_runs hdraws.1 hruns
      have hkeeps := keepsWays_afterRuns hdraws.2
      obtain ⟨hdocument, hplace⟩ := hat.isDocument hleaves.toKeepsWays hlocate
        (hpath ▸ exists_name_of_outputPath ..)
      obtain ⟨executable, hentry⟩ := hleaves.written hdocument hplace
      refine ⟨g, document, hload, hrender, ?_⟩
      rcases entry?_afterRuns hdocument hdraws.2 hentry with hentry | ⟨r, hr, path', hok, hlocate'⟩
      · exact readText_of_entry? (hkeeps.locate hlocate) hentry
      -- A later document would be at the same place.
      · exact absurd hlocate'
          (hfirst r hr path path' location rfl hok (hkeeps.locate hlocate))

/-- A run of a file writes the document of its graph. -/
theorem renderToFile_of_openGraph {t'' : FileTree} {g : LoadedGraph} {document : String}
    (hinline : isInlineText root = false) (hopen : t.openGraph settings root = .ok g)
    (hrender : (g.render selection).1 = .ok document)
    (hwritten : t.writeDocument (outputPath settings g.root selection output) document =
      (.ok (), t'))
    (hdrawn : t'.drawAll settings.dotCommand (outputPath settings g.root selection output)
      (imageFormats settings) = (.ok (), t'')) :
    t.renderToFile settings selection output root =
      (.ok (outputPath settings g.root selection output), t'') := by
  unfold renderToFile loadRoot
  rw [hinline, if_neg (by decide), hopen]
  dsimp only
  rw [hrender]
  dsimp only
  rw [hwritten]
  dsimp only
  rw [hdrawn]

end

/-! ## Two roots -/

/-- Programs that succeed and do nothing. -/
@[reducible] def idlePrograms : Programs :=
  ⟨fun t _ _ => .ok ⟨none, "", t⟩⟩

theorem drawAll_idlePrograms (t : FileTree) (command document : String)
    (formats : List ImageFormat) :
    @drawAll idlePrograms t command document formats = (.ok (), t) := by
  induction formats with
  | nil => rfl
  | cons format rest ih => exact ih

/-- Settings that ask for images. -/
def drawnSettings : Settings :=
  { Settings.standard with generateSvg := true }

/-- Two directories with a file each. -/
def oneEach (name : String) : FileTree where
  entries := .ofList
    [(["p"], .directory), (["p", "x"], .directory),
      (["p", "x", "a.proto"], .file (.text "message A\x7b\x7d") false), (["p", "y"], .directory),
      (["p", "y", name], .file (.text "message B\x7b\x7d") false)]
  workingDirectory := []

theorem expandInput_oneEach : ∀ settings ∈ [.standard, drawnSettings],
    ∀ name ∈ ["a.proto", "b.proto"],
      (oneEach name).expandInput settings "p" = .ok ["p/x/a.proto", "p/y/" ++ name] := by
  have hdirectory : ∀ name ∈ ["a.proto", "b.proto"], (oneEach name).isDirectory "p" = true := by
    decide +kernel
  have hsorted : ∀ name ∈ ["a.proto", "b.proto"], ["p/x/a.proto", "p/y/" ++ name].Pairwise
      fun a b => decide (a ≤ b) = true := by
    decide +kernel
  have hplain : listMark.toList.isPrefixOf? "p".toList = none := by decide
  intro settings hsettings name hname
  unfold expandInput
  rw [if_neg (by decide), hplain]
  dsimp only
  rw [if_pos (hdirectory name hname), Except.ok.injEq]
  refine Eq.trans (congrArg sortTexts ?_) (List.mergeSort_of_pairwise (hsorted name hname))
  revert settings name
  decide +kernel

/-- Both runs succeed. What the second one reads is not what the first one has written. -/
theorem runBatch_oneEach : ∀ settings ∈ [.standard, drawnSettings],
    ∀ name ∈ ["a.proto", "b.proto"], ∃ t',
      @runBatch idlePrograms (oneEach name) settings none none "p" =
        (.ok [("p/x/a.proto", .ok "generated/a.dot"),
          ("p/y/" ++ name, .ok (outputPath settings name none none))], t') := by
  have hfirst : ∀ settings ∈ [.standard, drawnSettings], ∀ name ∈ ["a.proto", "b.proto"],
      (@renderToFile idlePrograms (oneEach name) settings none none "p/x/a.proto").1.toOption.any
        (· == "generated/a.dot") = true := by
    decide +kernel
  have hnames : ∀ settings ∈ [.standard, drawnSettings], ∀ name ∈ ["a.proto", "b.proto"],
      Path.fileName? ("p/y/" ++ name) = some name ∧
      isInlineText name = false ∧ isInlineText ("p/y/" ++ name) = false ∧
      (lookupOf settings ((Path.parent? ("p/y/" ++ name)).getD "")).load (oneEach name) name =
        .ok "message B\x7b\x7d" ∧
      (lookupOf settings ((Path.parent? ("p/y/" ++ name)).getD "")).load
        (@renderToFile idlePrograms (oneEach name) settings none none "p/x/a.proto").2 name =
        .ok "message B\x7b\x7d" ∧
      (parseSchema name "message B\x7b\x7d").toOption.any (·.imports.isEmpty) = true := by
    decide +kernel
  have hsecond : ∀ settings ∈ [.standard, drawnSettings], ∀ name ∈ ["a.proto", "b.proto"],
      ((oneEach name).openGraph settings ("p/y/" ++ name)).toOption.any (fun g =>
        g.root == name && (g.render none).1.toOption.any fun document =>
          ((@renderToFile idlePrograms (oneEach name) settings none none
            "p/x/a.proto").2.writeDocument
            (outputPath settings g.root none none) document).1.toOption.isSome) = true := by
    decide +kernel
  intro settings hsettings name hname
  obtain ⟨hfile, hinline, hpath, hload, hlater, hparses⟩ := hnames settings hsettings name hname
  obtain ⟨first, hfirst, hreported⟩ := exists_ok_of_any (hfirst settings hsettings name hname)
  obtain ⟨file, hparse, hnone⟩ := exists_ok_of_any hparses
  obtain ⟨g, hopen, hsecond⟩ := exists_ok_of_any (hsecond settings hsettings name hname)
  obtain ⟨hroot, hwrites⟩ := (Bool.and_eq_true _ _).mp hsecond
  obtain ⟨document, hrender, hwritten⟩ := exists_ok_of_any hwrites
  obtain rfl : first = "generated/a.dot" := by simpa using hreported
  obtain rfl : g.root = name := by simpa using hroot
  cases hrun : @renderToFile idlePrograms (oneEach g.root) settings none none "p/x/a.proto" with
  | mk result t' =>
    rw [hrun] at hfirst hlater hwritten
    obtain rfl : result = .ok "generated/a.dot" := hfirst
    have hopen' : t'.openGraph settings ("p/y/" ++ g.root) = .ok g := by
      rw [openGraph_alone hfile hinline hlater hload hparse (by simpa using hnone), hopen]
    cases hwrite : t'.writeDocument (outputPath settings g.root none none) document with
    | mk written t'' =>
      rw [hwrite] at hwritten
      cases written with
      | error e => cases hwritten
      | ok =>
        have hlast := @renderToFile_of_openGraph _ _ _ _ _ _ idlePrograms _ _ _ hpath hopen'
          hrender hwrite (drawAll_idlePrograms ..)
        refine ⟨t'', ?_⟩
        unfold runBatch
        rw [expandInput_oneEach settings hsettings g.root hname]
        dsimp only
        rw [if_neg (by simp)]
        simp only [runRoots, hrun, hlast]

/-! ## The batch -/

/-- The paths of two documents that are named after units with different stems. -/
def StemsDiffer (settings : Settings) (selection : Option String) (path path' : String) : Prop :=
  ∃ identifier identifier', path = outputPath settings identifier selection none ∧
    path' = outputPath settings identifier' selection none ∧ '/' ∉ identifier.toList ∧
    '/' ∉ identifier'.toList ∧ stemOfIdentifier identifier ≠ stemOfIdentifier identifier'

/-- Such paths are different names in one directory. -/
theorem StemsDiffer.exists_pieces {path' : String} (h : StemsDiffer settings selection path path') :
    ∃ before name name', Path.pieces path = before ++ [name] ∧ Path.IsName name ∧
      Path.pieces path' = before ++ [name'] ∧ Path.IsName name' ∧ name ≠ name' ∧
      Path.isAbsolute path = Path.isAbsolute path' := by
  obtain ⟨identifier, identifier', hpath, hpath', hslash, hslash', hstems⟩ := h
  rw [hpath, hpath']
  obtain ⟨before, hbefore⟩ := exists_pieces_outputPath settings selection
  obtain ⟨hpieces, habsolute⟩ := hbefore hslash
  obtain ⟨hpieces', habsolute'⟩ := hbefore hslash'
  exact ⟨before, _, _, hpieces, isName_of_dot_suffix (dot_suffix_outputFileName ..), hpieces',
    isName_of_dot_suffix (dot_suffix_outputFileName ..),
    fun heq => hstems (outputFileName_inj heq), habsolute.trans habsolute'.symm⟩

theorem StemsDiffer.ne {path' : String} (h : StemsDiffer settings selection path path') :
    path ≠ path' := by
  obtain ⟨before, name, name', hpieces, -, hpieces', -, hne, -⟩ := h.exists_pieces
  rintro rfl
  rw [hpieces, List.append_cancel_left_eq, List.cons.injEq] at hpieces'
  exact hne hpieces'.1

/-- They lead to different places, where no links are. -/
theorem StemsDiffer.locate_ne {path' : String} (h : StemsDiffer settings selection path path')
    {location : Location} (hplain : t.PlainAt path) (hplain' : t.PlainAt path')
    (hlocate : t.locate path = .ok location) : t.locate path' ≠ .ok location := by
  intro hlocate'
  obtain ⟨before, name, name', hpieces, hname, hpieces', hname', hne, habsolute⟩ := h.exists_pieces
  obtain ⟨around, haround, heq⟩ := exists_around hlocate hpieces hname hplain
  obtain ⟨around', haround', heq'⟩ := exists_around hlocate' hpieces' hname' hplain'
  -- Both names stand in the directory that the pieces before them lead to.
  have hstart : t.startOf path = t.startOf path' := by
    unfold startOf
    rw [habsolute]
  rw [hstart] at haround
  obtain rfl := haround.eq haround'
  rw [heq, List.append_cancel_left_eq, List.cons.injEq] at heq'
  exact hne heq'.1

/-- The runs of a batch, where several roots have no document name of their own. -/
theorem runBatch_eq_ok [Programs] {input : String}
    {results : List (String × Except GraphError String)}
    (h : t.runBatch settings selection output input = (.ok results, t')) :
    ∃ roots,
      results = t.runResults settings selection (if results.length = 1 then output else none)
        roots ∧
      t' = t.afterRuns settings selection (if results.length = 1 then output else none) roots := by
  unfold runBatch at h
  split at h
  · cases h
  · rename_i roots _
    obtain ⟨hresults, htree⟩ := Prod.mk.inj h
    have hresults := Except.ok.inj hresults
    have hlength : results.length = roots.length :=
      hresults ▸ length_runResults settings selection (if roots.length = 1 then output else none) t
        roots
    rw [hlength]
    exact ⟨roots, hresults.symm, htree.symm⟩

/-- **The documents of a batch keep apart** if the stems of the roots do, whatever programs draw the
images: no two runs report one path. After a batch of which the images are drawn beside the
documents, or that draws none, each document is at its path, as the run of its root has rendered it,
unless a link or a device has its name. -/
theorem runBatch_documents [Programs] {input : String}
    {results : List (String × Except GraphError String)}
    (h : t.runBatch settings selection output input = (.ok results, t'))
    (hstems : results.Pairwise fun r r' =>
      r.2.toOption.isSome → r'.2.toOption.isSome → rootStem r.1 ≠ rootStem r'.1) :
    (results.Pairwise fun r r' =>
      ∀ path path', r.2 = .ok path → r'.2 = .ok path' → path ≠ path') ∧
    ((∀ r ∈ results, DrawsBeside settings r.2) →
      (∀ r ∈ results, ∀ path, r.2 = .ok path → t.PlainAt path) →
      ∀ (before after : List (String × Except GraphError String)) (root path : String),
        results = before ++ (root, .ok path) :: after →
        ∃ g document,
          (t.afterRuns settings selection (if results.length = 1 then output else none)
            (before.map (·.1))).loadRoot settings root = .ok g ∧
          (g.render selection).1 = .ok document ∧ t'.readText path = .ok document) := by
  obtain ⟨roots, hresults, rfl⟩ := runBatch_eq_ok h
  generalize hoverride : (if results.length = 1 then output else none) = override at *
  -- Two runs make the batch one without a document name of its own.
  have hdiffer : results.Pairwise fun r r' => ∀ path path', r.2 = .ok path → r'.2 = .ok path' →
      StemsDiffer settings selection path path' := by
    by_cases hone : results.length = 1
    · obtain ⟨r, hr⟩ := List.length_eq_one_iff.1 hone
      rw [hr]
      exact List.pairwise_singleton _ r
    · rw [if_neg hone] at hoverride
      subst hoverride
      refine hstems.imp_of_mem fun {r r'} hr hr' hne path path' hok hok' => ?_
      rw [hresults] at hr hr'
      obtain ⟨hpath, hslash⟩ := path_of_mem_runResults hr hok
      obtain ⟨hpath', hslash'⟩ := path_of_mem_runResults hr' hok'
      exact ⟨_, _, hpath, hpath', hslash, hslash', hne (by rw [hok]; rfl) (by rw [hok']; rfl)⟩
  refine ⟨hdiffer.imp fun h path path' hok hok' => (h path path' hok hok').ne,
    fun hdraws hplain before after root path hsplit => ?_⟩
  subst hresults
  have hkeeps := keepsWays_afterRuns hdraws
  refine documents_of_runRoots hdraws hplain ?_ hsplit
  refine hdiffer.imp_of_mem fun {r r'} hr hr' h path path' location hok hok' hlocate => ?_
  exact (h path path' hok hok').locate_ne ((hplain r hr path hok).of_keepsWays hkeeps)
    ((hplain r' hr' path' hok').of_keepsWays hkeeps) hlocate

/-- Roots with different stems have both documents, also with images beside them. -/
theorem runBatch_differentStems : ∃ t' document document',
    @runBatch idlePrograms (oneEach "b.proto") drawnSettings none none "p" =
        (.ok [("p/x/a.proto", .ok "generated/a.dot"), ("p/y/b.proto", .ok "generated/b.dot")],
          t') ∧
      t'.readText "generated/a.dot" = .ok document ∧
      t'.readText "generated/b.dot" = .ok document' := by
  obtain ⟨t', h⟩ := runBatch_oneEach drawnSettings (by simp) "b.proto" (by simp)
  have hpath : outputPath drawnSettings "b.proto" none none = "generated/b.dot" := by
    decide +kernel
  rw [hpath, show "p/y/" ++ "b.proto" = "p/y/b.proto" by decide +kernel] at h
  have hvalues : (oneEach "b.proto").entries.values =
      [.directory, .directory, .file (.text "message A\x7b\x7d") false, .directory,
        .file (.text "message B\x7b\x7d") false] := by
    decide +kernel
  have hstems : rootStem "p/x/a.proto" ≠ rootStem "p/y/b.proto" := by decide +kernel
  have hspares : @SparesDocuments idlePrograms drawnSettings.dotCommand := fun t _ _ => .refl t
  let := idlePrograms
  obtain ⟨-, hdocuments⟩ := runBatch_documents h (by simpa using fun _ _ => hstems)
  have hdocuments := hdocuments (by simp [DrawsBeside, hspares])
    fun r _ path _ name _ around => isPlain_of_values (by simp [hvalues])
  obtain ⟨_, document, -, -, hread⟩ := hdocuments [] _ _ _ rfl
  obtain ⟨_, document', -, -, hread'⟩ := hdocuments [_] _ _ _ rfl
  exact ⟨t', document, document', h, hread, hread'⟩

/-- Roots with one stem report one path. -/
theorem runBatch_sameStem : ∃ t',
    @runBatch idlePrograms (oneEach "a.proto") .standard none none "p" =
      (.ok [("p/x/a.proto", .ok "generated/a.dot"), ("p/y/a.proto", .ok "generated/a.dot")],
        t') := by
  obtain ⟨t', h⟩ := runBatch_oneEach .standard (by simp) "a.proto" (by simp)
  have hpath : outputPath .standard "a.proto" none none = "generated/a.dot" := by decide +kernel
  rw [hpath, show "p/y/" ++ "a.proto" = "p/y/a.proto" by decide +kernel] at h
  exact ⟨t', h⟩

end FileTree

end SchemaGraph
