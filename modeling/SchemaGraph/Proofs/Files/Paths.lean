import SchemaGraph.Files.Path
import SchemaGraph.Proofs.Name.Scopes
/-!
# The pieces of a path

A path is its pieces with slashes between them, both ways (`ofPieces_pieces`, `pieces_ofPieces`).
The file name of a path and the path around it are put together by `beside`, which leaves out blank
pieces of the path only (`beside_of_fileName?`).
-/

namespace SchemaGraph.Path

/-- A piece of a path that stays where it is. -/
def IsBlank (piece : String) : Prop :=
  piece = "" ∨ piece = "."

/-- A piece of a path that leads on to an entry of its own name. -/
structure IsName (piece : String) : Prop where
  not_blank : ¬ IsBlank piece
  not_up : piece ≠ ".."

variable {path name : String}

/-! ## Pieces -/

theorem pieces_ne_nil (path : String) : pieces path ≠ [] := by
  unfold pieces Text.split
  simpa using Name.splitAt_ne_nil _ path.toList

theorem pieces_append (path path' : String) :
    pieces (path ++ "/" ++ path') = pieces path ++ pieces path' := by
  unfold pieces Text.split
  rw [String.toList_append, String.toList_append, List.append_assoc]
  exact (congrArg _ (Name.splitAt_append (by rfl) _ _)).trans (List.map_append ..)

theorem pieces_eq_singleton (h : '/' ∉ name.toList) : pieces name = [name] := by
  unfold pieces Text.split
  rw [Name.splitAt_eq_singleton fun c hc => ?_]
  · simp
  · have hne : c ≠ '/' := fun heq => h (heq ▸ hc)
    simpa using hne

theorem ofPieces_pieces (path : String) : ofPieces (pieces path) = path := by
  rw [← String.toList_inj, ofPieces, String.toList_intercalate, pieces, Text.split, List.map_map]
  simp [Function.comp_def, Name.intercalate_splitAt]

theorem ofPieces_cons {first : String} {others : List String} (h : others ≠ []) :
    ofPieces (first :: others) = first ++ "/" ++ ofPieces others := by
  cases others with
  | nil => exact absurd rfl h
  | cons second others =>
    rw [← String.toList_inj, ofPieces, ofPieces, String.toList_append, String.toList_append,
      String.toList_intercalate, String.toList_intercalate]
    simp [List.intercalate_cons_cons]

theorem ofPieces_concat {ps : List String} (h : ps ≠ []) (name : String) :
    ofPieces (ps ++ [name]) = ofPieces ps ++ "/" ++ name := by
  induction ps with
  | nil => exact absurd rfl h
  | cons first others ih =>
    by_cases hothers : others = []
    · subst hothers
      exact ofPieces_cons (by simp)
    · rw [List.cons_append, ofPieces_cons (by simp), ih hothers, ofPieces_cons hothers]
      simp only [String.append_assoc]

theorem pieces_ofPieces {ps : List String} (hne : ps ≠ []) (h : ∀ p ∈ ps, '/' ∉ p.toList) :
    pieces (ofPieces ps) = ps := by
  induction ps with
  | nil => exact absurd rfl hne
  | cons first others ih =>
    have hfirst := pieces_eq_singleton (h first List.mem_cons_self)
    by_cases hothers : others = []
    · subst hothers
      exact hfirst
    · rw [ofPieces_cons hothers, pieces_append, hfirst,
        ih hothers fun p hp => h p (List.mem_cons_of_mem _ hp)]
      rfl

theorem slash_not_mem_of_mem_splitAt {cs piece : List Char}
    (h : piece ∈ Text.splitAt (· == '/') cs) : '/' ∉ piece := by
  induction cs generalizing piece with
  | nil =>
    cases List.mem_singleton.1 h
    simp
  | cons c cs ih =>
    rw [Text.splitAt] at h
    split at h
    · rcases List.mem_cons.1 h with rfl | h
      · simp
      · exact ih h
    · rename_i hc
      split at h
      · rename_i hsplit
        exact absurd hsplit (Name.splitAt_ne_nil _ cs)
      · rename_i first others hsplit
        rw [hsplit] at ih
        rcases List.mem_cons.1 h with rfl | h
        · have hfirst := ih List.mem_cons_self
          have hne : '/' ≠ c := by
            rintro rfl
            exact hc (by rfl)
          simp [hne, hfirst]
        · exact ih (List.mem_cons_of_mem _ h)

theorem slash_not_mem_of_mem_pieces {piece : String} (h : piece ∈ pieces path) :
    '/' ∉ piece.toList := by
  obtain ⟨cs, hcs, rfl⟩ := List.mem_map.1 h
  rw [String.toList_ofList]
  exact slash_not_mem_of_mem_splitAt hcs

/-- An absolute path has an empty piece before the others. -/
theorem isAbsolute_iff (path : String) :
    isAbsolute path = true ↔ (pieces path).head? = some "" ∧ 2 ≤ (pieces path).length := by
  unfold isAbsolute pieces Text.split
  rw [List.length_map, List.head?_map, decide_eq_true_eq]
  cases path.toList with
  | nil => simp [Text.splitAt]
  | cons c cs =>
    rw [Text.splitAt]
    have hpos := List.length_pos_iff.2 (Name.splitAt_ne_nil (· == '/') cs)
    split
    · rename_i hc
      simp [beq_iff_eq.1 hc]
      omega
    · rename_i hc
      have hne : c ≠ '/' := by simpa using hc
      split <;> simp [hne]

theorem isAbsolute_of_slash_not_mem (h : '/' ∉ name.toList) : isAbsolute name = false := by
  unfold isAbsolute
  rw [decide_eq_false_iff_not]
  exact fun hhead => h (List.mem_of_mem_head? hhead)

/-- Only the first piece counts where it is not the only one. -/
theorem isAbsolute_congr {path' first : String} {others others' : List String}
    (h : pieces path = first :: others) (h' : pieces path' = first :: others')
    (hothers : others ≠ []) (hothers' : others' ≠ []) : isAbsolute path = isAbsolute path' := by
  have hpos := List.length_pos_iff.2 hothers
  have hpos' := List.length_pos_iff.2 hothers'
  have hlength : 2 ≤ (first :: others).length := by
    rw [List.length_cons]
    omega
  have hlength' : 2 ≤ (first :: others').length := by
    rw [List.length_cons]
    omega
  rw [Bool.eq_iff_iff, isAbsolute_iff, isAbsolute_iff, h, h', and_iff_left hlength,
    and_iff_left hlength']
  rfl

theorem isAbsolute_append (h : path ≠ "") (path' : String) :
    isAbsolute (path ++ path') = isAbsolute path := by
  unfold isAbsolute
  rw [String.toList_append]
  cases hcs : path.toList with
  | nil => exact absurd (String.toList_inj.1 (hcs.trans String.toList_empty.symm)) h
  | cons c cs => rfl

theorem intercalate_sublist {α : Type} (sep : List α) {xs ys : List (List α)}
    (h : xs.Sublist ys) : (sep.intercalate xs).Sublist (sep.intercalate ys) := by
  induction h with
  | slnil => exact .refl _
  | @cons xs ys first h ih =>
    cases ys with
    | nil =>
      rw [List.sublist_nil.1 h]
      exact List.nil_sublist _
    | cons second ys =>
      rw [List.intercalate_cons_cons]
      exact ih.trans (List.sublist_append_right _ _)
  | @cons_cons xs ys first h ih =>
    cases xs with
    | nil =>
      rw [List.intercalate_singleton]
      cases ys with
      | nil => exact List.intercalate_singleton ▸ .refl _
      | cons second ys =>
        rw [List.intercalate_cons_cons, List.append_assoc]
        exact List.sublist_append_left _ _
    | cons second xs =>
      cases ys with
      | nil => cases h
      | cons third ys =>
        rw [List.intercalate_cons_cons, List.intercalate_cons_cons]
        exact (List.Sublist.refl _).append ih

/-- Fewer pieces make a shorter path. -/
theorem ofPieces_sublist {ps ps' : List String} (h : ps.Sublist ps') :
    (ofPieces ps).toList.Sublist (ofPieces ps').toList := by
  rw [ofPieces, ofPieces, String.toList_intercalate, String.toList_intercalate]
  exact intercalate_sublist _ (h.map _)

/-! ## Joining -/

theorem join_empty (h : '/' ∉ name.toList) : join "" name = name := by
  unfold join
  rw [isAbsolute_of_slash_not_mem h, if_neg (by decide), if_pos (.inl rfl), String.empty_append]

theorem join_of_closed {base : String} (hend : base.toList.getLast? = some '/')
    (h : '/' ∉ name.toList) : join base name = base ++ name := by
  unfold join
  rw [isAbsolute_of_slash_not_mem h, if_neg (by decide), if_pos (.inr hend)]

theorem join_of_open {base : String} (hempty : base ≠ "") (hend : base.toList.getLast? ≠ some '/')
    (h : '/' ∉ name.toList) : join base name = base ++ "/" ++ name := by
  unfold join
  rw [isAbsolute_of_slash_not_mem h, if_neg (by decide), if_neg (not_or.2 ⟨hempty, hend⟩)]

theorem getLast?_ofPieces_concat (ps : List String) (h : name ≠ "") :
    (ofPieces (ps ++ [name])).toList.getLast? = name.toList.getLast? := by
  have hne : name.toList ≠ [] := fun hnone => h (by simpa using hnone)
  by_cases hps : ps = []
  · subst hps
    rfl
  · rw [ofPieces_concat hps, String.toList_append, List.getLast?_append_of_ne_nil _ hne]

/-- A path that ends with a name is joined by a slash. -/
theorem join_ofPieces (ps : List String) {last : String} (hlast : last ≠ "")
    (hslash : '/' ∉ last.toList) (hname : '/' ∉ name.toList) :
    join (ofPieces (ps ++ [last])) name = ofPieces (ps ++ [last]) ++ "/" ++ name := by
  have hend := getLast?_ofPieces_concat ps hlast
  have hne : ofPieces (ps ++ [last]) ≠ "" := by
    intro hempty
    rw [hempty, String.toList_empty, List.getLast?_nil, eq_comm, List.getLast?_eq_none_iff] at hend
    exact hlast (by simpa using hend)
  have hopen : (ofPieces (ps ++ [last])).toList.getLast? ≠ some '/' := by
    rw [hend]
    exact fun hmem => hslash (List.mem_of_getLast? hmem)
  exact join_of_open hne hopen hname

/-- What a path without slashes is joined with comes before it, whatever the path. -/
theorem exists_pieces_join (base : String) :
    ∃ before, ∀ {name : String}, '/' ∉ name.toList →
      pieces (join base name) = before ++ [name] ∧
        isAbsolute (join base name) = isAbsolute base := by
  by_cases hempty : base = ""
  · subst hempty
    refine ⟨[], fun {name} hslash => ?_⟩
    rw [join_empty hslash, pieces_eq_singleton hslash, isAbsolute_of_slash_not_mem hslash]
    exact ⟨rfl, rfl⟩
  · by_cases hend : base.toList.getLast? = some '/'
    · obtain ⟨cs, hcs⟩ := List.getLast?_eq_some_iff.1 hend
      have hbase : base = String.ofList cs ++ "/" := by
        rw [← String.toList_inj, hcs, String.toList_append, String.toList_ofList]
        rfl
      refine ⟨pieces (String.ofList cs), fun {name} hslash => ?_⟩
      rw [join_of_closed hend hslash, isAbsolute_append hempty, hbase, pieces_append,
        pieces_eq_singleton hslash]
      exact ⟨rfl, rfl⟩
    · refine ⟨pieces base, fun {name} hslash => ?_⟩
      rw [join_of_open hempty hend hslash, String.append_assoc, isAbsolute_append hempty,
        ← String.append_assoc, pieces_append, pieces_eq_singleton hslash]
      exact ⟨rfl, rfl⟩

/-! ## The last component -/

theorem exists_dropBlank (ps : List String) :
    ∃ blanks, ps = blanks ++ dropBlank ps ∧ ∀ piece ∈ blanks, IsBlank piece := by
  fun_induction dropBlank ps with
  | case1 => exact ⟨[], rfl, by simp⟩
  | case2 => exact ⟨[""], rfl, by simp [IsBlank]⟩
  | case3 first h => exact ⟨[], rfl, by simp⟩
  | case4 piece before others h ih =>
    obtain ⟨blanks, heq, hblanks⟩ := ih
    refine ⟨piece :: blanks, congrArg _ heq, fun p hp => ?_⟩
    rcases List.mem_cons.1 hp with rfl | hp
    · exact h
    · exact hblanks p hp
  | case5 piece before others h => exact ⟨[], rfl, by simp⟩

/-- What is left starts with a component. Only at the start of a path may it be a dot. -/
theorem dropBlank_ne_empty {ps rest : List String} {first : String}
    (h : dropBlank ps = first :: rest) : first ≠ "" := by
  fun_induction dropBlank ps with
  | case1 => cases h
  | case2 => cases h
  | case3 first' hne =>
    cases h
    exact hne
  | case4 piece before others _ ih => exact ih h
  | case5 piece before others hne =>
    cases h
    exact fun heq => hne (.inl heq)

/-- Nothing is left of pieces only if the first one of the path is empty. -/
theorem getLast?_of_dropBlank {ps : List String} (h : dropBlank ps = []) :
    ps = [] ∨ ps.getLast? = some "" := by
  fun_induction dropBlank ps with
  | case1 => exact .inl rfl
  | case2 => exact .inr rfl
  | case3 => cases h
  | case4 piece before others _ ih =>
    rcases ih h with hnone | hlast
    · cases hnone
    · exact .inr (List.getLast?_cons_cons.trans hlast)
  | case5 => cases h

/-- The path of the file name, around it what stands around it in the path. -/
def beside (path name : String) : String :=
  join ((parent? path).getD "") name


theorem isName_of_fileName? (h : fileName? path = some name) : IsName name := by
  unfold fileName? at h
  split at h
  · cases h
  · rename_i first before hreversed
    split at h
    · cases h
    · rename_i hdots
      cases h
      rw [not_or] at hdots
      refine ⟨?_, hdots.2⟩
      rintro (hempty | hdot)
      · exact dropBlank_ne_empty hreversed hempty
      · exact hdots.1 hdot

theorem pieces_of_fileName? (h : fileName? path = some name) :
    ∃ around trailing, reversed path = name :: around ∧
      pieces path = around.reverse ++ name :: trailing ∧ ∀ piece ∈ trailing, IsBlank piece := by
  unfold fileName? at h
  split at h
  · cases h
  · rename_i first around hreversed
    split at h
    · cases h
    · cases h
      obtain ⟨trailing, hpieces, htrailing⟩ := exists_dropBlank (pieces path).reverse
      rw [← reversed, hreversed, List.reverse_eq_iff, List.reverse_append, List.reverse_cons,
        List.append_assoc] at hpieces
      exact ⟨around, trailing.reverse, hreversed, hpieces,
        fun piece hmem => htrailing piece (List.mem_reverse.1 hmem)⟩

theorem mem_pieces_of_fileName? (h : fileName? path = some name) : name ∈ pieces path := by
  obtain ⟨around, trailing, -, hpieces, -⟩ := pieces_of_fileName? h
  rw [hpieces]
  simp

theorem slash_not_mem_of_fileName? (h : fileName? path = some name) : '/' ∉ name.toList :=
  slash_not_mem_of_mem_pieces (mem_pieces_of_fileName? h)

theorem fileName?_sublist (h : fileName? path = some name) :
    name.toList.Sublist path.toList := by
  have hsub := ofPieces_sublist (List.singleton_sublist.2 (mem_pieces_of_fileName? h))
  rwa [ofPieces_pieces] at hsub

/-- A file at the root of the file system. -/
theorem beside_of_root {around trailing : List String} (hreversed : reversed path = name :: around)
    (hpieces : pieces path = around.reverse ++ name :: trailing) (hkept : dropBlank around = [])
    (hname : name ≠ "") (hslash : '/' ∉ name.toList) (habsolute : isAbsolute path = true) :
    beside path name = "" ++ "/" ++ name ∧ ∃ others, around.reverse = "" :: others := by
  constructor
  · unfold beside parent?
    rw [hreversed]
    dsimp only
    rw [hkept, if_pos habsolute, Option.getD_some]
    exact join_of_closed rfl hslash
  · obtain ⟨hhead, -⟩ := (isAbsolute_iff path).1 habsolute
    rw [hpieces] at hhead
    cases hfirst : around.reverse with
    | nil =>
      rw [hfirst] at hhead
      exact absurd (Option.some.inj hhead) hname
    | cons first others =>
      rw [hfirst] at hhead
      exact ⟨others, congrArg (· :: others) (Option.some.inj hhead)⟩

/-- A file in the working directory. -/
theorem beside_of_alone {around trailing : List String} (hreversed : reversed path = name :: around)
    (hpieces : pieces path = around.reverse ++ name :: trailing) (hkept : dropBlank around = [])
    (hslash : '/' ∉ name.toList) (habsolute : isAbsolute path = false) :
    beside path name = name ∧ around = [] := by
  constructor
  · unfold beside parent?
    rw [hreversed]
    dsimp only
    rw [hkept, habsolute, if_neg (by decide), Option.getD_some]
    exact join_empty hslash
  · -- With pieces before the file name the first one would be empty and the path absolute.
    refine (getLast?_of_dropBlank hkept).resolve_right fun hlast => ?_
    have hpos : 0 < around.length := List.length_pos_iff.2 (by rintro rfl; cases hlast)
    have hsome : isAbsolute path = true := by
      rw [isAbsolute_iff, hpieces, List.head?_append, List.head?_reverse, hlast]
      refine ⟨rfl, ?_⟩
      rw [List.length_append, List.length_reverse, List.length_cons]
      omega
    rw [habsolute] at hsome
    cases hsome

/-- A file below a directory with a name. -/
theorem beside_of_directory {around others : List String} {last : String}
    (hreversed : reversed path = name :: around) (hkept : dropBlank around = last :: others)
    (hlast : '/' ∉ last.toList) (hslash : '/' ∉ name.toList) :
    beside path name = ofPieces (last :: others).reverse ++ "/" ++ name := by
  unfold beside parent?
  rw [hreversed]
  dsimp only
  rw [hkept]
  dsimp only
  rw [Option.getD_some, List.reverse_cons]
  exact join_ofPieces others.reverse (dropBlank_ne_empty hkept) hlast hslash

/-- Nothing but blank pieces stand between the path around the file name and the file name, and
after it. -/
theorem beside_of_fileName? (h : fileName? path = some name) :
    ∃ before blanks trailing, pieces path = before ++ (blanks ++ name :: trailing) ∧
      (∀ piece ∈ blanks, IsBlank piece) ∧ (∀ piece ∈ trailing, IsBlank piece) ∧
      pieces (beside path name) = before ++ [name] ∧
      isAbsolute (beside path name) = isAbsolute path := by
  have hname : name ≠ "" := fun heq => (isName_of_fileName? h).not_blank (.inl heq)
  obtain ⟨around, trailing, hreversed, hpieces, htrailing⟩ := pieces_of_fileName? h
  obtain ⟨blanks, haround, hblanks⟩ := exists_dropBlank around
  have hslash {piece : String} (hmem : piece ∈ around ∨ piece = name) : '/' ∉ piece.toList := by
    have hpiece : piece ∈ pieces path := by
      rw [hpieces, List.mem_append, List.mem_reverse, List.mem_cons, ← or_assoc]
      exact .inl hmem
    exact slash_not_mem_of_mem_pieces hpiece
  have hself := pieces_eq_singleton (hslash (.inr rfl))
  cases hkept : dropBlank around with
  | nil =>
    rw [hkept, List.append_nil] at haround
    cases habsolute : isAbsolute path with
    | true =>
      obtain ⟨hbeside, others, hfirst⟩ :=
        beside_of_root hreversed hpieces hkept hname (hslash (.inr rfl)) habsolute
      refine ⟨[""], others, trailing, by rw [hpieces, hfirst]; rfl, fun piece hmem => ?_,
        htrailing, ?_, ?_⟩
      · refine hblanks piece (haround ▸ List.mem_reverse.1 ?_)
        rw [hfirst]
        exact List.mem_cons_of_mem _ hmem
      · rw [hbeside, pieces_append, hself]
        rfl
      · rw [hbeside, isAbsolute_iff, pieces_append, hself]
        exact ⟨rfl, Nat.le_refl 2⟩
    | false =>
      obtain ⟨hbeside, rfl⟩ :=
        beside_of_alone hreversed hpieces hkept (hslash (.inr rfl)) habsolute
      rw [hbeside]
      exact ⟨[], [], trailing, hpieces, by simp, htrailing, hself,
        isAbsolute_of_slash_not_mem (hslash (.inr rfl))⟩
  | cons last others =>
    have hmem : ∀ piece ∈ last :: others, piece ∈ around := fun piece hpiece => by
      rw [haround, hkept]
      exact List.mem_append_right _ hpiece
    have hbeside := beside_of_directory hreversed hkept
      (hslash (.inl (hmem last List.mem_cons_self))) (hslash (.inr rfl))
    have hall : pieces path =
        (last :: others).reverse ++ (blanks.reverse ++ name :: trailing) := by
      rw [hpieces, haround, hkept, List.reverse_append, List.append_assoc]
    have hbefore : pieces (beside path name) = (last :: others).reverse ++ [name] := by
      rw [hbeside, pieces_append, hself,
        pieces_ofPieces (by simp) fun p hp => hslash (.inl (hmem p (List.mem_reverse.1 hp)))]
    refine ⟨_, blanks.reverse, trailing, hall,
      fun piece hpiece => hblanks piece (List.mem_reverse.1 hpiece), htrailing, hbefore, ?_⟩
    obtain ⟨first, more, hfirst⟩ := List.exists_cons_of_ne_nil (l := (last :: others).reverse)
      (by simp)
    rw [hfirst] at hbefore hall
    exact isAbsolute_congr hbefore hall (by simp) (by simp)

/-! ## Paths that end with a name -/

/-- A path that ends with a name has that name as its file name. -/
theorem fileName?_of_pieces {before : List String} (hname : IsName name)
    (h : pieces path = before ++ [name]) : fileName? path = some name := by
  obtain ⟨hblank, hup⟩ := hname
  obtain ⟨hempty, hdot⟩ := not_or.1 hblank
  have hreversed : reversed path = name :: before.reverse := by
    unfold reversed
    rw [h, List.reverse_concat]
    cases before.reverse with
    | nil =>
      rw [dropBlank]
      exact if_neg hempty
    | cons second others =>
      rw [dropBlank]
      exact if_neg hblank
  unfold fileName?
  rw [hreversed]
  exact if_neg (not_or.2 ⟨hdot, hup⟩)

/-- What a path ends with, its last piece ends with, if there is no slash in it. -/
theorem exists_pieces_of_suffix {ending : List Char} (h : ending <:+ path.toList)
    (hslash : '/' ∉ ending) :
    ∃ before name, pieces path = before ++ [name] ∧ ending <:+ name.toList := by
  rcases List.eq_nil_or_concat (pieces path) with hnone | ⟨before, name, hpieces⟩
  · exact absurd hnone (pieces_ne_nil path)
  · rw [List.concat_eq_append] at hpieces
    refine ⟨before, name, hpieces, ?_⟩
    have hpath := ofPieces_pieces path
    rw [hpieces] at hpath
    by_cases hbefore : before = []
    · subst hbefore
      exact (show path = name from hpath.symm) ▸ h
    · have hlist : path.toList = (ofPieces before).toList ++ '/' :: name.toList := by
        rw [← hpath, ofPieces_concat hbefore, String.toList_append, String.toList_append]
        simp
      rw [hlist] at h
      have hname : name.toList <:+ (ofPieces before).toList ++ '/' :: name.toList :=
        (List.suffix_cons _ _).trans (List.suffix_append _ _)
      -- A longer ending would have the slash before the name.
      by_cases hlength : ending.length ≤ name.toList.length
      · exact List.suffix_of_suffix_length_le h hname hlength
      · have hlonger : '/' :: name.toList <:+ ending :=
          List.suffix_of_suffix_length_le (List.suffix_append _ _) h
            (by rw [List.length_cons]; omega)
        exact absurd (hlonger.subset List.mem_cons_self) hslash

/-- The stem of a file name is part of it. -/
theorem stemOf_sublist (name : String) : (stemOf name).toList.Sublist name.toList := by
  unfold stemOf
  split
  · rename_i last before others hreversed
    split
    · exact .refl _
    · rw [String.toList_ofList]
      have hsplit : Text.splitAt (· == '.') name.toList = (before :: others).reverse ++ [last] := by
        rw [← List.reverse_cons, ← hreversed, List.reverse_reverse]
      have hsub := intercalate_sublist ['.'] (List.sublist_append_left (before :: others).reverse
        [last])
      rwa [← hsplit, Name.intercalate_splitAt] at hsub
  · exact .refl _

end SchemaGraph.Path
