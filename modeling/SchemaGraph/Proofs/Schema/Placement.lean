import SchemaGraph.Proofs.Schema.Comments
import SchemaGraph.Proofs.Token.Appending
/-!
# Lexemes inside a longer text

A `Placement` says where lexemes stand in a longer text: how far down, and what follows them. A
semicolon or a closing brace ends what it stands in, and no construct is read past its own end. So
while an end is among the lexemes (`HasEnd`), what comes next is the same at a placement, and the
tokens ahead are the same up to the end (`SameStart`); no test on them asks for more.
-/

namespace SchemaGraph

open Reader

/-- Where lexemes stand: `lines` lines and `bytes` bytes further down, and before `after`. -/
structure Placement where
  lines : Nat
  bytes : Nat
  after : List Lexeme

/-- The lexemes where they stand, and what follows them. -/
def Placement.place (s : Placement) (ts : List Lexeme) : List Lexeme :=
  ts.map (Lexeme.down s.lines s.bytes) ++ s.after

/-- Whether the token ends a statement or a body. -/
def Token.ends : Token → Bool
  | mark .semi | mark .rightBrace => true
  | _ => false

/-- The end of a statement or of a body is among the lexemes. -/
def HasEnd (ts : List Lexeme) : Prop :=
  ∃ t ∈ ts, t.token.ends = true

/-- Two runs of at most `n` tokens are the same up to the first end in them, if they are not the
same altogether. -/
inductive SameStart (n : Nat) : (start start' : List Token) → Prop where
  | same {start : List Token} : SameStart n start start
  | ended {u v w : List Token} {t : Token} (ht : t.ends = true) (hlength : u.length + 1 < n) :
      SameStart n (u ++ t :: v) (u ++ t :: w)

theorem Token.isComment_of_ends {t : Token} (h : t.ends = true) : t.isComment = false := by
  cases t with
  | mark m => rfl
  | _ => cases h

section

variable {s : Placement} {t : Lexeme} {ts rest : List Lexeme}

theorem HasEnd.of_suffix (h : HasEnd rest) (hsuffix : rest <:+ ts) : HasEnd ts := by
  obtain ⟨t, ht, hend⟩ := h
  exact ⟨t, hsuffix.mem ht, hend⟩

theorem HasEnd.cons (h : HasEnd ts) (t : Lexeme) : HasEnd (t :: ts) :=
  h.of_suffix (List.suffix_cons t ts)

theorem not_hasEnd_nil : ¬ HasEnd [] := by
  rintro ⟨t, ht, -⟩
  cases ht

theorem place_cons (s : Placement) (t : Lexeme) (ts : List Lexeme) :
    s.place (t :: ts) = t.down s.lines s.bytes :: s.place ts :=
  rfl

theorem length_le_place (s : Placement) (ts : List Lexeme) : ts.length ≤ (s.place ts).length := by
  rw [Placement.place, List.length_append, List.length_map]
  exact Nat.le_add_right ..

theorem significant_place (s : Placement) (ts : List Lexeme) : significant (s.place ts) =
    (significant ts).map (Lexeme.down s.lines s.bytes) ++ significant s.after := by
  unfold significant Placement.place
  rw [List.filter_append, List.filter_map]
  rfl

theorem significantTokens_place (s : Placement) (ts : List Lexeme) :
    significantTokens (s.place ts) = significantTokens ts ++ significantTokens s.after := by
  rw [significantTokens, significant_place, List.map_append, List.map_map]
  rfl

/-- What comes next is where it stands. -/
theorem HasEnd.exists_skipComments (h : HasEnd ts) (s : Placement) :
    ∃ t rest, skipComments ts = t :: rest ∧
      skipComments (s.place ts) = t.down s.lines s.bytes :: s.place rest := by
  induction ts with
  | nil => exact absurd h not_hasEnd_nil
  | cons t ts ih =>
    by_cases ht : t.token.isComment = true
    · have hrest : HasEnd ts := by
        obtain ⟨t', ht', hend⟩ := h
        rcases List.mem_cons.1 ht' with rfl | ht'
        · rw [Token.isComment_of_ends hend] at ht
          cases ht
        · exact ⟨t', ht', hend⟩
      obtain ⟨t', rest, hskip, hskip'⟩ := ih hrest
      refine ⟨t', rest, ?_, ?_⟩
      · rw [← hskip]
        exact List.dropWhile_cons_of_pos ht
      · rw [← hskip']
        exact List.dropWhile_cons_of_pos ht
    · exact ⟨t, ts, List.dropWhile_cons_of_neg ht, List.dropWhile_cons_of_neg ht⟩

theorem HasEnd.peek_place (h : HasEnd ts) (s : Placement) : peek (s.place ts) = peek ts := by
  obtain ⟨t, rest, hskip, hskip'⟩ := h.exists_skipComments s
  rw [peek, peek, hskip, hskip']
  rfl

theorem HasEnd.nextLine?_place (h : HasEnd ts) (s : Placement) :
    nextLine? (s.place ts) = (nextLine? ts).map (· + s.lines) := by
  obtain ⟨t, rest, hskip, hskip'⟩ := h.exists_skipComments s
  rw [nextLine?, nextLine?, hskip, hskip']
  rfl

theorem HasEnd.exists_nextLine? (h : HasEnd ts) : ∃ line, nextLine? ts = some line := by
  obtain ⟨t, rest, hskip, -⟩ := h.exists_skipComments ⟨0, 0, []⟩
  exact ⟨t.line, by rw [nextLine?, hskip]; rfl⟩

theorem HasEnd.advance_place (h : HasEnd ts) (s : Placement) :
    Reader.advance (s.place ts) = .ok ((), s.place (skipComments ts).tail) := by
  obtain ⟨t, rest, hskip, hskip'⟩ := h.exists_skipComments s
  rw [Reader.advance, hskip, hskip']
  rfl

/-- An end comes among the tokens ahead. -/
theorem HasEnd.significantTokens_eq (h : HasEnd ts) :
    ∃ u t v, significantTokens ts = u ++ t :: v ∧ t.ends = true := by
  obtain ⟨t, ht, hend⟩ := h
  have hmem : t.token ∈ significantTokens ts := by
    refine List.mem_map_of_mem (List.mem_filter.2 ⟨ht, ?_⟩)
    rw [Token.isComment_of_ends hend]
    rfl
  obtain ⟨u, v, huv⟩ := List.append_of_mem hmem
  exact ⟨u, t.token, v, huv, hend⟩

theorem HasEnd.sameStart_ahead (h : HasEnd ts) (s : Placement) (n : Nat) :
    SameStart n (ahead n ts) (ahead n (s.place ts)) := by
  obtain ⟨u, t, v, hcut, hend⟩ := h.significantTokens_eq
  have hahead (ts : List Lexeme) : ahead n ts = (significantTokens ts).take n :=
    ahead_eq_significant n
  rw [hahead, hahead, significantTokens_place, hcut, List.append_assoc, List.cons_append]
  by_cases hn : n ≤ u.length + 1
  · -- All that is looked at stands before the end or is it.
    have htake (w : List Token) : (u ++ t :: w).take n = (u ++ [t]).take n := by
      rw [← List.singleton_append, ← List.append_assoc]
      exact List.take_append_of_le_length (by simpa using hn)
    rw [htake v, htake (v ++ _)]
    exact .same
  · obtain ⟨k, rfl⟩ := Nat.exists_eq_add_of_lt (Nat.lt_of_not_le hn)
    have htake (w : List Token) : (u ++ t :: w).take (u.length + 1 + k + 1) =
        u ++ t :: w.take (k + 1) := by
      rw [Nat.add_assoc, Nat.add_assoc, List.take_length_add_append, Nat.add_comm 1,
        List.take_succ_cons]
    rw [htake v, htake (v ++ _)]
    exact .ended hend (by omega)

theorem HasEnd.sameStart_allAhead (h : HasEnd ts) (s : Placement) :
    ∃ n, SameStart n (ahead ts.length ts) (ahead (s.place ts).length (s.place ts)) := by
  obtain ⟨u, t, v, hcut, hend⟩ := h.significantTokens_eq
  have hall (ts : List Lexeme) : ahead ts.length ts = significantTokens ts :=
    ahead_length (length_significant_le ts)
  rw [hall, hall, significantTokens_place, hcut, List.append_assoc, List.cons_append]
  exact ⟨u.length + 2, .ended hend (by omega)⟩

end

/-! ## What the first tokens say -/

namespace SameStart

variable {n : Nat} {start start' : List Token}

theorem symm (h : SameStart n start start') : SameStart n start' start := by
  cases h with
  | same => exact .same
  | ended ht hlength => exact .ended ht hlength

/-- What carries over from one of the two runs to the other holds of both or of none. -/
theorem iff {p : List Token → Prop} (h : SameStart n start start')
    (hp : ∀ start start', SameStart n start start' → p start → p start') : p start ↔ p start' :=
  ⟨hp _ _ h, hp _ _ h.symm⟩

/-- The first tokens are the same, and those behind it have the same start if it is no end. -/
theorem uncons {t : Token} (h : SameStart n (t :: start) start') :
    ∃ rest, start' = t :: rest ∧ (t.ends = false → SameStart (n - 1) start rest) := by
  generalize hstart : t :: start = whole at h
  cases h with
  | same =>
    subst hstart
    exact ⟨start, rfl, fun _ => .same⟩
  | @ended u v w t' ht' hlength =>
    cases u with
    | nil =>
      obtain ⟨rfl, rfl⟩ := List.cons.inj hstart
      exact ⟨w, rfl, fun ht => by rw [ht] at ht'; cases ht'⟩
    | cons a u =>
      obtain ⟨rfl, rfl⟩ := List.cons.inj hstart
      exact ⟨u ++ t' :: w, rfl, fun _ => .ended ht' (Nat.lt_sub_of_add_lt hlength)⟩

theorem head?_eq (h : SameStart n start start') : start.head? = start'.head? := by
  cases h with
  | same => rfl
  | @ended u => cases u <;> rfl

/-- Two tokens that are not the same start with an end. -/
theorem eq_of_two {t : Token} (h : SameStart 2 start start') (hhead : start.head? = some t)
    (ht : t.ends = false) : start = start' := by
  cases h with
  | same => rfl
  | @ended u v w t' ht' hlength =>
    obtain rfl : u = [] := List.length_eq_zero_iff.1 (by omega)
    obtain rfl := Option.some.inj hhead
    rw [ht] at ht'
    cases ht'

theorem opensDeclaration_of {keyword : String} (h : SameStart n start start')
    (hopens : opensDeclaration keyword start = true) :
    opensDeclaration keyword start' = true := by
  unfold opensDeclaration at hopens
  split at hopens
  · obtain ⟨_, rfl, h₁⟩ := h.uncons
    obtain ⟨_, rfl, h₂⟩ := (h₁ rfl).uncons
    obtain ⟨_, rfl, -⟩ := (h₂ rfl).uncons
    exact hopens
  · cases hopens

theorem opensDeclaration_iff (h : SameStart n start start') (keyword : String) :
    opensDeclaration keyword start = true ↔ opensDeclaration keyword start' = true :=
  h.iff fun _ _ => opensDeclaration_of

theorem opensGroup_of (h : SameStart n start start') (hopens : opensGroup start = true) :
    opensGroup start' = true := by
  unfold opensGroup at hopens
  split at hopens
  · obtain ⟨_, rfl, h₁⟩ := h.uncons
    obtain ⟨_, rfl, h₂⟩ := (h₁ rfl).uncons
    obtain ⟨_, rfl, -⟩ := (h₂ rfl).uncons
    rfl
  · cases hopens

theorem opensGroup_iff (h : SameStart n start start') :
    opensGroup start = true ↔ opensGroup start' = true :=
  h.iff fun _ _ => opensGroup_of

theorem continuesField_of {keyword : String} (h : SameStart n start start')
    (hhead : start.head? = some (.ident keyword)) (hfield : continuesField start = true) :
    continuesField start' = true := by
  unfold continuesField at hfield
  split at hfield
  · obtain rfl := Option.some.inj hhead
    obtain ⟨_, rfl, h₁⟩ := h.uncons
    obtain ⟨_, rfl, h₂⟩ := (h₁ rfl).uncons
    obtain ⟨_, rfl, h₃⟩ := (h₂ rfl).uncons
    obtain ⟨_, rfl, -⟩ := (h₃ rfl).uncons
    rfl
  · cases hfield

/-- Whether a keyword starts a statement of its own. -/
theorem startsStatement_iff (h : SameStart n start start') (keyword : String) :
    (start.head? = some (.ident keyword) ∧ ¬ continuesField start = true) ↔
      start'.head? = some (.ident keyword) ∧ ¬ continuesField start' = true := by
  apply h.iff
  rintro start start' h ⟨hhead, hfield⟩
  rw [h.head?_eq] at hhead
  exact ⟨hhead, fun hfield' => hfield (h.symm.continuesField_of hhead hfield')⟩

/-- Whether a keyword of an enum starts a statement of its own. -/
theorem startsEnumStatement_iff (h : SameStart 2 start start') (keyword : String) :
    (start.head? = some (.ident keyword) ∧ ¬ namesValue start = true) ↔
      start'.head? = some (.ident keyword) ∧ ¬ namesValue start' = true := by
  apply h.iff
  intro start start' h hstart
  rwa [← h.eq_of_two hstart.1 rfl]

theorem startsMap_iff (h : SameStart n start start') :
    start.take 2 = [.ident "map", .mark .leftAngle] ↔
      start'.take 2 = [.ident "map", .mark .leftAngle] := by
  apply h.iff
  intro start start' h hstart
  rw [← List.take_append_drop 2 start, hstart] at h
  obtain ⟨_, rfl, h₁⟩ := h.uncons
  obtain ⟨_, rfl, -⟩ := (h₁ rfl).uncons
  rfl

theorem isNameThenBrace_of (h : SameStart n start start')
    (hname : isNameThenBrace start = true) : isNameThenBrace start' = true := by
  fun_induction isNameThenBrace start generalizing n start' with
  | case1 name rest ih =>
    obtain ⟨_, rfl, h₁⟩ := h.uncons
    obtain ⟨_, rfl, h₂⟩ := (h₁ rfl).uncons
    have hrest := ih (h₂ rfl) hname
    exact hrest
  | case2 =>
    obtain ⟨_, rfl, h₁⟩ := h.uncons
    obtain ⟨_, rfl, -⟩ := (h₁ rfl).uncons
    rfl
  | case3 => cases hname

theorem opensExtend_of (h : SameStart n start start') (hopens : opensExtend start = true) :
    opensExtend start' = true := by
  unfold opensExtend at hopens
  split at hopens
  · obtain ⟨_, rfl, h₁⟩ := h.uncons
    obtain ⟨_, rfl, h₂⟩ := (h₁ rfl).uncons
    exact (h₂ rfl).isNameThenBrace_of hopens
  · rename_i rest hdot
    obtain ⟨rest', rfl, h₁⟩ := h.uncons
    have hname := (h₁ rfl).isNameThenBrace_of hopens
    -- The name starts with no dot.
    have hnodot : ∀ rest, rest' ≠ .mark .dot :: rest := by
      rintro rest rfl
      cases hname
    unfold opensExtend
    split
    · rename_i heq
      exact absurd (List.cons.inj heq).2 (hnodot _)
    · rename_i heq
      rwa [← (List.cons.inj heq).2]
    · rename_i hnone
      exact absurd rfl (hnone rest')
  · cases hopens

theorem opensExtend_eq (h : SameStart n start start') : opensExtend start = opensExtend start' :=
  Bool.eq_iff_iff.2 (h.iff fun _ _ => opensExtend_of)

end SameStart

end SchemaGraph
