import SchemaGraph.Proofs.Schema.Printing
/-!
# Reading words

`Reader.Takes x ws a rest` says that `x` reads `a` from the words `ws` and leaves the words `rest`,
wherever the words stand on their line. There is one lemma for each reader, and each follows the
reader's own steps: what it looks at are the first tokens of the words to come (`tokensOf`).
-/

namespace SchemaGraph

variable {α β : Type} {ws mid rest : List Word}

/-- The tokens of words. -/
def tokensOf (ws : List Word) : List Token :=
  ws.flatMap Word.tokens

@[simp] theorem tokensOf_nil : tokensOf [] = [] :=
  rfl

@[simp] theorem tokensOf_cons (w : Word) (ws : List Word) :
    tokensOf (w :: ws) = w.tokens ++ tokensOf ws :=
  List.flatMap_cons ..

@[simp] theorem tokensOf_append (ws ws' : List Word) :
    tokensOf (ws ++ ws') = tokensOf ws ++ tokensOf ws' :=
  List.flatMap_append ..

/-- Words that start with a name or with a dot, as the elements of bodies do. -/
def StartsElement (ws : List Word) : Prop :=
  (∃ name, (tokensOf ws).head? = some (.ident name)) ∨ (tokensOf ws).head? = some (.mark .dot)

theorem StartsElement.ne_nil (h : StartsElement ws) : tokensOf ws ≠ [] := by
  intro hnil
  rw [StartsElement, hnil] at h
  rcases h with ⟨_, h⟩ | h <;> cases h

/-! ## Lexemes without comments -/

theorem skipComments_eq_self {ts : List Lexeme} (h : ∀ t ∈ ts, t.token.isComment = false) :
    skipComments ts = ts := by
  cases ts with
  | nil => rfl
  | cons t ts => simp [skipComments, h t List.mem_cons_self]

theorem ahead_eq_take {ts : List Lexeme} (h : ∀ t ∈ ts, t.token.isComment = false) (n : Nat) :
    ahead n ts = (ts.map (·.token)).take n := by
  induction ts generalizing n with
  | nil => cases n <;> rfl
  | cons t ts ih =>
    obtain ⟨ht, hts⟩ := List.forall_mem_cons.1 h
    cases n with
    | zero => rfl
    | succ n => simp [ahead, ht, ih hts]

theorem Word.isComment_of_mem_tokens {w : Word} {t : Token} (h : t ∈ w.tokens) :
    t.isComment = false := by
  have hcomponent {c : String} (h : t ∈ componentTokens c) : t.isComment = false := by
    unfold componentTokens at h
    split at h
    · cases h
    · rw [List.mem_singleton.1 h]
      rfl
  cases w with
  | dotted name =>
    rw [tokens, dottedTokens] at h
    split at h
    · cases h
    · rcases List.mem_append.1 h with h | h
      · exact hcomponent h
      · obtain ⟨c, -, h⟩ := List.mem_flatMap.1 h
        rcases List.mem_cons.1 h with rfl | h
        · rfl
        · exact hcomponent h
  | ident | number | quoted | mark =>
    rw [List.mem_singleton.1 h]
    rfl

theorem Token.map_token_lay (offset : Nat) (ts : List Token) :
    (Token.lay offset ts).map (·.token) = ts := by
  induction ts generalizing offset with
  | nil => rfl
  | cons t ts ih => rw [Token.lay, List.map_cons, ih]

theorem Token.line_of_mem_lay {offset : Nat} {ts : List Token} {l : Lexeme}
    (h : l ∈ Token.lay offset ts) : l.line = 1 := by
  induction ts generalizing offset with
  | nil => cases h
  | cons t ts ih =>
    rcases List.mem_cons.1 h with rfl | h
    · rfl
    · exact ih h

theorem map_token_lay (offset : Nat) (ws : List Word) :
    (lay offset ws).map (·.token) = tokensOf ws := by
  induction ws generalizing offset with
  | nil => rfl
  | cons w ws ih => rw [lay, List.map_append, Token.map_token_lay, ih, tokensOf_cons]

theorem line_of_mem_lay {offset : Nat} {l : Lexeme} (h : l ∈ lay offset ws) : l.line = 1 := by
  induction ws generalizing offset with
  | nil => cases h
  | cons w ws ih =>
    rcases List.mem_append.1 h with h | h
    · exact Token.line_of_mem_lay h
    · exact ih h

theorem isComment_of_mem_lay {offset : Nat} {l : Lexeme} (h : l ∈ lay offset ws) :
    l.token.isComment = false := by
  have hmem := List.mem_map_of_mem (f := (·.token)) h
  rw [map_token_lay] at hmem
  obtain ⟨w, -, ht⟩ := List.mem_flatMap.1 hmem
  exact Word.isComment_of_mem_tokens ht

theorem length_lay (offset : Nat) (ws : List Word) :
    (lay offset ws).length = (tokensOf ws).length := by
  rw [← map_token_lay offset ws, List.length_map]

theorem peek_lay (offset : Nat) (ws : List Word) :
    peek (lay offset ws) = (tokensOf ws).head? := by
  rw [peek, skipComments_eq_self fun _ => isComment_of_mem_lay, ← map_token_lay offset ws,
    List.head?_map]

namespace Reader

/-! ## Readers on lexemes -/

section

variable {x : Reader α} {f : α → Reader β} {a : α} {l : Lexeme} {ts between : List Lexeme}

theorem bind_eq (h : x ts = .ok (a, between)) : (x >>= f) ts = f a between := by
  simp only [Bind.bind, h]

theorem next_cons (h : l.token.isComment = false) :
    next (l :: ts) = .ok (some l.token, l :: ts) := by
  simp [next, peek, skipComments, h]

theorem advance_cons (h : l.token.isComment = false) : advance (l :: ts) = .ok ((), ts) := by
  simp [advance, skipComments, h]

theorem eat_cons {m : Mark} (h : l.token = .mark m) : eat m (l :: ts) = .ok (true, ts) := by
  have hcomment : l.token.isComment = false := by rw [h]; rfl
  rw [eat, bind_eq (next_cons hcomment), if_pos (congrArg some h), bind_eq (advance_cons hcomment)]
  rfl

theorem eat_of_peek_ne {m : Mark} (h : peek ts ≠ some (.mark m)) :
    eat m ts = .ok (false, ts) := by
  rw [eat, bind_eq (x := next) rfl, if_neg h]
  rfl

theorem ident_cons {name : String} (h : l.token = .ident name) :
    ident (l :: ts) = .ok (name, ts) := by
  have hcomment : l.token.isComment = false := by rw [h]; rfl
  rw [ident, bind_eq (next_cons hcomment), h]
  exact bind_eq (advance_cons hcomment)

end

/-! ## Values of digits -/

theorem digitValue?_digitChar {d : Nat} (h : d < 10) : digitValue? 10 d.digitChar = some d := by
  have hall : ∀ d : Fin 10, digitValue? 10 (Nat.digitChar d) = some d.val := by decide
  exact hall ⟨d, h⟩

theorem digitsValueFrom?_append (base value : Nat) (cs : List Char) (c : Char) :
    digitsValueFrom? base value (cs ++ [c]) =
      (digitsValueFrom? base value cs).bind fun v =>
        (digitValue? base c).map fun d => v * base + d := by
  induction cs generalizing value with
  | nil => cases h : digitValue? base c <;> simp [digitsValueFrom?, h]
  | cons c' cs ih =>
    cases h : digitValue? base c' <;> simp [digitsValueFrom?, h, ih]

/-- The decimal digits of a number stand for it. -/
theorem digitsValueFrom?_toDigits (n : Nat) :
    digitsValueFrom? 10 0 (Nat.toDigits 10 n) = some n := by
  induction n using Nat.strongRecOn with
  | _ n ih =>
    by_cases hn : n < 10
    · simp [Nat.toDigits_of_lt_base hn, digitsValueFrom?, digitValue?_digitChar hn]
    · have hlast : n % 10 < 10 := Nat.mod_lt _ (by decide)
      rw [Nat.toDigits_of_base_le (by decide) (Nat.le_of_not_lt hn), digitsValueFrom?_append,
        ih (n / 10) (by omega), digitValue?_digitChar hlast]
      simp only [Option.bind_some, Option.map_some, Option.some.injEq]
      omega

/-- Only zero has a zero as its first digit. -/
theorem head?_toDigits {n : Nat} (h : n ≠ 0) : (Nat.toDigits 10 n).head? ≠ some '0' := by
  induction n using Nat.strongRecOn with
  | _ n ih =>
    by_cases hn : n < 10
    · have hall : ∀ d : Fin 10, d.val ≠ 0 → Nat.digitChar d ≠ '0' := by decide
      rw [Nat.toDigits_of_lt_base hn]
      simpa using hall ⟨n, hn⟩ h
    · rw [Nat.toDigits_of_base_le (by decide) (Nat.le_of_not_lt hn), List.head?_append]
      have hhead := ih (n / 10) (by omega) (by omega)
      cases hdigits : (Nat.toDigits 10 (n / 10)).head? with
      | none => exact absurd (List.head?_eq_none_iff.1 hdigits) Nat.toDigits_ne_nil
      | some d =>
        rw [hdigits] at hhead
        exact hhead

/-- The decimal literal of a number in range denotes it. -/
theorem integerValue?_toString {n : Nat} (h : n ≤ maxInteger) :
    integerValue? (toString n) = some n := by
  have hvalue := digitsValueFrom?_toDigits n
  unfold integerValue?
  rw [Nat.toString_eq_ofList_toDigits, String.toList_ofList]
  by_cases hn : n = 0
  · subst hn
    decide
  · have hhead := head?_toDigits hn
    have hdecimal : digitsValue? 10 (Nat.toDigits 10 n) = some n := by
      rw [digitsValue?, if_neg (by simp [Nat.toDigits_ne_nil]), hvalue]
    split
    · rename_i heq
      simp [heq] at hhead
    · rename_i heq
      simp [heq] at hhead
    · rename_i heq
      simp [heq] at hhead
    · rw [hdecimal]
      simp [h]

/-! ## Single steps -/

/-- The reader reads `a` from the words `ws`, wherever they stand, and leaves the words `rest`. -/
def Takes (x : Reader α) (ws : List Word) (a : α) (rest : List Word) : Prop :=
  ∀ offset, ∃ offset', x (lay offset ws) = .ok (a, lay offset' rest)

namespace Takes

theorem pure {a b : α} (h : a = b) : Takes (Pure.pure a) ws b ws :=
  fun offset => ⟨offset, h ▸ rfl⟩

theorem bind {x : Reader α} {f : α → Reader β} {a : α} {b : β} (hx : Takes x ws a mid)
    (hf : Takes (f a) mid b rest) : Takes (x >>= f) ws b rest := by
  intro offset
  obtain ⟨between, hx⟩ := hx offset
  obtain ⟨offset', hf⟩ := hf between
  exact ⟨offset', (bind_eq hx).trans hf⟩

theorem map {x : Reader α} {a : α} (hx : Takes x ws a rest) (f : α → β) :
    Takes (f <$> x) ws (f a) rest :=
  bind hx (pure rfl)

theorem pos {p : Prop} [Decidable p] {x y : Reader α} {a : α} (hp : p) (hx : Takes x ws a rest) :
    Takes (if p then x else y) ws a rest := by
  rwa [if_pos hp]

theorem neg {p : Prop} [Decidable p] {x y : Reader α} {a : α} (hp : ¬ p)
    (hy : Takes y ws a rest) : Takes (if p then x else y) ws a rest := by
  rwa [if_neg hp]

/-- A reader that only looks. -/
theorem look {f : List Lexeme → α} {a : α} (h : ∀ offset, f (lay offset ws) = a) :
    Takes (fun ts => .ok (f ts, ts)) ws a ws :=
  fun offset => ⟨offset, by simp only [h]⟩

theorem next {a : Option Token} (h : (tokensOf ws).head? = a) :
    Takes Reader.next ws a ws :=
  look fun offset => (peek_lay offset ws).trans h

theorem nextOrComment {a : Option Token} (h : (tokensOf ws).head? = a) :
    Takes Reader.nextOrComment ws a ws :=
  look fun offset => by rw [← h, ← map_token_lay offset ws, List.head?_map]

theorem lookahead (n : Nat) : Takes (Reader.lookahead n) ws ((tokensOf ws).take n) ws :=
  look fun offset => by
    rw [ahead_eq_take fun _ => isComment_of_mem_lay, map_token_lay]

theorem allAhead : Takes Reader.allAhead ws (tokensOf ws) ws :=
  look fun offset => by
    rw [ahead_eq_take fun _ => isComment_of_mem_lay, map_token_lay, length_lay, List.take_length]

theorem line (h : tokensOf ws ≠ []) : Takes Reader.line ws 1 ws :=
  look fun offset => by
    rw [nextLine?, skipComments_eq_self fun _ => isComment_of_mem_lay]
    cases hlay : lay offset ws with
    | nil => exact absurd (by rw [← map_token_lay offset ws, hlay, List.map_nil]) h
    | cons l ls => exact line_of_mem_lay (hlay ▸ List.mem_cons_self)

theorem advance {w : Word} {t : Token} (h : w.tokens = [t]) :
    Takes Reader.advance (w :: ws) () ws := by
  intro offset
  refine ⟨offset + byteLength w.text.toList + 1, ?_⟩
  rw [Reader.advance, skipComments_eq_self fun _ => isComment_of_mem_lay, lay, h]
  rfl

theorem advanceOne {w : Word} {t : Token} (h : w.tokens = [t]) :
    Takes Reader.advanceOne (w :: ws) () ws := by
  intro offset
  refine ⟨offset + byteLength w.text.toList + 1, ?_⟩
  rw [Reader.advanceOne, lay, h]
  rfl

theorem eat {m : Mark} : Takes (Reader.eat m) (.mark m :: ws) true ws :=
  bind (next rfl) (pos rfl (bind (advance rfl) (pure rfl)))

theorem eat_not {m : Mark} (h : (tokensOf ws).head? ≠ some (.mark m)) :
    Takes (Reader.eat m) ws false ws :=
  bind (next rfl) (neg h (pure rfl))

theorem expect {m : Mark} : Takes (Reader.expect m) (.mark m :: ws) () ws :=
  bind (next rfl) (pos rfl (advance rfl))

theorem expectKeyword {keyword : String} :
    Takes (Reader.expectKeyword keyword) (.ident keyword :: ws) () ws :=
  bind (next rfl) (pos rfl (advance rfl))

theorem atKeyword {keyword : String} (h : (tokensOf ws).head? = some (.ident keyword)) :
    Takes (Reader.atKeyword keyword) ws true ws :=
  bind (next rfl) (pure (decide_eq_true h))

theorem atKeyword_not {keyword : String} (h : (tokensOf ws).head? ≠ some (.ident keyword)) :
    Takes (Reader.atKeyword keyword) ws false ws :=
  bind (next rfl) (pure (decide_eq_false h))

theorem ident {name : String} : Takes Reader.ident (.ident name :: ws) name ws :=
  bind (next (a := some (.ident name)) rfl) (bind (advance rfl) (pure rfl))

theorem str {value : String} : Takes Reader.str (.quoted value :: ws) value ws :=
  bind (next (a := some (.str value)) rfl) (bind (advance rfl) (pure rfl))

/-! ## Names and numbers -/

theorem integer {value : Int} (h : isWritable value = true) :
    Takes Reader.integer (integerWords value ++ ws) value ws := by
  have hliteral := integerValue?_toString (of_decide_eq_true h)
  unfold integerWords
  split
  · refine bind eat (bind (next (a := some (.int _)) rfl) (bind (advance rfl) ?_))
    rw [hliteral]
    refine pure ?_
    rw [if_pos rfl]
    omega
  · refine bind (eat_not (by simp [Word.tokens]))
      (bind (next (a := some (.int _)) rfl) (bind (advance rfl) ?_))
    rw [hliteral]
    refine pure ?_
    rw [if_neg (by decide)]
    omega

theorem fieldNumber {number : UInt32} :
    Takes Reader.fieldNumber (.number number.toNat :: ws) number ws := by
  have hlt := number.toNat_lt
  have hwritable : isWritable number.toNat = true := by
    refine decide_eq_true ?_
    rw [Int.natAbs_natCast, maxInteger]
    omega
  have hread : Takes Reader.integer (integerWords number.toNat ++ ws) number.toNat ws :=
    integer hwritable
  rw [integerWords, if_neg (by omega), Int.natAbs_natCast] at hread
  refine bind hread (pos ?_ (pure ?_))
  · have hsize : UInt32.size = 4294967296 := rfl
    omega
  · simp

theorem bracketedOptions (h : (tokensOf ws).head? ≠ some (.mark .leftBracket)) :
    Takes Reader.bracketedOptions ws none ws :=
  bind (eat_not h) (pure rfl)

/-! Between the tokens of a dotted name there are no spaces, so here the readers are followed from
lexeme to lexeme. -/

/-- The step of the repetition in a dotted name. -/
def furtherComponent : Reader (Option String) := do
  if ← Reader.eat .dot then some <$> Reader.ident else return none

/-- Further components are taken one by one, a dot and a name each time. -/
theorem repeatWithin_components {others : List String} {ts left bound : List Lexeme}
    (hts : ts.map (·.token) = furtherTokens others)
    (hleft : peek left ≠ some (.mark .dot)) (hbound : others.length ≤ bound.length) :
    repeatWithin furtherComponent bound (ts ++ left) = .ok (others, left) := by
  induction others generalizing ts bound with
  | nil =>
    rw [List.map_eq_nil_iff.1 hts]
    cases bound with
    | nil => rfl
    | cons _ bound =>
      have hstep : furtherComponent left = .ok (none, left) := by
        rw [furtherComponent, bind_eq (eat_of_peek_ne hleft)]
        rfl
      rw [repeatWithin, List.nil_append, bind_eq hstep]
      rfl
  | cons second others ih =>
    obtain ⟨dot, ts, rfl, hdot, hts⟩ := List.map_eq_cons_iff.1 hts
    obtain ⟨name, ts, rfl, hname, hts⟩ := List.map_eq_cons_iff.1 hts
    obtain ⟨_, bound, rfl⟩ := List.exists_cons_of_length_pos (Nat.zero_lt_of_lt hbound)
    have hstep : furtherComponent (dot :: name :: (ts ++ left)) =
        .ok (some second, ts ++ left) := by
      rw [furtherComponent, bind_eq (eat_cons hdot), if_pos rfl]
      exact bind_eq (ident_cons hname)
    have hrest := ih hts (Nat.le_of_succ_le_succ hbound)
    rw [List.cons_append, List.cons_append, repeatWithin, bind_eq hstep]
    exact bind_eq hrest

theorem dottedName_append {absolute : Bool} {first : String} {others : List String}
    {ts left : List Lexeme} (hleft : peek left ≠ some (.mark .dot))
    (hts : ts.map (·.token) = (if absolute then [.mark .dot] else []) ++
      .ident first :: furtherTokens others) :
    Reader.dottedName (ts ++ left) =
      .ok ((if absolute then "." else "") ++ Name.join (first :: others), left) := by
  -- First the dot before the name, if there is one.
  obtain ⟨ts', heat, hts'⟩ : ∃ ts', Reader.eat .dot (ts ++ left) = .ok (absolute, ts' ++ left) ∧
      ts'.map (·.token) = .ident first :: furtherTokens others := by
    cases absolute with
    | true =>
      obtain ⟨dot, ts', rfl, hdot, hts'⟩ := List.map_eq_cons_iff.1 hts
      exact ⟨ts', eat_cons hdot, hts'⟩
    | false =>
      obtain ⟨name, ts', rfl, hname, -⟩ := List.map_eq_cons_iff.1 hts
      refine ⟨name :: ts', eat_of_peek_ne ?_, hts⟩
      simp [peek, skipComments, hname, Token.isComment]
  obtain ⟨l, ts', rfl, hl, hothers⟩ := List.map_eq_cons_iff.1 hts'
  have hrepeated : repeated furtherComponent (ts' ++ left) = .ok (others, left) := by
    refine repeatWithin_components hothers hleft ?_
    have hlength := congrArg List.length hothers
    simp only [furtherTokens, List.length_map, List.length_flatMap, List.length_cons,
      List.length_nil, List.map_const', List.sum_replicate_nat, List.length_append] at hlength ⊢
    omega
  unfold Reader.dottedName
  rw [bind_eq heat, List.cons_append, bind_eq (ident_cons hl)]
  exact bind_eq hrepeated

theorem dottedName {name : String} (h : isTypeName name = true)
    (hrest : (tokensOf rest).head? ≠ some (.mark .dot)) :
    Takes Reader.dottedName (.dotted name :: rest) name rest := by
  intro offset
  obtain ⟨absolute, first, others, -, hname, htokens⟩ := exists_components h
  let offset' := offset + byteLength name.toList + 1
  have hts := (Token.map_token_lay offset (dottedTokens name)).trans htokens
  have hread := dottedName_append (by rwa [peek_lay offset' rest]) hts
  rw [← hname] at hread
  exact ⟨offset', hread⟩

/-! ## Repetition -/

/-- Words that are not empty are at least as many as their tokens. -/
theorem length_le_tokensOf {words : α → List Word} {as : List α}
    (h : ∀ a ∈ as, tokensOf (words a) ≠ []) :
    as.length ≤ (tokensOf (as.flatMap words)).length := by
  induction as with
  | nil => exact Nat.zero_le _
  | cons a as ih =>
    obtain ⟨ha, has⟩ := List.forall_mem_cons.1 h
    have hpos := List.length_pos_iff.2 ha
    have hle := ih has
    rw [List.flatMap_cons, tokensOf_append, List.length_append, List.length_cons]
    omega

/-- A repeated reader reads one thing after the other. What follows may matter to it: `p` says what
may follow. -/
theorem repeated (p : List Word → Prop) {step : Reader (Option β)} {words : α → List Word}
    {value : α → β} {as : List α} (hne : ∀ a ∈ as, tokensOf (words a) ≠ [])
    (hstep : ∀ a ∈ as, ∀ left, p left → Takes step (words a ++ left) (some (value a)) left)
    (hnext : ∀ a ∈ as, ∀ left, p (words a ++ left)) (hrest : p rest)
    (hstop : Takes step rest none rest) :
    Takes (Reader.repeated step) (as.flatMap words ++ rest) (as.map value) rest := by
  have hwithin (bound : List Lexeme) (hbound : as.length ≤ bound.length) :
      Takes (repeatWithin step bound) (as.flatMap words ++ rest) (as.map value) rest := by
    clear hne
    -- What follows the first words are those of the next element, or the rest.
    induction as generalizing bound with
    | nil =>
      cases bound with
      | nil => exact pure rfl
      | cons _ bound => exact bind hstop (pure rfl)
    | cons a as ih =>
      obtain ⟨_, bound, rfl⟩ := List.exists_cons_of_length_pos (Nat.zero_lt_of_lt hbound)
      obtain ⟨hstep, hsteps⟩ := List.forall_mem_cons.1 hstep
      obtain ⟨-, hnexts⟩ := List.forall_mem_cons.1 hnext
      have hleft : p (as.flatMap words ++ rest) := by
        cases as with
        | nil => exact hrest
        | cons b as =>
          rw [List.flatMap_cons, List.append_assoc]
          exact hnexts b List.mem_cons_self _
      rw [List.flatMap_cons, List.append_assoc]
      exact bind (hstep _ hleft)
        (bind (ih hsteps hnexts bound (Nat.le_of_succ_le_succ hbound)) (pure rfl))
  intro offset
  refine hwithin _ ?_ offset
  have hle := length_le_tokensOf hne
  rw [length_lay, tokensOf_append, List.length_append]
  omega

/-- A body is read element by element. -/
theorem body {place : BodyPlace} {comment : String → α} {element : Reader α}
    {words : α → List Word} {value : α → α} {es : List α}
    (hstart : ∀ e ∈ es, StartsElement (words e))
    (helement : ∀ e ∈ es, ∀ left, Takes element (words e ++ left) (value e) left) :
    Takes (Reader.body place comment element) (braced (es.flatMap words) ++ rest) (es.map value)
      rest := by
  -- One step for each element, and one for the brace.
  have hwithin (bound : List Lexeme) (hbound : es.length < bound.length) :
      Takes (elementsWithin place comment element bound)
        (es.flatMap words ++ .mark .rightBrace :: rest) (es.map value) rest := by
    induction es generalizing bound with
    | nil =>
      obtain ⟨_, bound, rfl⟩ := List.exists_cons_of_length_pos hbound
      exact bind (nextOrComment (a := some (.mark .rightBrace)) rfl)
        (bind (advanceOne rfl) (pure rfl))
    | cons e es ih =>
      obtain ⟨_, bound, rfl⟩ := List.exists_cons_of_length_pos (Nat.zero_lt_of_lt hbound)
      obtain ⟨hstart, hstarts⟩ := List.forall_mem_cons.1 hstart
      obtain ⟨helement, helements⟩ := List.forall_mem_cons.1 helement
      have hes := ih hstarts helements bound (Nat.lt_of_succ_lt_succ hbound)
      rw [List.flatMap_cons, List.append_assoc]
      have hfirst : Takes (do
            let first ← element
            let others ← elementsWithin place comment element bound
            return first :: others)
          (words e ++ (es.flatMap words ++ .mark .rightBrace :: rest))
          (value e :: es.map value) rest :=
        bind (helement _) (bind hes (pure rfl))
      rcases hstart with ⟨s, hs⟩ | hs
      · exact bind (nextOrComment (a := some (.ident s)) (by simp [hs])) hfirst
      · exact bind (nextOrComment (a := some (.mark .dot)) (by simp [hs])) hfirst
  rw [braced, List.cons_append, List.append_assoc]
  refine bind expect fun offset => hwithin _ ?_ offset
  have hle := length_le_tokensOf fun e he => (hstart e he).ne_nil
  rw [length_lay, tokensOf_append, List.length_append]
  exact Nat.lt_of_le_of_lt hle (Nat.lt_add_of_pos_right (Nat.zero_lt_succ _))

/-! ## Reserved items and enums -/

theorem tokensOf_integerWords (value : Int) : ∃ t ts, tokensOf (integerWords value) = t :: ts ∧
    (t = .mark .minus ∨ ∃ digits, t = .int digits) := by
  unfold integerWords
  split
  · exact ⟨_, _, rfl, .inl rfl⟩
  · exact ⟨_, _, rfl, .inr ⟨_, rfl⟩⟩

/-- What may follow an item: not the rest of a range. -/
def EndsItem (ws : List Word) : Prop :=
  (tokensOf ws).head? ≠ some (.ident "to")

theorem reservedItem {item : ReservedItem} (h : item.isPrintable = true) (hrest : EndsItem rest) :
    Takes Reader.reservedItem (item.words ++ rest) item rest := by
  cases item with
  | name text => exact bind (next (a := some (.str text)) rfl) (bind (advance rfl) (pure rfl))
  | range start stop =>
    have hrange : Takes (do
        let start ← Reader.integer
        if ← Reader.atKeyword "to" then
          Reader.advance
          if ← Reader.atKeyword "max" then
            Reader.advance
            return .range start (some maxRangeEnd)
          else
            let stop ← Reader.integer
            return .range start (some stop)
        else
          return .range start none : Reader ReservedItem)
        ((ReservedItem.range start stop).words ++ rest) (.range start stop) rest := by
      cases stop with
      | none =>
        have hstart : isWritable start = true := by simpa [ReservedItem.isPrintable] using h
        exact bind (integer hstart) (bind (atKeyword_not hrest) (neg (by decide) (pure rfl)))
      | some stop =>
        obtain ⟨hstart, hstop⟩ : isWritable start = true ∧ isWritable stop = true := by
          simpa [ReservedItem.isPrintable] using h
        obtain ⟨t, ts, htokens, ht⟩ := tokensOf_integerWords stop
        have hmax : (tokensOf (integerWords stop ++ rest)).head? ≠ some (.ident "max") := by
          rw [tokensOf_append, htokens]
          rcases ht with rfl | ⟨digits, rfl⟩ <;> simp
        rw [ReservedItem.words, List.append_assoc]
        exact bind (integer hstart) (bind (atKeyword rfl) (pos rfl (bind (advance rfl)
          (bind (atKeyword_not hmax) (neg (by decide) (bind (integer hstop) (pure rfl)))))))
    -- The reader looks for a literal first, and a range starts with a sign or a digit.
    obtain ⟨t, ts, htokens, ht⟩ := tokensOf_integerWords start
    have hhead : (tokensOf ((ReservedItem.range start stop).words ++ rest)).head? = some t := by
      cases stop <;> simp [ReservedItem.words, htokens]
    rcases ht with rfl | ⟨digits, rfl⟩
    · exact bind (next hhead) hrange
    · exact bind (next hhead) hrange

/-- The step of the repetition of items. -/
def furtherItem : Reader (Option ReservedItem) := do
  if ← Reader.eat .comma then some <$> Reader.reservedItem else return none

theorem reservedItems {items : List ReservedItem} (h : ReservedItem.arePrintable items = true) :
    Takes Reader.reservedItems (ReservedItem.statementWords items ++ rest) items
      (.mark .semi :: rest) := by
  obtain ⟨hne, hall⟩ := Bool.and_eq_true_iff.1 h
  obtain ⟨first, others, rfl⟩ := List.exists_cons_of_ne_nil (l := items) (by simpa using hne)
  obtain ⟨hfirst, hothers⟩ := List.forall_mem_cons.1 (List.all_eq_true.1 hall)
  have hwords : ReservedItem.statementWords (first :: others) ++ rest = first.words ++
      (others.flatMap (fun item => .mark .comma :: item.words) ++ .mark .semi :: rest) := by
    rw [ReservedItem.statementWords, List.map_cons, intercalate_eq_append_flatMap]
    simp [List.flatMap_map]
  have hends : EndsItem (others.flatMap (fun item => .mark .comma :: item.words) ++
      .mark .semi :: rest) := by
    cases others <;> simp [EndsItem, Word.tokens]
  have hrepeated : Takes (Reader.repeated furtherItem)
      (others.flatMap (fun item => .mark .comma :: item.words) ++ .mark .semi :: rest)
      (others.map id) (.mark .semi :: rest) := by
    refine repeated EndsItem (by simp [Word.tokens]) (fun item hitem left hleft => ?_)
      (by simp [EndsItem, Word.tokens]) (by simp [EndsItem, Word.tokens]) ?_
    · exact bind eat (pos rfl (map (reservedItem (hothers item hitem) hleft) some))
    · exact bind (eat_not (by simp [Word.tokens])) (neg (by decide) (pure rfl))
  rw [List.map_id] at hrepeated
  rw [hwords]
  exact bind (reservedItem hfirst hends) (bind hrepeated (pure rfl))

/-- The tokens with which items start; a name and an equals sign are not among them. -/
def StartsItem (t : Token) : Prop :=
  t = .mark .minus ∨ (∃ digits, t = .int digits) ∨ ∃ text, t = .str text

theorem tokensOf_statementWords {items : List ReservedItem}
    (h : ReservedItem.arePrintable items = true) :
    ∃ t ts, tokensOf (ReservedItem.statementWords items) = t :: ts ∧ StartsItem t := by
  obtain ⟨hne, -⟩ := Bool.and_eq_true_iff.1 h
  obtain ⟨first, others, rfl⟩ := List.exists_cons_of_ne_nil (l := items) (by simpa using hne)
  have hfirst : ∃ t ts, tokensOf first.words = t :: ts ∧ StartsItem t := by
    cases first with
    | name text => exact ⟨_, _, rfl, .inr (.inr ⟨text, rfl⟩)⟩
    | range start stop =>
      obtain ⟨t, ts, htokens, ht⟩ := tokensOf_integerWords start
      have ht' : StartsItem t := ht.imp_right .inl
      cases stop with
      | none => exact ⟨t, ts, htokens, ht'⟩
      | some stop =>
        exact ⟨t, _, by rw [ReservedItem.words, tokensOf_append, htokens, List.cons_append], ht'⟩
  obtain ⟨t, ts, htokens, ht⟩ := hfirst
  rw [ReservedItem.statementWords, List.map_cons, intercalate_eq_append_flatMap, List.append_assoc,
    tokensOf_append, htokens]
  exact ⟨t, _, rfl, ht⟩

theorem enumElement {e : EnumElement} (h : e.isPrintable = true) :
    Takes Reader.enumElement (e.words ++ rest) e rest := by
  cases e with
  | option | comment => cases h
  | value v =>
    obtain ⟨-, hnumber⟩ := Bool.and_eq_true_iff.1 h
    rw [EnumElement.words, List.cons_append, List.cons_append, List.append_assoc]
    refine bind (lookahead 2) (neg (fun h => h.2 rfl) (neg (fun h => h.2 rfl) ?_))
    exact bind ident (bind expect (bind (integer hnumber)
      (bind (bracketedOptions (by simp [Word.tokens])) (bind expect (pure rfl)))))
  | reserved items =>
    obtain ⟨t, ts, htokens, ht⟩ := tokensOf_statementWords h
    rw [EnumElement.words, List.cons_append]
    -- An equals sign would make a value of it.
    have hvalue : namesValue ((tokensOf (.ident "reserved" ::
        (ReservedItem.statementWords items ++ rest))).take 2) = false := by
      rw [tokensOf_cons, tokensOf_append, htokens]
      rcases ht with rfl | ⟨_, rfl⟩ | ⟨_, rfl⟩ <;> rfl
    refine bind (lookahead 2) (neg (fun h => ?_) (pos ⟨rfl, by rw [hvalue]; decide⟩ ?_))
    · exact absurd h.1 (by simp [Word.tokens])
    · exact bind (advance rfl) (bind (reservedItems h) (bind expect (pure rfl)))

theorem EnumElement.startsElement {e : EnumElement} (h : e.isPrintable = true) :
    StartsElement e.words := by
  cases e with
  | option | comment => cases h
  | value v => exact .inl ⟨_, rfl⟩
  | reserved items => exact .inl ⟨_, rfl⟩

theorem enumDecl {decl : EnumDecl} (h : decl.isPrintable = true) :
    Takes Reader.enumDecl (decl.words ++ rest) decl.onLineOne rest := by
  obtain ⟨-, helements⟩ := Bool.and_eq_true_iff.1 h
  rw [List.all_eq_true] at helements
  have hbody : Takes (Reader.body .enum .comment Reader.enumElement)
      (braced (decl.elements.flatMap EnumElement.words) ++ rest) (decl.elements.map id) rest :=
    body (fun e he => EnumElement.startsElement (helements e he))
      fun e he left => enumElement (helements e he)
  rw [List.map_id] at hbody
  exact bind (line (by simp [EnumDecl.words, Word.tokens]))
    (bind expectKeyword (bind ident (bind hbody (pure rfl))))

end Takes
end Reader
end SchemaGraph
