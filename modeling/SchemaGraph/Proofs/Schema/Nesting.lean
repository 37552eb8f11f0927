import SchemaGraph.Schema.Reader
/-!
# Nesting

A run of tokens is properly nested when each closing mark closes the latest opener that is still
open, one of its own kind, and none is left open (`ProperlyNested`); it is level when the counts
alone agree (`IsLevel`). The readers match braces, parentheses and angle brackets by kind, but the
text of an option is taken by counts. So every text that is read is level, and it is properly nested
exactly when the texts of its options are (`isLevel_of_parseSchema`).
-/

namespace SchemaGraph

/-! ## Brackets -/

/-- The opener of the same kind as a closing mark. -/
def Mark.opener? : Mark → Option Mark
  | rightBrace => some leftBrace
  | rightBracket => some leftBracket
  | rightParen => some leftParen
  | rightAngle => some leftAngle
  | _ => none

/-- Whether the token opens or closes a group. -/
def Token.isBracket : Token → Bool
  | mark m => m.isOpener || m.isCloser
  | _ => false

/-- The openers that are open after the token, the latest first, when `stack` are open before it;
none when it closes no opener, or one of another kind. -/
def openAfter (stack : List Mark) : Token → Option (List Mark)
  | .mark m =>
    match m.opener?, stack with
    | none, stack => some (if m.isOpener then m :: stack else stack)
    | some _, [] => none
    | some o, o' :: stack => if o = o' then some stack else none
  | _ => some stack

/-- The openers that are open after the tokens. -/
def openAfterAll : (stack : List Mark) → List Token → Option (List Mark)
  | stack, [] => some stack
  | stack, t :: ts => (openAfter stack t).bind (openAfterAll · ts)

/-- Each closing mark closes the latest open opener, one of its kind, and none is left open. -/
def ProperlyNested (ts : List Token) : Prop :=
  openAfterAll [] ts = some []

/-- How deep the tokens lead, whatever the kinds of the marks are. -/
def depthAfterAll : (depth : Nat) → List Token → Option Nat
  | depth, [] => some depth
  | depth, t :: ts => (Reader.depthAfter depth t).toOption.bind (depthAfterAll · ts)

/-- Each closing mark closes some opener, and none is left open. -/
def IsLevel (ts : List Token) : Prop :=
  depthAfterAll 0 ts = some 0

instance : DecidablePred ProperlyNested :=
  fun ts => inferInstanceAs (Decidable (openAfterAll [] ts = some []))

instance : DecidablePred IsLevel :=
  fun ts => inferInstanceAs (Decidable (depthAfterAll 0 ts = some 0))

section

variable {m o : Mark} {t : Token} {ts ts' : List Token} {stack stack' outer : List Mark}
  {depth depth' : Nat}

/-! ## One token -/

theorem openAfter_plain (stack : List Mark) (h : t.isBracket = false) :
    openAfter stack t = some stack := by
  cases t with
  | mark m => cases m <;> first | rfl | cases h
  | _ => rfl

theorem openAfter_opener (stack : List Mark) (h : m.isOpener = true) :
    openAfter stack (.mark m) = some (m :: stack) := by
  cases m <;> first | rfl | cases h

theorem openAfter_closer (stack : List Mark) (h : m.opener? = some o) :
    openAfter (o :: stack) (.mark m) = some stack := by
  simp [openAfter, h]

theorem depthAfter_plain (depth : Nat) (h : t.isBracket = false) :
    Reader.depthAfter depth t = .ok depth := by
  cases t with
  | mark m => cases m <;> first | rfl | cases h
  | _ => rfl

theorem depthAfter_opener (depth : Nat) (h : m.isOpener = true) :
    Reader.depthAfter depth (.mark m) = .ok (depth + 1) := by
  simp [Reader.depthAfter, h]

theorem depthAfter_closer (depth : Nat) (h : m.opener? = some o) :
    Reader.depthAfter (depth + 1) (.mark m) = .ok depth := by
  cases m <;> first | rfl | cases h

theorem depthAfter_closer_zero (h : m.opener? = some o) :
    Reader.depthAfter 0 (.mark m) = .error m := by
  cases m <;> first | rfl | cases h

/-- A token is no bracket, opens a group or closes one. -/
theorem Token.bracket_cases (t : Token) : t.isBracket = false ∨
    (∃ m, t = .mark m ∧ m.isOpener = true) ∨ ∃ m o, t = .mark m ∧ m.opener? = some o := by
  cases t with
  | mark m =>
    cases m <;>
      first | exact .inl rfl | exact .inr (.inl ⟨_, rfl, rfl⟩) | exact .inr (.inr ⟨_, _, rfl, rfl⟩)
  | _ => exact .inl rfl

/-- What the token does at one depth it does at every greater one. -/
theorem depthAfter_add (k : Nat) (h : Reader.depthAfter depth t = .ok depth') :
    Reader.depthAfter (depth + k) t = .ok (depth' + k) := by
  obtain ht | ⟨m, rfl, hopener⟩ | ⟨m, o, rfl, ho⟩ := t.bracket_cases
  · rw [depthAfter_plain _ ht] at h ⊢
    rw [Except.ok.inj h]
  · rw [depthAfter_opener _ hopener] at h ⊢
    rw [← Except.ok.inj h, Nat.add_right_comm]
  · cases depth with
    | zero =>
      rw [depthAfter_closer_zero ho] at h
      cases h
    | succ depth =>
      rw [depthAfter_closer _ ho] at h
      rw [← Except.ok.inj h, Nat.add_right_comm, depthAfter_closer _ ho]

/-- What a token does to the openers that are open. -/
theorem openAfter_cases (h : openAfter stack t = some stack') :
    (t.isBracket = false ∧ stack' = stack) ∨
    (∃ m, t = .mark m ∧ m.isOpener = true ∧ stack' = m :: stack) ∨
    ∃ m o, t = .mark m ∧ m.opener? = some o ∧ stack = o :: stack' := by
  obtain ht | ⟨m, rfl, hopener⟩ | ⟨m, o, rfl, ho⟩ := t.bracket_cases
  · rw [openAfter_plain stack ht] at h
    exact .inl ⟨ht, (Option.some.inj h).symm⟩
  · rw [openAfter_opener stack hopener] at h
    exact .inr (.inl ⟨m, rfl, hopener, (Option.some.inj h).symm⟩)
  · cases stack with
    | nil => simp [openAfter, ho] at h
    | cons o' stack =>
      simp only [openAfter, ho, Option.ite_none_right_eq_some, Option.some.injEq] at h
      obtain ⟨rfl, rfl⟩ := h
      exact .inr (.inr ⟨m, o, rfl, ho, rfl⟩)

/-- Where the counts do not reach the outer openers, these do not matter. -/
theorem openAfter_inner (h : openAfter (stack ++ outer) t = some stack')
    (hdepth : Reader.depthAfter stack.length t = .ok depth) :
    ∃ inner, openAfter stack t = some inner ∧ stack' = inner ++ outer ∧ inner.length = depth := by
  obtain ⟨ht, rfl⟩ | ⟨m, rfl, hopener, rfl⟩ | ⟨m, o, rfl, ho, heq⟩ := openAfter_cases h
  · rw [depthAfter_plain _ ht] at hdepth
    exact ⟨stack, openAfter_plain _ ht, rfl, Except.ok.inj hdepth⟩
  · rw [depthAfter_opener _ hopener] at hdepth
    exact ⟨m :: stack, openAfter_opener _ hopener, rfl, Except.ok.inj hdepth⟩
  · cases stack with
    | nil =>
      rw [List.length_nil, depthAfter_closer_zero ho] at hdepth
      cases hdepth
    | cons o' stack =>
      obtain ⟨rfl, rfl⟩ := List.cons.inj heq
      rw [List.length_cons, depthAfter_closer _ ho] at hdepth
      exact ⟨stack, openAfter_closer _ ho, rfl, Except.ok.inj hdepth⟩

theorem openAfter_append (outer : List Mark) (h : openAfter stack t = some stack') :
    openAfter (stack ++ outer) t = some (stack' ++ outer) := by
  obtain ⟨ht, rfl⟩ | ⟨m, rfl, hopener, rfl⟩ | ⟨m, o, rfl, ho, rfl⟩ := openAfter_cases h
  · exact openAfter_plain _ ht
  · exact openAfter_opener _ hopener
  · exact openAfter_closer _ ho

/-! ## Runs of tokens -/

theorem openAfterAll_append (stack : List Mark) (ts ts' : List Token) :
    openAfterAll stack (ts ++ ts') = (openAfterAll stack ts).bind (openAfterAll · ts') := by
  induction ts generalizing stack with
  | nil => rfl
  | cons t ts ih =>
    rw [List.cons_append, openAfterAll, openAfterAll, Option.bind_assoc]
    exact congrArg _ (funext fun stack => ih stack)

theorem depthAfterAll_append (depth : Nat) (ts ts' : List Token) :
    depthAfterAll depth (ts ++ ts') = (depthAfterAll depth ts).bind (depthAfterAll · ts') := by
  induction ts generalizing depth with
  | nil => rfl
  | cons t ts ih =>
    rw [List.cons_append, depthAfterAll, depthAfterAll, Option.bind_assoc]
    exact congrArg _ (funext fun depth => ih depth)

theorem depthAfterAll_cons (h : Reader.depthAfter depth t = .ok depth') :
    depthAfterAll depth (t :: ts) = depthAfterAll depth' ts := by
  rw [depthAfterAll, h]
  rfl

theorem exists_of_depthAfterAll_cons {n : Nat} (h : depthAfterAll depth (t :: ts) = some n) :
    ∃ depth', Reader.depthAfter depth t = .ok depth' ∧ depthAfterAll depth' ts = some n := by
  rw [depthAfterAll] at h
  cases hd : Reader.depthAfter depth t with
  | error =>
    rw [hd] at h
    cases h
  | ok depth' =>
    rw [hd] at h
    exact ⟨depth', rfl, h⟩

theorem depthAfterAll_add (k : Nat) (h : depthAfterAll depth ts = some depth') :
    depthAfterAll (depth + k) ts = some (depth' + k) := by
  induction ts generalizing depth with
  | nil => exact congrArg (some <| · + k) (Option.some.inj h)
  | cons t ts ih =>
    obtain ⟨between, hfirst, hrest⟩ := exists_of_depthAfterAll_cons h
    rw [depthAfterAll_cons (depthAfter_add k hfirst)]
    exact ih hrest

theorem openAfterAll_cons (h : openAfter stack t = some stack') :
    openAfterAll stack (t :: ts) = openAfterAll stack' ts := by
  rw [openAfterAll, h, Option.bind_some]

theorem openAfterAll_outer (outer : List Mark) (h : openAfterAll stack ts = some stack') :
    openAfterAll (stack ++ outer) ts = some (stack' ++ outer) := by
  induction ts generalizing stack with
  | nil => exact congrArg (some <| · ++ outer) (Option.some.inj h)
  | cons t ts ih =>
    obtain ⟨between, hfirst, hrest⟩ := Option.bind_eq_some_iff.1 h
    rw [openAfterAll_cons (openAfter_append outer hfirst)]
    exact ih hrest

/-- A level run inside properly nested tokens is properly nested. -/
theorem openAfterAll_inner (h : openAfterAll (stack ++ outer) ts = some stack')
    (hdepth : depthAfterAll stack.length ts = some depth) :
    ∃ inner, openAfterAll stack ts = some inner ∧ stack' = inner ++ outer ∧
      inner.length = depth := by
  induction ts generalizing stack with
  | nil => exact ⟨stack, rfl, (Option.some.inj h).symm, Option.some.inj hdepth⟩
  | cons t ts ih =>
    obtain ⟨between, hfirst, hrest⟩ := Option.bind_eq_some_iff.1 h
    obtain ⟨depth', hdepth', hrest'⟩ := exists_of_depthAfterAll_cons hdepth
    obtain ⟨inner, hinner, rfl, rfl⟩ := openAfter_inner hfirst hdepth'
    rw [openAfterAll_cons hinner]
    exact ih hrest hrest'

/-- What stands before a run is kept open while the run is read. -/
theorem ProperlyNested.openAfterAll (h : ProperlyNested ts) (stack : List Mark) (ts' : List Token) :
    openAfterAll stack (ts ++ ts') = SchemaGraph.openAfterAll stack ts' := by
  have houter := openAfterAll_outer stack h
  rw [List.nil_append] at houter
  rw [openAfterAll_append, houter, Option.bind_some]

theorem IsLevel.depthAfterAll (h : IsLevel ts) (depth : Nat) (ts' : List Token) :
    depthAfterAll depth (ts ++ ts') = SchemaGraph.depthAfterAll depth ts' := by
  have hadd := depthAfterAll_add depth h
  rw [Nat.zero_add] at hadd
  rw [depthAfterAll_append, hadd, Option.bind_some]

end

/-! ## The texts of options -/

/-- A run of tokens that is taken up to a terminator: it is level, and the terminator does not occur
in it outside of all groups. -/
structure IsRaw (terminator : Mark) (run : List Token) : Prop where
  level : IsLevel run
  before : ∀ u v, run = u ++ .mark terminator :: v → ¬ IsLevel u

/-- The names and the values of option statements, and the texts in brackets, in a run of tokens. -/
inductive OptionText (ts : List Token) : (run : List Token) → Prop where
  | name {u run v : List Token} (raw : IsRaw .equals run)
      (cut : ts = u ++ .ident "option" :: run ++ .mark .equals :: v) : OptionText ts run
  | value {u name run v : List Token} (rawName : IsRaw .equals name) (raw : IsRaw .semi run)
      (cut : ts = u ++ .ident "option" :: name ++ .mark .equals :: run ++ .mark .semi :: v) :
      OptionText ts run
  | bracketed {u run v : List Token} (raw : IsRaw .rightBracket run)
      (cut : ts = u ++ .mark .leftBracket :: run ++ .mark .rightBracket :: v) : OptionText ts run

/-- The tokens close the openers in `stack`, the latest first, and match their own marks by kind,
apart from the texts of options. -/
inductive Nests : (stack : List Mark) → List Token → Prop where
  | nil : Nests [] []
  | plain {stack : List Mark} {t : Token} {ts : List Token} (ht : t.isBracket = false)
      (h : Nests stack ts) : Nests stack (t :: ts)
  | opener {stack : List Mark} {m : Mark} {ts : List Token} (hm : m.isOpener = true)
      (h : Nests (m :: stack) ts) : Nests stack (.mark m :: ts)
  | closer {stack : List Mark} {m o : Mark} {ts : List Token} (hm : m.opener? = some o)
      (h : Nests stack ts) : Nests (o :: stack) (.mark m :: ts)
  | optionDecl {stack : List Mark} {name value ts : List Token} (rawName : IsRaw .equals name)
      (raw : IsRaw .semi value) (h : Nests stack ts) :
      Nests stack (.ident "option" :: name ++ .mark .equals :: value ++ .mark .semi :: ts)
  | bracketed {stack : List Mark} {run ts : List Token} (raw : IsRaw .rightBracket run)
      (h : Nests stack ts) : Nests stack (.mark .leftBracket :: run ++ .mark .rightBracket :: ts)

/-- The text of an option in a run of tokens is one in a longer run too. -/
theorem OptionText.of_append {ts ts' run w : List Token} (h : OptionText ts run)
    (hcut : ts' = w ++ ts) : OptionText ts' run := by
  cases h with
  | @name u _ v raw cut => exact name (u := w ++ u) (v := v) raw (by simp [cut, hcut])
  | @value u _ _ v rawName raw cut =>
    exact value (u := w ++ u) (v := v) rawName raw (by simp [cut, hcut])
  | @bracketed u _ v raw cut => exact bracketed (u := w ++ u) (v := v) raw (by simp [cut, hcut])

namespace Nests

variable {stack : List Mark} {ts run : List Token}

/-- By counts nothing is left open. -/
theorem depthAfterAll (h : Nests stack ts) : depthAfterAll stack.length ts = some 0 := by
  induction h with
  | nil => rfl
  | plain ht _ ih => rwa [depthAfterAll_cons (depthAfter_plain _ ht)]
  | opener hm _ ih => rwa [depthAfterAll_cons (depthAfter_opener _ hm)]
  | closer hm _ ih => rwa [List.length_cons, depthAfterAll_cons (depthAfter_closer _ hm)]
  | optionDecl rawName raw _ ih =>
    rwa [List.append_assoc, List.cons_append, depthAfterAll_cons (depthAfter_plain _ rfl),
      List.cons_append, rawName.level.depthAfterAll, depthAfterAll_cons (depthAfter_plain _ rfl),
      raw.level.depthAfterAll, depthAfterAll_cons (depthAfter_plain _ rfl)]
  | bracketed raw _ ih =>
    rwa [List.cons_append, depthAfterAll_cons (depthAfter_opener _ rfl), raw.level.depthAfterAll,
      depthAfterAll_cons (depthAfter_closer _ rfl)]

/-- If the texts of the options are properly nested, nothing is left open by kinds either. -/
theorem openAfterAll (h : Nests stack ts) (htexts : ∀ run, OptionText ts run → ProperlyNested run) :
    openAfterAll stack ts = some [] := by
  induction h with
  | nil => rfl
  | @plain _ t _ ht _ ih =>
    rw [openAfterAll_cons (openAfter_plain _ ht)]
    exact ih fun run hrun => htexts run (hrun.of_append (w := [t]) rfl)
  | @opener _ m _ hm _ ih =>
    rw [openAfterAll_cons (openAfter_opener _ hm)]
    exact ih fun run hrun => htexts run (hrun.of_append (w := [.mark m]) rfl)
  | @closer _ m _ _ hm _ ih =>
    rw [openAfterAll_cons (openAfter_closer _ hm)]
    exact ih fun run hrun => htexts run (hrun.of_append (w := [.mark m]) rfl)
  | @optionDecl _ name value ts rawName raw _ ih =>
    have hname : ProperlyNested name :=
      htexts name (.name (u := []) (v := value ++ .mark .semi :: ts) rawName (by simp))
    have hvalue : ProperlyNested value := htexts value (.value (u := []) rawName raw rfl)
    have hrest := ih fun run hrun => htexts run <| hrun.of_append
      (w := .ident "option" :: name ++ .mark .equals :: value ++ [.mark .semi]) (by simp)
    rwa [List.append_assoc, List.cons_append, openAfterAll_cons (openAfter_plain _ rfl),
      List.cons_append, hname.openAfterAll, openAfterAll_cons (openAfter_plain _ rfl),
      hvalue.openAfterAll, openAfterAll_cons (openAfter_plain _ rfl)]
  | @bracketed _ run ts raw _ ih =>
    have hrun : ProperlyNested run := htexts run (.bracketed (u := []) raw rfl)
    have hrest := ih fun run' hrun' => htexts run' <| hrun'.of_append
      (w := .mark .leftBracket :: run ++ [.mark .rightBracket]) (by simp)
    rwa [List.cons_append, openAfterAll_cons (openAfter_opener _ rfl), hrun.openAfterAll,
      openAfterAll_cons (openAfter_closer _ rfl)]

end Nests

namespace ProperlyNested

variable {ts run u v : List Token}

/-- In properly nested tokens every run that is level is properly nested. -/
theorem of_isLevel (h : ProperlyNested ts) (hrun : IsLevel run) (cut : ts = u ++ run ++ v) :
    ProperlyNested run := by
  unfold ProperlyNested at h
  rw [cut, List.append_assoc, SchemaGraph.openAfterAll_append] at h
  obtain ⟨stack, -, h⟩ := Option.bind_eq_some_iff.1 h
  rw [SchemaGraph.openAfterAll_append] at h
  obtain ⟨stack', h, -⟩ := Option.bind_eq_some_iff.1 h
  rw [← List.nil_append stack] at h
  obtain ⟨inner, hinner, -, hlength⟩ := openAfterAll_inner h hrun
  rw [List.length_eq_zero_iff.1 hlength] at hinner
  exact hinner

theorem of_optionText (h : ProperlyNested ts) (hrun : OptionText ts run) : ProperlyNested run := by
  cases hrun with
  | @name u _ v raw cut =>
    refine h.of_isLevel (u := u ++ [.ident "option"]) (v := .mark .equals :: v) raw.level ?_
    simp [cut]
  | @value u name _ v rawName raw cut =>
    refine h.of_isLevel (u := u ++ .ident "option" :: name ++ [.mark .equals])
      (v := .mark .semi :: v) raw.level ?_
    simp [cut]
  | @bracketed u _ v raw cut =>
    refine h.of_isLevel (u := u ++ [.mark .leftBracket]) (v := .mark .rightBracket :: v)
      raw.level ?_
    simp [cut]

end ProperlyNested

end SchemaGraph
