import SchemaGraph.Proofs.Schema.Comments
import SchemaGraph.Proofs.Schema.Front
/-!
# Readers do not see comments

Two runs are compared: a reader on a text, and a reader on the text without its comments. They have
the same outcome (`SameOutcome`) when both refuse with one complaint at one place, or both answer,
related values, and the second leaves what is significant of what the first leaves. The outcome also
bounds how much is left: bodies and repetitions are read within bounds, which are smaller for the
text without comments, and each step takes a significant lexeme.

`Blind n m x` says that `x` has the same outcome in both runs where at most `n` lexemes are
significant, and leaves at most `m` of them. There is one lemma for each reader that answers
no tree with comments inside; each follows the reader's own steps.
-/

namespace SchemaGraph

variable {α β γ δ : Type} {n m k : Nat}

namespace Reader

/-- What a reader answers on a text and what another answers on the text without its comments:
values that `R` relates, with at most `m` significant lexemes left, or the same complaint at the
same place. -/
inductive SameOutcome (R : α → β → Prop) (m : Nat) :
    Except Refusal (α × List Lexeme) → Except Refusal (β × List Lexeme) → Prop
  | taken {a : α} {b : β} {rest : List Lexeme} (related : R a b)
      (bounded : (significant rest).length ≤ m) :
      SameOutcome R m (.ok (a, rest)) (.ok (b, significant rest))
  | refused (complaint : Complaint) (rest : List Lexeme) :
      SameOutcome R m (.error ⟨complaint, rest⟩) (.error ⟨complaint, significant rest⟩)

/-- On texts with at most `n` significant lexemes, `y` without the comments has the outcome of `x`
with them. -/
def Agrees (n m : Nat) (R : α → β → Prop) (x : Reader α) (y : Reader β) : Prop :=
  ∀ ts, (significant ts).length ≤ n → SameOutcome R m (x ts) (y (significant ts))

/-- On texts with at most `n` significant lexemes, `x` has the same outcome without the comments. -/
abbrev Blind (n m : Nat) (x : Reader α) : Prop :=
  Agrees n m Eq x x

namespace SameOutcome

variable {R R' : α → β → Prop} {S : γ → δ → Prop}

theorem mono {p : Except Refusal (α × List Lexeme)} {q : Except Refusal (β × List Lexeme)}
    (h : SameOutcome R k p q) (hR : ∀ a b, R a b → R' a b) (hm : k ≤ m) :
    SameOutcome R' m p q := by
  cases h with
  | taken related bounded => exact taken (hR _ _ related) (bounded.trans hm)
  | refused complaint rest => exact refused complaint rest

/-- The outcome of a composed reader, from that of its parts. -/
theorem bind {x : Reader α} {y : Reader β} {f : α → Reader γ} {g : β → Reader δ}
    {ts ts' : List Lexeme} (h : SameOutcome R k (x ts) (y ts'))
    (hf : ∀ a b rest, x ts = .ok (a, rest) → R a b → (significant rest).length ≤ k →
      SameOutcome S m (f a rest) (g b (significant rest))) :
    SameOutcome S m ((x >>= f) ts) ((y >>= g) ts') := by
  simp only [Bind.bind]
  generalize hx : x ts = p at h
  generalize y ts' = q at h
  cases h with
  | taken related bounded => exact hf _ _ _ hx related bounded
  | refused complaint rest => exact refused complaint rest

/-- What the first reader alone does with its answer. -/
theorem map_left {x : Reader α} {ts : List Lexeme} {q : Except Refusal (β × List Lexeme)}
    {f : α → γ} {S : γ → β → Prop} (h : SameOutcome R m (x ts) q)
    (hf : ∀ a b, R a b → S (f a) b) : SameOutcome S m ((x >>= fun a => pure (f a)) ts) q := by
  simp only [Bind.bind]
  generalize x ts = p at h
  cases h with
  | taken related bounded => exact taken (hf _ _ related) bounded
  | refused complaint rest => exact refused complaint rest

end SameOutcome

namespace Agrees

variable {R : α → β → Prop} {S : γ → δ → Prop} {x : Reader α} {y : Reader β}

theorem mono (h : Agrees n k R x y) (hm : k ≤ m) : Agrees n m R x y :=
  fun ts hts => (h ts hts).mono (fun _ _ hab => hab) hm

theorem pure {a : α} {b : β} (h : R a b) : Agrees n n R (Pure.pure a) (Pure.pure b) :=
  fun _ hts => .taken h hts

theorem bind {f : α → Reader γ} {g : β → Reader δ} (hx : Agrees n k R x y)
    (hf : ∀ a b, R a b → Agrees k m S (f a) (g b)) : Agrees n m S (x >>= f) (y >>= g) :=
  fun ts hts => (hx ts hts).bind fun a b rest _ hab hrest => hf a b hab rest hrest

theorem ite {p : Prop} [Decidable p] {x' : Reader α} {y' : Reader β} (hx : Agrees n m R x y)
    (hx' : Agrees n m R x' y') :
    Agrees n m R (if p then x else x') (if p then y else y') := by
  by_cases hp : p
  · rw [if_pos hp, if_pos hp]
    exact hx
  · rw [if_neg hp, if_neg hp]
    exact hx'

theorem refuse (complaint : Complaint) :
    Agrees n m R (Reader.refuse complaint) (Reader.refuse complaint) :=
  fun ts _ => .refused complaint ts

theorem refuseNext (complaint : Option Token → Complaint) :
    Agrees n m R (Reader.refuseNext complaint) (Reader.refuseNext complaint) := by
  intro ts _
  unfold Reader.refuseNext
  rw [peek_significant]
  exact .refused (complaint (peek ts)) ts

/-- A reader that takes a significant lexeme leaves no more than what stands behind the first. -/
theorem length_le {t : Lexeme} {ts rest : List Lexeme} {a : α}
    (h : Agrees ((significant ts).length + 1) (significant ts).length R x y)
    (hfront : TakesFront x) (ht : t.token.isComment = false)
    (hread : x (t :: ts) = .ok (a, rest)) : rest.length ≤ ts.length := by
  have hfewer := h (t :: ts) (by rw [significant_cons ht]; rfl)
  rw [hread] at hfewer
  generalize y (significant (t :: ts)) = answer at hfewer
  cases hfewer with
  | taken _ hfewer => exact length_le_of_taken ht (hfront _ _ _ hread) hfewer

end Agrees

namespace Blind

/-! ## Single steps -/

theorem pure (a : α) : Blind n n (Pure.pure a : Reader α) :=
  Agrees.pure rfl

theorem bind {x : Reader α} {f : α → Reader β} {g : α → Reader γ} {R : β → γ → Prop}
    (hx : Blind n k x) (hf : ∀ a, Agrees k m R (f a) (g a)) :
    Agrees n m R (x >>= f) (x >>= g) := by
  refine Agrees.bind hx fun a b hab => ?_
  subst hab
  exact hf a

/-- A reader that only looks, at nothing but significant lexemes. -/
theorem look {f : List Lexeme → α} (h : ∀ ts, f (significant ts) = f ts) :
    Blind n n (fun ts => .ok (f ts, ts) : Reader α) := by
  intro ts hts
  dsimp only
  rw [h]
  exact .taken rfl hts

theorem next : Blind n n Reader.next :=
  look fun _ => peek_significant

theorem lookahead (count : Nat) : Blind n n (Reader.lookahead count) :=
  look fun _ => ahead_significant count

theorem allAhead : Blind n n Reader.allAhead := by
  refine look fun ts => ?_
  rw [ahead_length (by rw [significant_significant]), ahead_length (length_significant_le ts),
    significant_significant]

theorem line : Blind n n Reader.line := by
  refine look fun ts => ?_
  rw [nextLine?_significant]

/-- Taking the next token takes a significant lexeme, if there is one. -/
theorem advance : Blind n (n - 1) Reader.advance := by
  intro ts hts
  have htail : (skipComments (significant ts)).tail = significant (skipComments ts).tail := by
    rw [skipComments_significant, significant_skipComments.2]
  unfold Reader.advance
  rw [htail]
  refine .taken rfl ?_
  rw [significant_skipComments.2, List.length_tail]
  omega

theorem eat (mark : Mark) : Blind n n (Reader.eat mark) := by
  refine bind next fun token => ?_
  exact .ite (bind advance fun _ => .mono (pure true) (by omega)) (pure false)

theorem expect (mark : Mark) : Blind n (n - 1) (Reader.expect mark) :=
  bind next fun _ => .ite advance (.refuseNext _)

theorem atKeyword (keyword : String) : Blind n n (Reader.atKeyword keyword) :=
  bind next fun _ => pure _

theorem expectKeyword (keyword : String) : Blind n (n - 1) (Reader.expectKeyword keyword) :=
  bind next fun _ => .ite advance (.refuseNext _)

theorem ident : Blind n (n - 1) Reader.ident := by
  refine bind next fun token => ?_
  split
  · exact bind advance fun _ => pure _
  · exact .refuseNext _

theorem str : Blind n (n - 1) Reader.str := by
  refine bind next fun token => ?_
  split
  · exact bind advance fun _ => pure _
  · exact .refuseNext _

/-! ## Repetition -/

section

variable {mark : Mark} {item : Reader α} {ts : List Lexeme}

/-- The reader of one more item, which follows a mark. -/
def separated (mark : Mark) (item : Reader α) : Reader (Option α) := do
  if ← Reader.eat mark then some <$> item else return none

theorem eat_of_peek (h : peek ts = some (.mark mark)) :
    Reader.eat mark ts = .ok (true, (skipComments ts).tail) := by
  rw [Reader.eat, bind_eq (x := Reader.next) rfl, if_pos h]
  rfl

theorem repeatWithin_of_peek (h : peek ts = some (.mark mark)) (l : Lexeme) (bound : List Lexeme) :
    repeatWithin (separated mark item) (l :: bound) ts =
      (do
        Reader.advance
        let first ← item
        let rest ← repeatWithin (separated mark item) bound
        return first :: rest : Reader (List α)) ts := by
  have hstep : separated mark item ts = (some <$> item) (skipComments ts).tail := by
    rw [separated, bind_eq (eat_of_peek h), if_pos rfl]
  rw [repeatWithin, bind_eq (x := Reader.advance) rfl]
  simp only [Bind.bind, hstep, Functor.map]
  cases item (skipComments ts).tail <;> rfl

theorem repeatWithin_of_peek_ne (h : peek ts ≠ some (.mark mark)) (bound : List Lexeme) :
    repeatWithin (separated mark item) bound ts = .ok ([], ts) := by
  cases bound with
  | nil => rfl
  | cons l bound =>
    have hstep : separated mark item ts = .ok (none, ts) := by
      rw [separated, bind_eq (eat_of_peek_ne h), if_neg Bool.false_ne_true]
      rfl
    rw [repeatWithin, bind_eq hstep]
    rfl

/-- Items that each follow a mark are read alike within any two bounds that are large enough. -/
theorem repeatWithin (mark : Mark) (hitem : ∀ n, Blind n n item) (bound bound' : List Lexeme)
    (hbound : n ≤ bound.length) (hbound' : n ≤ bound'.length) :
    Agrees n n Eq (Reader.repeatWithin (separated mark item) bound)
      (Reader.repeatWithin (separated mark item) bound') := by
  induction bound generalizing n bound' with
  | nil =>
    -- No lexeme is significant, so that no mark comes next.
    intro ts hts
    have hpeek : peek ts ≠ some (.mark mark) := by
      intro h
      have hpos := length_significant_pos_of_peek h
      simp only [List.length_nil] at hbound
      omega
    rw [repeatWithin_of_peek_ne hpeek,
      repeatWithin_of_peek_ne (by rw [peek_significant]; exact hpeek)]
    exact .taken rfl hts
  | cons l bound ih =>
    intro ts hts
    by_cases hpeek : peek ts = some (.mark mark)
    · have hpos := length_significant_pos_of_peek hpeek
      obtain ⟨l', bound', rfl⟩ := List.exists_cons_of_length_pos (l := bound') (by omega)
      simp only [List.length_cons] at hbound hbound'
      have hrest := ih (n := n - 1) bound' (by omega) (by omega)
      rw [repeatWithin_of_peek hpeek,
        repeatWithin_of_peek (by rw [peek_significant]; exact hpeek)]
      refine (bind advance fun _ => bind (hitem (n - 1)) fun first => ?_) ts hts
      refine hrest.bind fun rest rest' h => .mono (.pure ?_) (Nat.sub_le n 1)
      rw [h]
    · rw [repeatWithin_of_peek_ne hpeek,
        repeatWithin_of_peek_ne (by rw [peek_significant]; exact hpeek)]
      exact .taken rfl hts

theorem repeated (hitem : ∀ n, Blind n n item) :
    Blind n n (Reader.repeated (do if ← Reader.eat mark then some <$> item else return none)) := by
  intro ts hts
  have h := repeatWithin mark hitem ts (significant ts)
    (length_significant_le ts) (Nat.le_refl _) ts (Nat.le_refl _)
  exact h.mono (fun _ _ hab => hab) hts

end

theorem dottedName : Blind n (n - 1) Reader.dottedName :=
  bind (eat _) fun _ => bind ident fun _ =>
    bind (repeated fun n => ident.mono (Nat.sub_le n 1)) fun _ => pure _

/-! ## Raw texts -/

theorem rawTokens (terminator : Mark) (depth : Nat) :
    Blind n n (Reader.rawTokens terminator depth) := by
  intro ts hts
  induction ts generalizing depth with
  | nil => exact .refused .endOfText []
  | cons t ts ih =>
    by_cases ht : t.token.isComment = true
    · rw [Reader.rawTokens, if_pos ht, significant_comment ht]
      exact ih depth (by rwa [significant_comment ht] at hts)
    · have hsignificant : significant (t :: ts) = t :: significant ts :=
        significant_cons (by simpa using ht)
      rw [hsignificant] at hts ⊢
      rw [Reader.rawTokens, Reader.rawTokens, if_neg ht, if_neg ht]
      by_cases hend : depth = 0 ∧ t.token = .mark terminator
      · rw [if_pos hend, if_pos hend, ← hsignificant]
        exact .taken rfl (by rwa [hsignificant])
      · rw [if_neg hend, if_neg hend]
        cases depthAfter depth t.token with
        | error m =>
          rw [← hsignificant]
          exact .refused (.unbalanced m) (t :: ts)
        | ok depth =>
          have hrest := ih depth (Nat.le_of_succ_le hts)
          dsimp only
          generalize Reader.rawTokens terminator depth ts = p at hrest
          generalize Reader.rawTokens terminator depth (significant ts) = q at hrest
          cases hrest with
          | taken related bounded => exact .taken (congrArg (t.token :: ·) related) bounded
          | refused complaint rest => exact .refused complaint rest

theorem rawText (terminator : Mark) : Blind n n (Reader.rawText terminator) :=
  bind (rawTokens terminator 0) fun _ => pure _

/-! ## Options and numbers -/

theorem integer : Blind n n Reader.integer := by
  refine bind (eat .minus) fun negative => bind next fun token => ?_
  split
  · refine bind advance fun _ => ?_
    split
    · exact .mono (pure _) (Nat.sub_le n 1)
    · exact .refuse _
  · exact .refuseNext _

theorem fieldNumber : Blind n n Reader.fieldNumber :=
  bind integer fun _ => .ite (pure _) (.refuse _)

theorem optionDecl : Blind n (n - 1) Reader.optionDecl := by
  refine bind (expectKeyword _) fun _ => bind (rawText _) fun name => bind (expect _) fun _ => ?_
  refine bind (rawText _) fun value => bind (expect _) fun _ => .mono (pure _) ?_
  omega

theorem bracketedOptions : Blind n n Reader.bracketedOptions := by
  refine bind (eat _) fun bracket => .ite ?_ (pure none)
  exact bind (rawText _) fun text => bind (expect _) fun _ => .mono (pure _) (Nat.sub_le n 1)

theorem reservedItem : Blind n n Reader.reservedItem := by
  have htaken (item : ReservedItem) :
      Blind n n (do Reader.advance; return item : Reader ReservedItem) :=
    bind advance fun _ => .mono (pure item) (Nat.sub_le n 1)
  refine bind next fun token => ?_
  split
  · exact htaken _
  · exact .ite (.refuseNext _) (htaken _)
  · refine bind integer fun start => bind (atKeyword _) fun isRange => .ite ?_ (pure _)
    refine bind advance fun _ => bind (atKeyword _) fun isMax => .ite ?_ ?_
    · exact bind advance fun _ => .mono (pure _) (by omega)
    · exact bind integer fun stop => .mono (pure _) (Nat.sub_le n 1)

theorem reservedItems : Blind n n Reader.reservedItems :=
  bind reservedItem fun _ => bind (repeated fun _ => reservedItem) fun _ => pure _

/-! ## Fields -/

theorem fieldLabel : Blind n n Reader.fieldLabel := by
  refine bind (lookahead 2) fun start => ?_
  dsimp only
  exact .ite (bind advance fun _ => .mono (pure _) (Nat.sub_le n 1)) (pure _)

theorem fieldAfterLabel (label : FieldLabel) (line : Nat) :
    Blind n (n - 1) (Reader.fieldAfterLabel label line) := by
  refine bind dottedName fun typeName => bind ident fun name => bind (expect _) fun _ => ?_
  refine bind fieldNumber fun number => bind bracketedOptions fun options => ?_
  exact bind (expect _) fun _ => .mono (pure _) (by omega)

theorem mapField : Blind n (n - 1) Reader.mapField := by
  refine bind line fun line => bind (expectKeyword _) fun _ => bind (expect _) fun _ => ?_
  refine bind dottedName fun keyType => bind (expect _) fun _ => bind dottedName fun valueType => ?_
  refine bind (expect _) fun _ => bind ident fun name => bind (expect _) fun _ => ?_
  refine bind fieldNumber fun number => bind bracketedOptions fun options => ?_
  exact bind (expect _) fun _ => .mono (pure _) (by omega)

theorem atExtend : Blind n n Reader.atExtend :=
  bind (atKeyword _) fun _ => .ite (bind allAhead fun _ => pure _) (pure false)

/-! ## Services -/

theorem rpcType : Blind n (n - 1) Reader.rpcType := by
  refine bind (expect _) fun _ => bind (look fun _ => atStream_significant) fun streaming => ?_
  refine .ite (bind advance fun _ => ?_) ?_
  all_goals
    refine bind dottedName fun typeName => bind (expect _) fun _ => .mono (pure _) ?_
    omega

/-! ## Statements without bodies -/

theorem dialectValue : Blind n n Reader.dialectValue := by
  refine bind (expect _) fun _ => bind str fun value => bind (expect _) fun _ => ?_
  exact .mono (pure _) (by omega)

theorem numberedDialect : Blind n (n - 1) Reader.numberedDialect := by
  refine bind (expectKeyword _) fun _ => bind dialectValue fun value => ?_
  exact .ite (pure _) (.ite (pure _) (.refuse _))

theorem importDecl : Blind n (n - 1) Reader.importDecl := by
  refine bind line fun line => bind (expectKeyword _) fun _ => bind next fun token => ?_
  dsimp only
  refine .ite (bind advance fun _ => ?_) ?_
  all_goals
    refine bind str fun path => bind (expect _) fun _ => .mono (pure _) ?_
    omega

end Blind
end Reader
end SchemaGraph
