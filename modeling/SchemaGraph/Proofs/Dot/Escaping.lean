import Mathlib.Algebra.Ring.Parity
import SchemaGraph.Dot.Document
/-!
# Foreign text stays in its place

A text printed in the comment of a document does not end the comment (`closedByHeader_document`),
one printed in a double-quoted string neither ends the string nor takes what stands behind it
(`staysQuoted_escapeQuoted`), and one printed in an HTML-like label opens no tag and no entity of
its own (`staysInLabel_escapeHtml`). Strings and labels give the text back
(`unescapeQuoted_escapeQuoted`, `decodeHtml_escapeHtml`).
-/

namespace SchemaGraph.Dot

/-! ## Comments -/

/-- The characters do not end a comment. -/
def NoCommentEnd (cs : List Char) : Prop :=
  ¬ ['*', '/'] <:+: cs

theorem NoCommentEnd.nil : NoCommentEnd [] := by
  unfold NoCommentEnd
  decide

/-- No end of a comment arises between two texts unless one has the star and the other the slash. -/
theorem NoCommentEnd.append {as bs : List Char} (has : NoCommentEnd as) (hbs : NoCommentEnd bs)
    (hseam : as.getLast? ≠ some '*' ∨ bs.head? ≠ some '/') : NoCommentEnd (as ++ bs) := by
  induction as with
  | nil => exact hbs
  | cons a as ih =>
    intro hend
    rcases List.infix_cons_iff.1 hend with hprefix | hinfix
    · obtain ⟨rfl, hslash⟩ := List.cons_prefix_cons.1 hprefix
      cases as with
      | nil =>
        rcases hseam with hlast | hhead
        · exact hlast rfl
        · obtain ⟨rest, hrest⟩ := hslash
          exact hhead (congrArg List.head? hrest).symm
      | cons a' as =>
        obtain ⟨rfl, -⟩ := List.cons_prefix_cons.1 hslash
        exact has ⟨[], as, rfl⟩
    · refine ih (fun h => has (List.infix_cons_iff.2 (.inr h))) ?_ hinfix
      rcases hseam with hlast | hhead
      · cases as with
        | nil => exact .inl (by simp)
        | cons a' as => exact .inl (by simpa using hlast)
      · exact .inr hhead

theorem NoCommentEnd.of_not_mem {cs : List Char} (h : '*' ∉ cs) : NoCommentEnd cs :=
  fun hend => h (hend.subset (by simp))

theorem head?_partCommentEnd (cs : List Char) : (partCommentEnd cs).head? = cs.head? := by
  fun_cases partCommentEnd cs <;> rfl

theorem noCommentEnd_partCommentEnd (cs : List Char) : NoCommentEnd (partCommentEnd cs) := by
  induction cs using partCommentEnd.induct with
  | case1 rest ih =>
    rw [partCommentEnd]
    have hparted : NoCommentEnd ['*', ' ', '/'] := by unfold NoCommentEnd; decide
    exact hparted.append ih (.inl (by decide))
  | case2 c rest hstay ih =>
    rw [partCommentEnd.eq_2 c rest hstay]
    have hone : NoCommentEnd [c] := fun hend => by
      simpa using hend.length_le
    refine hone.append ih ?_
    rw [head?_partCommentEnd]
    by_cases hc : c = '*'
    · -- The star is not in front of a slash, or the other equation would hold.
      right
      intro hslash
      obtain ⟨rest', rfl⟩ := List.head?_eq_some_iff.1 hslash
      exact hstay rest' hc rfl
    · exact .inl (by simpa using hc)
  | case3 => exact .nil

/-- The text is a line that does not end a comment. -/
structure IsCommentLine (line : String) : Prop where
  noEnd : NoCommentEnd line.toList
  newline : line.toList.getLast? = some '\n'

/-- A line of a comment that has a foreign text behind a label without a star. -/
theorem isCommentLine_escapeComment {label : String} (hlabel : '*' ∉ label.toList)
    (text : String) : IsCommentLine (label ++ escapeComment text ++ "\n") := by
  have hlast : label.toList.getLast? ≠ some '*' := fun h => hlabel (List.mem_of_getLast? h)
  constructor
  · rw [String.toList_append, String.toList_append, escapeComment, String.toList_ofList]
    refine NoCommentEnd.append (.append (.of_not_mem hlabel) (noCommentEnd_partCommentEnd _)
      (.inl hlast)) (.of_not_mem (by decide)) (.inr (by decide))
  · rw [String.toList_append, List.getLast?_append]
    rfl

theorem isCommentLine_of_not_mem {line : String} (hstar : '*' ∉ line.toList)
    (hnewline : line.toList.getLast? = some '\n') : IsCommentLine line :=
  ⟨.of_not_mem hstar, hnewline⟩

theorem noCommentEnd_join {lines : List String} (h : ∀ line ∈ lines, IsCommentLine line) :
    NoCommentEnd (String.join lines).toList := by
  rw [String.toList_join]
  induction lines with
  | nil => exact .nil
  | cons line lines ih =>
    have hline := h line (.head _)
    rw [List.flatMap_cons]
    refine hline.noEnd.append (ih fun l hl => h l (.tail _ hl)) (.inl ?_)
    rw [hline.newline]
    decide

/-- The comment at the top of the text is closed by the last line of the header, which is the first
end of a comment in the whole text. -/
def ClosedByHeader (header : Header) (text : String) : Prop :=
  ∃ above below rest, headerLines header = "/*\n" :: above ++ "*/\n" :: below ∧
    (∀ line ∈ above, line.toList.getLast? = some '\n') ∧
    text = String.join ("/*\n" :: above) ++ "*/\n" ++ rest ∧
    ∀ u v, text.toList = u ++ '*' :: '/' :: v →
      (String.join ("/*\n" :: above)).toList.length ≤ u.length

/-- The lines of the comment of a document, without the one that opens and the one that closes it.
-/
def commentLines (header : Header) : List String :=
  ["    generated by protograph " ++ version ++ "\n",
    "    source:    " ++ escapeComment header.source ++ "\n",
    "    package:   " ++ escapeComment header.package ++ "\n"] ++
  (match header.selection with
    | some selection => ["    selection: " ++ escapeComment selection ++ "\n"]
    | none => [])

theorem isCommentLine_of_mem {header : Header} {line : String} (h : line ∈ commentLines header) :
    IsCommentLine line := by
  unfold commentLines at h
  rcases List.mem_append.1 h with h | h
  · rcases List.mem_cons.1 h with rfl | h
    · exact isCommentLine_of_not_mem (by decide) (by decide)
    rcases List.mem_cons.1 h with rfl | h
    · exact isCommentLine_escapeComment (by decide) _
    · rw [List.mem_singleton.1 h]
      exact isCommentLine_escapeComment (by decide) _
  · split at h
    · rw [List.mem_singleton.1 h]
      exact isCommentLine_escapeComment (by decide) _
    · cases h

/-- Up to where a text has no end of a comment, the first one stands there. -/
theorem NoCommentEnd.length_le {above rest u v : List Char} (h : NoCommentEnd above)
    (heq : above ++ '*' :: '/' :: rest = u ++ '*' :: '/' :: v) : above.length ≤ u.length := by
  by_contra hlt
  have hstar : NoCommentEnd (above ++ ['*']) :=
    h.append (by unfold NoCommentEnd; decide) (.inr (by decide))
  have htext : u ++ ['*', '/'] <+: above ++ '*' :: '/' :: rest := ⟨v, by simp [heq]⟩
  have hprefix : u ++ ['*', '/'] <+: above ++ ['*'] := by
    refine List.prefix_of_prefix_length_le htext ⟨'/' :: rest, by simp⟩ ?_
    simp only [List.length_append, List.length_cons, List.length_nil]
    omega
  exact hstar ((List.infix_append' u ['*', '/'] []).trans (by simpa using hprefix.isInfix))

/-- **The first end of a comment in a document is the line that closes its header.** -/
theorem closedByHeader_document (header : Header) (nodes : List String) (title : String)
    (arrows : List String) : ClosedByHeader header (document header nodes title arrows) := by
  have hlines : ∃ below, headerLines header = "/*\n" :: commentLines header ++ "*/\n" :: below :=
    ⟨_, rfl⟩
  obtain ⟨below, hlines⟩ := hlines
  have hnoEnd : NoCommentEnd (String.join ("/*\n" :: commentLines header)).toList := by
    rw [String.toList_join, List.flatMap_cons, ← String.toList_join]
    exact .append (by unfold NoCommentEnd; decide)
      (noCommentEnd_join fun line h => isCommentLine_of_mem h) (.inl (by decide))
  have htext : document header nodes title arrows = String.join ("/*\n" :: commentLines header) ++
      "*/\n" ++ String.join (below ++ ["\n    // nodes\n"] ++ nodes ++
        ["\n    // " ++ title ++ "\n"] ++ arrows ++ ["\x7d\n"]) := by
    rw [← String.toList_inj]
    simp [document, hlines]
  refine ⟨commentLines header, below, _, hlines, fun line h => (isCommentLine_of_mem h).newline,
    htext, fun u v huv => ?_⟩
  have hclosing : "*/\n".toList = '*' :: '/' :: ['\n'] := by decide
  rw [htext, String.append_assoc, String.toList_append, String.toList_append, hclosing] at huv
  exact hnoEnd.length_le huv

/-! ## Escaping one character after the other -/

/-- A character of an escaped text belongs to one character of the text. -/
theorem exists_of_flatMap_eq {escape : Char → List Char} {cs u v : List Char} {c : Char}
    (h : cs.flatMap escape = u ++ c :: v) :
    ∃ before b after u' v', cs = before ++ b :: after ∧ escape b = u' ++ c :: v' ∧
      u = before.flatMap escape ++ u' ∧ v = v' ++ after.flatMap escape := by
  induction cs generalizing u with
  | nil => simp at h
  | cons b cs ih =>
    rw [List.flatMap_cons] at h
    rcases List.append_eq_append_iff.1 h with ⟨u', rfl, hrest⟩ | ⟨w, hfirst, hrest⟩
    · obtain ⟨before, b', after, u'', v', rfl, hb, rfl, rfl⟩ := ih hrest
      exact ⟨b :: before, b', after, u'', v', rfl, hb, by simp, rfl⟩
    · cases w with
      | nil =>
        obtain ⟨before, b', after, u'', v', rfl, hb, hu, rfl⟩ := ih (u := []) hrest.symm
        refine ⟨b :: before, b', after, u'', v', rfl, hb, ?_, rfl⟩
        rw [List.flatMap_cons, List.append_assoc, ← hu, hfirst, List.append_nil, List.append_nil]
      | cons c' w =>
        obtain ⟨rfl, rfl⟩ := List.cons.inj hrest
        exact ⟨[], b, cs, u, w, rfl, hfirst, rfl, rfl⟩

/-! ## Double-quoted strings -/

/-- The number of backslashes that the characters end with. -/
def backslashRun (cs : List Char) : Nat :=
  (cs.reverse.takeWhile (· = '\\')).length

/-- The characters stay in the double-quoted string they are put into: no quote among them ends it,
and they do not make the quote behind them one of theirs. -/
structure StaysQuoted (cs : List Char) : Prop where
  quote : ∀ u v, cs = u ++ '"' :: v → Odd (backslashRun u)
  ending : ¬ Odd (backslashRun cs)

/-- The characters that those of a double-quoted string stand for: a backslash makes the character
behind it plain. -/
def unescapeQuoted : List Char → List Char
  | '\\' :: c :: rest => c :: unescapeQuoted rest
  | c :: rest => c :: unescapeQuoted rest
  | [] => []

/-- Characters that end in an even number of backslashes do not change whether the number behind
them is odd. -/
theorem odd_backslashRun_append {as : List Char} (has : Even (backslashRun as)) (bs : List Char) :
    Odd (backslashRun (as ++ bs)) ↔ Odd (backslashRun bs) := by
  unfold backslashRun at *
  rw [List.reverse_append, List.takeWhile_append]
  split
  · rename_i hall
    rw [List.length_append, Nat.odd_add, ← hall]
    exact ⟨fun h => h.2 has, fun h => ⟨fun _ => has, fun _ => h⟩⟩
  · rfl

theorem even_backslashRun_escapeQuotedChar (c : Char) :
    Even (backslashRun (escapeQuotedChar c)) := by
  unfold escapeQuotedChar
  split
  · exact ⟨1, by decide⟩
  split
  · exact ⟨0, by decide⟩
  · rename_i hc _
    exact ⟨0, by simp [backslashRun, hc]⟩

theorem even_backslashRun_flatMap (cs : List Char) :
    Even (backslashRun (cs.flatMap escapeQuotedChar)) := by
  induction cs with
  | nil => exact ⟨0, rfl⟩
  | cons c cs ih =>
    rw [← Nat.not_odd_iff_even] at ih ⊢
    rwa [List.flatMap_cons, odd_backslashRun_append (even_backslashRun_escapeQuotedChar c)]

/-- A quote is only printed for a quote, behind one backslash. -/
theorem eq_of_escapeQuotedChar_eq {c : Char} {u v : List Char}
    (h : escapeQuotedChar c = u ++ '"' :: v) : u = ['\\'] := by
  unfold escapeQuotedChar at h
  split at h
  · have hmem : '"' ∈ ['\\', '\\'] := h ▸ by simp
    exact absurd hmem (by decide)
  split at h
  · cases u with
    | nil => exact absurd (List.cons.inj h).1 (by decide)
    | cons a u =>
      obtain ⟨rfl, hrest⟩ := List.cons.inj h
      cases u with
      | nil => rfl
      | cons a' u => simp at hrest
  · rename_i hquote
    have hmem : '"' ∈ [c] := h ▸ by simp
    exact absurd (List.mem_singleton.1 hmem).symm hquote

/-- **An escaped text does not leave the double-quoted string it is printed in.** -/
theorem staysQuoted_escapeQuoted (s : String) : StaysQuoted (escapeQuoted s).toList := by
  unfold escapeQuoted
  rw [String.toList_ofList]
  refine ⟨fun u v h => ?_, Nat.not_odd_iff_even.2 (even_backslashRun_flatMap _)⟩
  obtain ⟨before, b, after, u', v', -, hb, rfl, -⟩ := exists_of_flatMap_eq h
  rw [odd_backslashRun_append (even_backslashRun_flatMap before), eq_of_escapeQuotedChar_eq hb]
  exact ⟨0, by decide⟩

theorem unescapeQuoted_escapeQuotedChar_append (c : Char) (rest : List Char) :
    unescapeQuoted (escapeQuotedChar c ++ rest) = c :: unescapeQuoted rest := by
  unfold escapeQuotedChar
  split
  · rename_i hc
    rw [hc]
    rfl
  split
  · rename_i hc
    rw [hc]
    rfl
  · rename_i hc _
    exact unescapeQuoted.eq_2 c rest fun _ _ h => absurd h hc

theorem unescapeQuoted_escapeQuoted (s : String) :
    unescapeQuoted (escapeQuoted s).toList = s.toList := by
  unfold escapeQuoted
  rw [String.toList_ofList]
  induction s.toList with
  | nil => rfl
  | cons c cs ih => rw [List.flatMap_cons, unescapeQuoted_escapeQuotedChar_append, ih]

/-! ## Labels -/

/-- The entities of a label. -/
def entities : List (List Char) :=
  ["&amp;".toList, "&lt;".toList, "&gt;".toList, "&quot;".toList]

/-- The characters stay in the label they are put into: no tag begins or ends, no attribute ends,
and every ampersand begins an entity. -/
structure StaysInLabel (cs : List Char) : Prop where
  plain : ∀ c ∈ cs, c ≠ '<' ∧ c ≠ '>' ∧ c ≠ '"'
  entity : ∀ u v, cs = u ++ '&' :: v → ∃ e ∈ entities, e <+: '&' :: v

/-- The characters that those of a label stand for. -/
def decodeHtml : List Char → List Char
  | '&' :: 'a' :: 'm' :: 'p' :: ';' :: rest => '&' :: decodeHtml rest
  | '&' :: 'l' :: 't' :: ';' :: rest => '<' :: decodeHtml rest
  | '&' :: 'g' :: 't' :: ';' :: rest => '>' :: decodeHtml rest
  | '&' :: 'q' :: 'u' :: 'o' :: 't' :: ';' :: rest => '"' :: decodeHtml rest
  | c :: rest => c :: decodeHtml rest
  | [] => []

/-- One character is printed as an entity, or as itself where it has none. -/
theorem escapeHtmlChar_cases (c : Char) :
    escapeHtmlChar c ∈ entities ∨
      escapeHtmlChar c = [c] ∧ c ≠ '&' ∧ c ≠ '<' ∧ c ≠ '>' ∧ c ≠ '"' := by
  unfold escapeHtmlChar
  split
  · exact .inl (by decide)
  split
  · exact .inl (by decide)
  split
  · exact .inl (by decide)
  split
  · exact .inl (by decide)
  · exact .inr ⟨rfl, by assumption, by assumption, by assumption, by assumption⟩

/-- An entity has its ampersand in front and no other character that matters in a label. -/
theorem of_mem_entities {e : List Char} (he : e ∈ entities) :
    e.head? = some '&' ∧ '&' ∉ e.tail ∧ ∀ c ∈ e, c ≠ '<' ∧ c ≠ '>' ∧ c ≠ '"' := by
  have hall : ∀ e ∈ entities, e.head? = some '&' ∧ '&' ∉ e.tail ∧ '<' ∉ e ∧ '>' ∉ e ∧ '"' ∉ e := by
    decide
  obtain ⟨hhead, htail, hless, hgreater, hquote⟩ := hall e he
  exact ⟨hhead, htail, fun c hc => ⟨ne_of_mem_of_not_mem hc hless,
    ne_of_mem_of_not_mem hc hgreater, ne_of_mem_of_not_mem hc hquote⟩⟩

/-- **An escaped text does not leave the label it is printed in.** -/
theorem staysInLabel_escapeHtml (s : String) : StaysInLabel (escapeHtml s).toList := by
  unfold escapeHtml
  rw [String.toList_ofList]
  constructor
  · intro c hc
    obtain ⟨b, -, hc⟩ := List.mem_flatMap.1 hc
    rcases escapeHtmlChar_cases b with hentity | ⟨hself, -, hplain⟩
    · exact (of_mem_entities hentity).2.2 c hc
    · rw [hself, List.mem_singleton] at hc
      exact hc ▸ hplain
  · intro u v h
    obtain ⟨before, b, after, u', v', -, hb, -, rfl⟩ := exists_of_flatMap_eq h
    rcases escapeHtmlChar_cases b with hentity | ⟨hself, hamp, -⟩
    · obtain ⟨-, htail, -⟩ := of_mem_entities hentity
      rw [hb] at hentity htail
      cases u' with
      | nil => exact ⟨_, hentity, after.flatMap escapeHtmlChar, rfl⟩
      | cons a u' => simp at htail
    · have hmem : '&' ∈ [b] := hself ▸ hb ▸ by simp
      exact absurd (List.mem_singleton.1 hmem).symm hamp

theorem decodeHtml_escapeHtmlChar_append (c : Char) (rest : List Char) :
    decodeHtml (escapeHtmlChar c ++ rest) = c :: decodeHtml rest := by
  unfold escapeHtmlChar
  split
  · rename_i hc
    rw [hc]
    rfl
  split
  · rename_i hc
    rw [hc]
    rfl
  split
  · rename_i hc
    rw [hc]
    rfl
  split
  · rename_i hc
    rw [hc]
    rfl
  · rename_i hamp _ _ _
    rw [List.singleton_append]
    apply decodeHtml.eq_5 <;> intro _ h <;> exact absurd h hamp

theorem decodeHtml_escapeHtml (s : String) : decodeHtml (escapeHtml s).toList = s.toList := by
  unfold escapeHtml
  rw [String.toList_ofList]
  induction s.toList with
  | nil => rfl
  | cons c cs ih => rw [List.flatMap_cons, decodeHtml_escapeHtmlChar_append, ih]

/-! ## All places -/

/-- **Printed text stays in its place.** The comment at the top of a document ends where its header
closes it, whatever source, package and selection it names. A text escaped for a double-quoted
string or for a label does not leave it, and can be read back from there. -/
theorem foreign_text_stays_in_place :
    (∀ header entities edges registry grouping,
      ClosedByHeader header (renderGraph header entities edges registry grouping)) ∧
    (∀ header units, ClosedByHeader header (renderImports header units)) ∧
    (∀ s, StaysQuoted (escapeQuoted s).toList ∧
      unescapeQuoted (escapeQuoted s).toList = s.toList) ∧
    ∀ s, StaysInLabel (escapeHtml s).toList ∧ decodeHtml (escapeHtml s).toList = s.toList :=
  ⟨fun header _ _ _ _ => closedByHeader_document header _ _ _,
    fun header _ => closedByHeader_document header _ _ _,
    fun s => ⟨staysQuoted_escapeQuoted s, unescapeQuoted_escapeQuoted s⟩,
    fun s => ⟨staysInLabel_escapeHtml s, decodeHtml_escapeHtml s⟩⟩

end SchemaGraph.Dot
