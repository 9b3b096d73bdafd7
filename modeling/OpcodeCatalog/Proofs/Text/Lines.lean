import Mathlib.Data.List.DropRight
import OpcodeCatalog.Text.Lines

/-!
# Lines as pieces between line feeds

`Text.lines` cuts a text from its end, one character at a time.  Here it is read as a split of the
whole text: the lines are the pieces between line feeds, and only an empty piece at the very end is
no line.

Main definitions:

* `Text.dropFinalEmpty` — pieces without an empty one at the end;
* `Text.EndsLine` — a text made of whole lines.

Main results:

* `Text.lines_eq_splitOn` — **the lines of a text are its pieces between line feeds**;
* `Text.newline_not_mem_of_mem_lines` — no line has a line feed in it;
* `Text.dropReturns_eq_rdropWhile` — the carriage returns removed are those at the end;
* `Text.lines_append`, `Text.length_lines` — **behind whole lines a text is cut on its own**, and
  there are as many of them as line feeds.
-/

set_option autoImplicit false

namespace OpcodeCatalog

namespace Text

/-- The pieces without the last one, if that is empty. -/
def dropFinalEmpty (pieces : List Text) : List Text :=
  if pieces.getLast? = some [] then pieces.dropLast else pieces

theorem dropFinalEmpty_cons {pieces : List Text} (h : pieces ≠ []) (piece : Text) :
    dropFinalEmpty (piece :: pieces) = piece :: dropFinalEmpty pieces := by
  have hlast : (piece :: pieces).getLast? = pieces.getLast? := by
    rw [List.getLast?_cons, List.getLast?_eq_getLast_of_ne_nil h, Option.getD_some]
  unfold dropFinalEmpty
  rw [hlast, List.dropLast_cons_of_ne_nil h]
  split <;> rfl

/-- Putting a character in front of a text puts it in front of the first piece. -/
theorem consLine_dropFinalEmpty {c : Char} (hc : c ≠ '\n') (piece : Text) (rest : List Text) :
    consLine c (dropFinalEmpty (piece :: rest)) = dropFinalEmpty ((c :: piece) :: rest) := by
  by_cases hrest : rest = []
  · -- the only piece may be the empty one, which is no line before the character is put there
    subst hrest
    by_cases hpiece : piece = [] <;> simp [dropFinalEmpty, consLine, hc, hpiece]
  · rw [dropFinalEmpty_cons hrest, dropFinalEmpty_cons hrest]
    simp [consLine, hc]

/-- **The lines of a text are its pieces between line feeds**, less an empty piece at the end. -/
theorem lines_eq_splitOn (t : Text) : lines t = dropFinalEmpty (t.splitOn '\n') := by
  induction t with
  | nil => simp [dropFinalEmpty]
  | cons c t ih =>
      obtain ⟨piece, rest, hsplit⟩ := List.exists_cons_of_ne_nil (List.splitOn_ne_nil '\n' t)
      rw [lines_cons, ih, List.splitOn_cons_eq_if_modifyHead, hsplit]
      by_cases hc : c = '\n'
      · subst hc
        rw [if_pos (beq_self_eq_true _), dropFinalEmpty_cons (List.cons_ne_nil _ _)]
        simp [consLine]
      · rw [if_neg (by simpa using hc), List.modifyHead_cons, consLine_dropFinalEmpty hc]

/-- A line with one more character in front is a new line, a line as before, or the first one with
that character. -/
theorem mem_consLine {c : Char} {l : Text} {ls : List Text} (h : l ∈ consLine c ls) :
    l = [] ∨ l ∈ ls ∨ c ≠ '\n' ∧ ∃ first, (first = [] ∨ first ∈ ls) ∧ l = c :: first := by
  unfold consLine at h
  split at h
  · rcases List.mem_cons.1 h with rfl | h
    · exact Or.inl rfl
    · exact Or.inr (Or.inl h)
  · rename_i hc
    cases ls with
    | nil => exact Or.inr (Or.inr ⟨hc, [], Or.inl rfl, List.mem_singleton.1 h⟩)
    | cons first rest =>
        rcases List.mem_cons.1 h with rfl | h
        · exact Or.inr (Or.inr ⟨hc, first, Or.inr (List.mem_cons_self ..), rfl⟩)
        · exact Or.inr (Or.inl (List.mem_cons_of_mem _ h))

/-- No line of a text has a line feed in it. -/
theorem newline_not_mem_of_mem_lines {t l : Text} (h : l ∈ lines t) : '\n' ∉ l := by
  induction t generalizing l with
  | nil => simp at h
  | cons c t ih =>
      rw [lines_cons] at h
      obtain rfl | h | ⟨hc, first, hfirst, rfl⟩ := mem_consLine h
      · exact List.not_mem_nil
      · exact ih h
      · have hrest : '\n' ∉ first := by
          rcases hfirst with rfl | hfirst
          · exact List.not_mem_nil
          · exact ih hfirst
        rw [List.mem_cons, not_or]
        exact ⟨Ne.symm hc, hrest⟩

theorem dropReturns_eq_rdropWhile (l : Text) : dropReturns l = l.rdropWhile (· == '\r') := rfl

/-! ### Texts made of whole lines -/

/-- The text is empty or ends with a line feed. -/
def EndsLine (t : Text) : Prop := t = [] ∨ t.getLast? = some '\n'

instance (t : Text) : Decidable (EndsLine t) := inferInstanceAs (Decidable (_ ∨ _))

theorem EndsLine.tail {c : Char} {t : Text} (h : EndsLine (c :: t)) : EndsLine t := by
  cases t with
  | nil => exact Or.inl rfl
  | cons d t => exact h.imp (by simp) (by simp)

theorem EndsLine.eq_newline {c : Char} (h : EndsLine [c]) : c = '\n' := by
  simpa [EndsLine] using h

theorem lines_ne_nil {t : Text} (h : t ≠ []) : lines t ≠ [] := by
  cases t with
  | nil => exact absurd rfl h
  | cons c t =>
      rw [lines_cons]
      unfold consLine
      split
      · exact List.cons_ne_nil _ _
      · split <;> exact List.cons_ne_nil _ _

theorem consLine_append (c : Char) {ls : List Text} (h : ls ≠ []) (ls' : List Text) :
    consLine c (ls ++ ls') = consLine c ls ++ ls' := by
  obtain ⟨l, rest, rfl⟩ := List.exists_cons_of_ne_nil h
  unfold consLine
  split <;> rfl

theorem length_consLine_of_ne {c : Char} (hc : c ≠ '\n') {ls : List Text} (h : ls ≠ []) :
    (consLine c ls).length = ls.length := by
  obtain ⟨l, rest, rfl⟩ := List.exists_cons_of_ne_nil h
  simp [consLine, hc]

/-- Behind whole lines the lines of a text are cut on their own. -/
theorem lines_append {s : Text} (h : EndsLine s) (t : Text) :
    lines (s ++ t) = lines s ++ lines t := by
  induction s with
  | nil => rfl
  | cons c s ih =>
      rw [List.cons_append, lines_cons, lines_cons]
      by_cases hs : s = []
      · subst hs
        rw [h.eq_newline]
        simp [consLine]
      · rw [ih h.tail, consLine_append c (lines_ne_nil hs)]

/-- A text of whole lines has as many lines as line feeds. -/
theorem length_lines {s : Text} (h : EndsLine s) : (lines s).length = s.count '\n' := by
  induction s with
  | nil => rfl
  | cons c s ih =>
      rw [lines_cons]
      by_cases hc : c = '\n'
      · subst hc
        simp [consLine, ih h.tail]
      · have hs : s ≠ [] := by
          rintro rfl
          exact hc h.eq_newline
        rw [length_consLine_of_ne hc (lines_ne_nil hs), ih h.tail, List.count_cons_of_ne hc]

end Text

end OpcodeCatalog
