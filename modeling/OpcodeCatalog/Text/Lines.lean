import OpcodeCatalog.Text.Basic

/-!
# Lines

A text is read as the lines that line feeds end.  A last line without a line feed counts as well,
and carriage returns at the end of a line belong to its ending, however many there are.

Main definitions:

* `Text.lines` — the lines without their line feeds;
* `Text.dropReturns` — a line without the carriage returns at its end.
-/

set_option autoImplicit false

namespace OpcodeCatalog

namespace Text

/-- Puts a character in front of a text that is already cut into lines. -/
def consLine (c : Char) (ls : List Text) : List Text :=
  if c = '\n' then [] :: ls
  else
    match ls with
    | [] => [[c]]
    | l :: ls => (c :: l) :: ls

/-- The lines of a text, without the line feeds.  The empty rest after a last line feed is no
line. -/
def lines (t : Text) : List Text := t.foldr consLine []

/-- The line without the carriage returns at its end. -/
def dropReturns (l : Text) : Text := (l.reverse.dropWhile (· == '\r')).reverse

/-! ### The lines of a text with one more line -/

@[simp] theorem lines_nil : lines [] = [] := rfl

theorem lines_cons (c : Char) (t : Text) : lines (c :: t) = consLine c (lines t) := rfl

/-- A line feed ends the line in front of it, and the rest is cut on its own. -/
theorem lines_append_newline {l : Text} (h : '\n' ∉ l) (t : Text) :
    lines (l ++ '\n' :: t) = l :: lines t := by
  induction l with
  | nil => simp [lines_cons, consLine]
  | cons c l ih =>
      have hc : c ≠ '\n' := fun hc => h (by simp [hc])
      have hl : '\n' ∉ l := fun hl => h (by simp [hl])
      rw [List.cons_append, lines_cons, ih hl]
      simp [consLine, hc]

end Text

end OpcodeCatalog
