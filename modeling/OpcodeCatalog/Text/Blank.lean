import OpcodeCatalog.Text.Basic

/-!
# Blank characters

The characters with the property `White_Space`, and the removal of them at both ends of a text.

Main definitions:

* `Text.isBlank` — the 25 white-space characters;
* `Text.trim` — a text without the blanks around it.
-/

set_option autoImplicit false

namespace OpcodeCatalog

namespace Text

/-- White space: the controls from tabulation to carriage return, the space and its wider and
narrower kinds, the next-line control, and the separators of lines and paragraphs. -/
def isBlank (c : Char) : Bool :=
  let n := c.toNat
  (0x09 ≤ n && n ≤ 0x0D) || n == 0x20 || n == 0x85 || n == 0xA0 || n == 0x1680 ||
    (0x2000 ≤ n && n ≤ 0x200A) || n == 0x2028 || n == 0x2029 || n == 0x202F || n == 0x205F ||
    n == 0x3000

/-- The text without the blanks in front. -/
def trimLeft (t : Text) : Text := t.dropWhile isBlank

/-- The text without the blanks at its end. -/
def trimRight (t : Text) : Text := (t.reverse.dropWhile isBlank).reverse

/-- The text without the blanks around it. -/
def trim (t : Text) : Text := trimRight (trimLeft t)

/-! ### What is left after trimming -/

theorem dropWhile_isBlank_eq_nil_iff {t : Text} :
    t.dropWhile isBlank = [] ↔ ∀ c ∈ t, isBlank c = true := by
  induction t with
  | nil => simp
  | cons c t ih =>
      by_cases hc : isBlank c = true
      · rw [List.dropWhile_cons_of_pos hc, ih]
        simp [hc]
      · rw [List.dropWhile_cons_of_neg hc]
        simp [hc]

/-- Nothing is left exactly of the texts made of blanks alone. -/
theorem trim_eq_nil_iff {t : Text} : trim t = [] ↔ ∀ c ∈ t, isBlank c = true := by
  rw [trim, trimRight, List.reverse_eq_nil_iff, dropWhile_isBlank_eq_nil_iff, trimLeft]
  constructor
  · intro h
    by_cases hd : t.dropWhile isBlank = []
    · exact dropWhile_isBlank_eq_nil_iff.1 hd
    · have hhead := List.head_dropWhile_not isBlank hd
      rw [h _ (by simp)] at hhead
      exact absurd hhead (by decide)
  · intro h c hc
    rw [dropWhile_isBlank_eq_nil_iff.2 h] at hc
    simp at hc

end Text

end OpcodeCatalog
