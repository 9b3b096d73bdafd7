import Mathlib.Algebra.Group.Nat.Defs
import Mathlib.Data.List.DropRight
import OpcodeCatalog.Listing.Format
import OpcodeCatalog.Text.Lines

/-!
# Listings read back from their columns

A listing as text has a line for each line of the listing.  The columns of the code are as wide for
every code, so they can be cut off at the end of a line even if the name looks like them.  What is
left is the name in its column, and with that the name up to spaces at its end.

Main definitions:

* `Listing.codeColumns` — a line of text behind the column of names;
* `Listing.readColumns` — the name in its column and the code, from a line of text.

Main results:

* `Text.ofDigitChars_fixedDigits` — a number in a field of fixed width is read back;
* `Text.padRight_inj` — a padded text is read back if it does not end in a space;
* `Listing.readColumns_textLine` — **a line of text is read back from its columns**;
* `Listing.lines_render_text` — **the lines of the text are those of the listing**.
-/

set_option autoImplicit false

namespace OpcodeCatalog

namespace Text

/-! ### Fields -/

/-- A field holds digits of its base. -/
theorem exists_digit_of_mem_fixedDigits {base : Nat} (hpos : 0 < base) {width n : Nat} {c : Char}
    (h : c ∈ fixedDigits base width n) : ∃ d < base, c = Nat.digitChar d := by
  induction width generalizing n with
  | zero => simp [fixedDigits] at h
  | succ width ih =>
      rw [fixedDigits, List.mem_append, List.mem_singleton] at h
      rcases h with h | rfl
      · exact ih h
      · exact ⟨n % base, Nat.mod_lt n hpos, rfl⟩

/-- The digits of a field are read as the number, up to the digits that are cut off, by any reader
that knows the digits of the base. -/
theorem foldl_fixedDigits {base : Nat} (hpos : 0 < base) {value : Char → Nat}
    (hvalue : ∀ d < base, value (Nat.digitChar d) = d) (width n : Nat) :
    (fixedDigits base width n).foldl (fun m c => base * m + value c) 0 = n % base ^ width := by
  induction width generalizing n with
  | zero => simp [fixedDigits, Nat.mod_one]
  | succ width ih =>
      rw [fixedDigits, List.foldl_append, ih, List.foldl_cons, List.foldl_nil,
        hvalue _ (Nat.mod_lt n hpos), Nat.pow_succ', Nat.mod_mul, Nat.add_comm]

/-- The digits of a field up to base ten are read as the number. -/
theorem ofDigitChars_fixedDigits {base : Nat} (hpos : 0 < base) (hbase : base ≤ 10)
    (width n : Nat) :
    Nat.ofDigitChars base (fixedDigits base width n) 0 = n % base ^ width := by
  have hvalue : ∀ d < 10, (Nat.digitChar d).toNat - '0'.toNat = d := by decide
  exact foldl_fixedDigits hpos (fun d hd => hvalue d (Nat.lt_of_lt_of_le hd hbase)) width n

/-- The digits of a field are no line feeds. -/
theorem newline_not_mem_fixedDigits {base : Nat} (hpos : 0 < base) (hbase : base ≤ 16)
    (width n : Nat) : '\n' ∉ fixedDigits base width n := by
  have hdigit : ∀ d < 16, '\n' ≠ Nat.digitChar d := by decide
  intro h
  obtain ⟨d, hd, hnewline⟩ := exists_digit_of_mem_fixedDigits hpos h
  exact hdigit d (Nat.lt_of_lt_of_le hd hbase) hnewline

/-- Padding adds nothing but spaces at the end. -/
theorem rdropWhile_padRight (width : Nat) (t : Text) :
    (padRight width t).rdropWhile (· == ' ') = t.rdropWhile (· == ' ') := by
  rw [padRight]
  induction width - t.length with
  | zero => simp
  | succ n ih =>
      rw [List.replicate_succ', ← List.append_assoc, List.rdropWhile_concat_pos _ _ _ (by simp), ih]

/-- A text that does not end in a space has none to cut off. -/
theorem rdropWhile_space_eq_self {t : Text} (h : t.getLast? ≠ some ' ') :
    t.rdropWhile (· == ' ') = t := by
  rw [List.rdropWhile_eq_self_iff]
  intro hne hlast
  rw [List.getLast?_eq_some_getLast hne] at h
  exact h (congrArg some (by simpa using hlast))

/-- A padded text is read back if it does not end in a space. -/
theorem padRight_inj {width : Nat} {s t : Text} (hs : s.getLast? ≠ some ' ')
    (ht : t.getLast? ≠ some ' ') : padRight width s = padRight width t ↔ s = t := by
  constructor
  · intro h
    rw [← rdropWhile_space_eq_self hs, ← rdropWhile_space_eq_self ht,
      ← rdropWhile_padRight width s, h, rdropWhile_padRight]
  · rintro rfl
    rfl

end Text

namespace Listing

/-! ### Lines of text -/

/-- A line of text behind the column of names. -/
def codeColumns (code : Code) : Text :=
  " = 0x".toList ++ Text.fixedDigits 16 2 code.val ++ " # ".toList ++
    Text.fixedDigits 10 3 code.val

/-- The name in its column and the code, from a line of text: the columns of the code are the last
13 characters, and the last three of them are its decimal digits. -/
def readColumns (s : Text) : Text × Nat := (s.rdrop 13, Nat.ofDigitChars 10 (s.rtake 3) 0)

theorem textLine_eq_columns (line : Line) :
    textLine line = Text.padRight nameWidth line.name ++ codeColumns line.code := by
  unfold codeColumns
  simp only [textLine_eq, List.append_assoc]

theorem length_codeColumns (code : Code) : (codeColumns code).length = 13 := by
  unfold codeColumns
  simp

/-- A line of text is read back from its columns. -/
theorem readColumns_textLine (line : Line) :
    readColumns (textLine line) = (Text.padRight nameWidth line.name, line.code.val) := by
  have hname : (textLine line).rdrop 13 = Text.padRight nameWidth line.name := by
    rw [textLine_eq_columns, ← length_codeColumns line.code, List.rdrop_append_length]
  have hcode : (textLine line).rtake 3 = Text.fixedDigits 10 3 line.code.val := by
    rw [textLine_eq]
    exact List.drop_left' (by simp)
  rw [readColumns, hname, hcode, Text.ofDigitChars_fixedDigits (by decide) (by decide),
    Nat.mod_eq_of_lt (Nat.lt_trans line.code.isLt (by decide))]

/-! ### The lines of a listing -/

/-- A line of text has no line feed in it if the name has none. -/
theorem newline_not_mem_textLine {line : Line} (h : '\n' ∉ line.name) : '\n' ∉ textLine line := by
  simp [textLine_eq, Text.padRight, h, Text.newline_not_mem_fixedDigits]

/-- The lines of the text are those of the listing. -/
theorem lines_render_text {lines : List Line} (h : ∀ line ∈ lines, '\n' ∉ line.name) :
    Text.lines (render .text lines) = lines.map textLine := by
  induction lines with
  | nil => rfl
  | cons line rest ih =>
      have hline := newline_not_mem_textLine (h line (List.mem_cons_self ..))
      rw [render_text_cons, Text.lines_append_newline hline,
        ih fun line hline => h line (List.mem_cons_of_mem _ hline), List.map_cons]

end Listing

end OpcodeCatalog
