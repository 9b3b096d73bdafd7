import OpcodeCatalog.Proofs.Listing.Columns
import OpcodeCatalog.Proofs.Listing.Positions
import OpcodeCatalog.Proofs.Text.Utf8

/-!
# Listings as text

A listing as text has a line of text for each of its lines, made of the whole name, spaces up to the
width of the column, and the code in two bases.  Nothing is escaped, but the columns of the code have
a fixed width, so a line is read from its end.  What is not known then are spaces at the end of a
name that is shorter than its column.

Main definitions:

* `Text.IsNumeral` — a numeral of fixed width in any base up to sixteen;
* `Listing.HasColumns` — the text of a line;
* `Listing.readText` — the names and codes from the bytes of a listing.

Main results:

* `Text.isNumeral_fixedDigits` — a field holds the numeral of its number;
* `Listing.render_text_eq_iff` — **what two listings with the same text have in common**;
* `Listing.text_read_back` — **a listing as text is read back from its bytes**.
-/

set_option autoImplicit false

namespace OpcodeCatalog

namespace Text

/-! ### Numerals -/

/-- The digits, in lower case and in the order of their values. -/
def digits : Text := "0123456789abcdef".toList

/-- The text is the numeral of `n` with this many digits. -/
structure IsNumeral (base width n : Nat) (numeral : Text) : Prop where
  length_eq : numeral.length = width
  mem_digits : ∀ c ∈ numeral, c ∈ digits.take base
  value_eq : numeral.foldl (fun m c => base * m + digits.idxOf c) 0 = n

/-- A field holds the numeral of its number, if that is not too wide. -/
theorem isNumeral_fixedDigits {base width n : Nat} (hpos : 0 < base) (hbase : base ≤ 16)
    (hn : n < base ^ width) : IsNumeral base width n (fixedDigits base width n) := by
  have hmem : ∀ d < 16, digits[d]? = some (Nat.digitChar d) := by decide
  have hvalue : ∀ d < 16, digits.idxOf (Nat.digitChar d) = d := by decide
  refine ⟨length_fixedDigits base width n, ?_, ?_⟩
  · intro c hc
    obtain ⟨d, hd, rfl⟩ := exists_digit_of_mem_fixedDigits hpos hc
    have hget : (digits.take base)[d]? = some (Nat.digitChar d) := by
      rw [List.getElem?_take_of_lt hd, hmem d (Nat.lt_of_lt_of_le hd hbase)]
    exact List.mem_of_getElem? hget
  · rw [foldl_fixedDigits hpos (fun d hd => hvalue d (Nat.lt_of_lt_of_le hd hbase)),
      Nat.mod_eq_of_lt hn]

end Text

namespace Listing

/-! ### The text of a line -/

/-- The text of a line: the whole name, with spaces up to the width of its column, and the code in
both bases. -/
def HasColumns (line : Line) (s : Text) : Prop :=
  ∃ (spaces : Nat) (hex decimal : Text),
    s = line.name ++ List.replicate spaces ' ' ++ " = 0x".toList ++ hex ++ " # ".toList ++ decimal ∧
    line.name.length + spaces = max 20 line.name.length ∧
    Text.IsNumeral 16 2 line.code.val hex ∧ Text.IsNumeral 10 3 line.code.val decimal

theorem hasColumns_textLine (line : Line) : HasColumns line (textLine line) := by
  refine ⟨20 - line.name.length, _, _, textLine_eq line, by omega, ?_, ?_⟩
  · exact Text.isNumeral_fixedDigits (by decide) (by decide) line.code.isLt
  · exact Text.isNumeral_fixedDigits (by decide) (by decide)
      (Nat.lt_trans line.code.isLt (by decide))

/-! ### What the text of a listing tells -/

/-- A line with its name in its column. -/
def columns (line : Line) : Text × Code := (Text.padRight nameWidth line.name, line.code)

theorem render_text_eq_flatMap (lines : List Line) :
    render .text lines = (lines.map textLine).flatMap (· ++ ['\n']) := by
  induction lines with
  | nil => rfl
  | cons line lines ih =>
      rw [render_text_cons, ih, List.map_cons, List.flatMap_cons, List.append_assoc,
        List.singleton_append]

/-- The columns are all that the text tells. -/
theorem render_text_eq_of_columns {lines lines' : List Line}
    (h : lines.map columns = lines'.map columns) : render .text lines = render .text lines' := by
  have htext : ∀ lines : List Line,
      lines.map textLine = (lines.map columns).map fun c => c.1 ++ codeColumns c.2 := by
    intro lines
    rw [List.map_map]
    exact List.map_congr_left fun line _ => textLine_eq_columns line
  rw [render_text_eq_flatMap, render_text_eq_flatMap, htext, htext, h]

/-- The text tells the columns. -/
theorem map_readColumns_lines {lines : List Line} (h : ∀ line ∈ lines, '\n' ∉ line.name) :
    (Text.lines (render .text lines)).map readColumns =
      (lines.map columns).map (Prod.map id Fin.val) := by
  rw [lines_render_text h, List.map_map, List.map_map]
  exact List.map_congr_left fun line _ => readColumns_textLine line

/-- **What two listings with the same text have in common**: the codes, and the names up to spaces
that the column has anyway. -/
theorem render_text_eq_iff {lines lines' : List Line} (h : ∀ line ∈ lines, '\n' ∉ line.name)
    (h' : ∀ line ∈ lines', '\n' ∉ line.name) :
    render .text lines = render .text lines' ↔ lines.map columns = lines'.map columns := by
  constructor
  · intro hrender
    have hcolumns := map_readColumns_lines h
    rw [hrender, map_readColumns_lines h'] at hcolumns
    have hinjective : Function.Injective (Prod.map (id : Text → Text) (Fin.val : Code → Nat)) :=
      Function.injective_id.prodMap Fin.val_injective
    exact (List.map_injective_iff.2 hinjective hcolumns).symm
  · exact render_text_eq_of_columns

theorem map_columns_eq_iff {lines lines' : List Line} :
    lines.map columns = lines'.map columns ↔
      List.Forall₂ (fun line line' => line.code = line'.code ∧
        Text.padRight 20 line.name = Text.padRight 20 line'.name) lines lines' := by
  rw [← List.forall₂_eq_eq_eq, List.forall₂_map_left_iff, List.forall₂_map_right_iff]
  simp only [columns, nameWidth, Prod.mk.injEq, and_comm]

/-! ### Reading back -/

/-- The name and the code, from a line of text: the columns of the code are cut off, and then the
spaces at the end. -/
def readLine (s : Text) : Text × Nat := Prod.map (·.rdropWhile (· == ' ')) id (readColumns s)

/-- The names and the codes, from the bytes of a listing. -/
def readText (bytes : Bytes) : Option (List (Text × Nat)) :=
  (Utf8.decode bytes).map fun t => (Text.lines t).map readLine

theorem readLine_textLine {line : Line} (h : line.name.getLast? ≠ some ' ') :
    readLine (textLine line) = line.numbered := by
  rw [readLine, readColumns_textLine, Prod.map_apply, Text.rdropWhile_padRight,
    Text.rdropWhile_space_eq_self h]
  rfl

theorem readText_render {lines : List Line} (h : ∀ line ∈ lines, '\n' ∉ line.name)
    (hspace : ∀ line ∈ lines, line.name.getLast? ≠ some ' ') :
    readText (Utf8.encode (render .text lines)) = some (lines.map Line.numbered) := by
  rw [readText, Utf8.decode_encode, Option.map_some, lines_render_text h, List.map_map]
  exact congrArg some (List.map_congr_left fun line hline => readLine_textLine (hspace line hline))

/-- **A listing as text is read back from its bytes.**  There is one line of text for each line, with
its columns; two listings have the same bytes exactly if they agree in the columns; and the names
themselves are read back if none of them ends in a space. -/
theorem text_read_back {lines : List Line} (h : ∀ line ∈ lines, '\n' ∉ line.name) :
    (∃ texts : List Text,
      (write .unlimited .text lines).taken = Utf8.encode (texts.flatMap (· ++ ['\n'])) ∧
      (write .unlimited .text lines).failure = none ∧
      (∀ s ∈ texts, '\n' ∉ s) ∧ List.Forall₂ HasColumns lines texts) ∧
    (∀ lines', (∀ line ∈ lines', '\n' ∉ line.name) →
      ((write .unlimited .text lines).taken = (write .unlimited .text lines').taken ↔
        List.Forall₂ (fun line line' => line.code = line'.code ∧
          Text.padRight 20 line.name = Text.padRight 20 line'.name) lines lines')) ∧
    ((∀ line ∈ lines, line.name.getLast? ≠ some ' ') →
      readText (write .unlimited .text lines).taken = some (lines.map Line.numbered)) := by
  obtain ⟨htaken, hfailure⟩ := write_unlimited .text lines
  refine ⟨⟨lines.map textLine, ?_, hfailure, ?_, ?_⟩, ?_, ?_⟩
  · rw [htaken, render_text_eq_flatMap]
  · intro s hs
    obtain ⟨line, hline, rfl⟩ := List.mem_map.1 hs
    exact newline_not_mem_textLine (h line hline)
  · rw [List.forall₂_map_right_iff, List.forall₂_same]
    exact fun line _ => hasColumns_textLine line
  · intro lines' h'
    rw [htaken, (write_unlimited .text lines').1, ← map_columns_eq_iff, ← render_text_eq_iff h h']
    exact ⟨fun hbytes => Utf8.encode_injective hbytes, congrArg Utf8.encode⟩
  · intro hspace
    rw [htaken, readText_render h hspace]

/-- Names that look like the columns behind them, or are wider than their own. -/
theorem text_read_back_lookalikes :
    (∀ line ∈ [(⟨"X = 0x01 # 001".toList, 2⟩ : Line), ⟨"CALL_FUNCTION_VAR_KW_X".toList, 255⟩],
      '\n' ∉ line.name) ∧
    readText (write .unlimited .text
        [⟨"X = 0x01 # 001".toList, 2⟩, ⟨"CALL_FUNCTION_VAR_KW_X".toList, 255⟩]).taken =
      some [("X = 0x01 # 001".toList, 2), ("CALL_FUNCTION_VAR_KW_X".toList, 255)] := by
  have hnewline : ∀ line ∈
      [(⟨"X = 0x01 # 001".toList, 2⟩ : Line), ⟨"CALL_FUNCTION_VAR_KW_X".toList, 255⟩],
      '\n' ∉ line.name := by decide
  exact ⟨hnewline, (text_read_back hnewline).2.2 (by decide)⟩

end Listing

end OpcodeCatalog
