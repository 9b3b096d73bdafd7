import OpcodeCatalog.Listing.Json

/-!
# Output formats

A listing is written as plain text, a line of text for each line of the listing, or as a JSON
document.  Both are made of pieces, and writing the listing is writing its pieces one after the
other.

Main definitions:

* `Format` — the two formats;
* `Format.ofWord` — the format that a word names;
* `Listing.textPieces` — a line of text: the name in a column, then the code in both bases;
* `Listing.pieces`, `Listing.render` — a whole listing, in pieces and as one text.
-/

set_option autoImplicit false

namespace OpcodeCatalog

/-- How a listing is written. -/
inductive Format where
  | text
  | json
  deriving DecidableEq

/-- A word that names no format. -/
structure UnknownFormat where
  word : Text
  deriving DecidableEq

/-- What the user reads. -/
def UnknownFormat.message (e : UnknownFormat) : Text := "invalid variant: ".toList ++ e.word

namespace Format

/-- The formats, in the order in which they are offered. -/
def all : List Format := [.text, .json]

/-- The name of the format. -/
def word : Format → Text
  | .text => "text".toList
  | .json => "json".toList

/-- The format that the word names.  If case is ignored, capital letters of the ASCII range count as
small ones. -/
def ofWord (ignoreCase : Bool) (word : Text) : Except UnknownFormat Format :=
  match all.find? fun f => f.word == if ignoreCase then word.map Char.toLower else word with
  | some f => .ok f
  | none => .error ⟨word⟩

theorem ofWord_word (ignoreCase : Bool) (f : Format) : ofWord ignoreCase f.word = .ok f := by
  cases ignoreCase <;> cases f <;> rfl

end Format

namespace Listing

/-- The width of the column of names. -/
def nameWidth : Nat := 20

/-- A line as text, piece by piece: the name in its column, the code in two hexadecimal and in
three decimal digits. -/
def textPieces (line : Line) : List Text :=
  [Text.padRight nameWidth line.name, " = 0x".toList, Text.fixedDigits 16 2 line.code.val,
   " # ".toList, Text.fixedDigits 10 3 line.code.val]

/-- A line as text. -/
def textLine (line : Line) : Text := (textPieces line).flatten

/-- The pieces of a listing. -/
def pieces : Format → List Line → List Text
  | .text, lines => lines.flatMap fun line => textPieces line ++ [['\n']]
  | .json, lines => Json.pretty lines ++ [['\n']]

/-- The whole text of a listing. -/
def render (format : Format) (lines : List Line) : Text := (pieces format lines).flatten

/-! ### Renderings of parts -/

theorem textLine_eq (line : Line) :
    textLine line = Text.padRight nameWidth line.name ++ " = 0x".toList ++
      Text.fixedDigits 16 2 line.code.val ++ " # ".toList ++
      Text.fixedDigits 10 3 line.code.val := by
  simp [textLine, textPieces]

@[simp] theorem render_text_nil : render .text [] = [] := rfl

theorem render_text_cons (line : Line) (rest : List Line) :
    render .text (line :: rest) = textLine line ++ '\n' :: render .text rest := by
  simp [render, pieces, textLine]

end Listing

end OpcodeCatalog
