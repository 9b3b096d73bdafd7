import OpcodeCatalog.Text.UpperCase.Table

/-!
# Upper case

The full upper-case mapping of Unicode, the same in every locale.  A character may become several:
the sharp s becomes two letters S, a ligature the letters it joins.  A character without an
upper-case form stays itself.

Main definitions:

* `UpperCase.ofChar` — the upper-case form of a character;
* `Text.upper` — a text with every character replaced by its upper-case form.
-/

set_option autoImplicit false

namespace OpcodeCatalog

namespace UpperCase

/-- Whether the span has an image for the scalar value `n`. -/
def Span.covers (s : Span) (n : Nat) : Bool :=
  s.first ≤ n && n ≤ s.last && (n - s.first) % s.stride == 0

/-- The image of a scalar value that the span covers. -/
def Span.map (s : Span) (n : Nat) : Nat := s.image + (n - s.first)

/-- The upper-case form of a character: its expansion if it has one, else its image in the span
that covers it, else the character itself. -/
def ofChar (c : Char) : Text :=
  match expansions.lookup c.toNat with
  | some form => form.map Char.ofNat
  | none =>
    match spans.find? (fun s => s.covers c.toNat) with
    | some s => [Char.ofNat (s.map c.toNat)]
    | none => [c]

end UpperCase

/-- The text in upper case. -/
def Text.upper (t : Text) : Text := t.flatMap UpperCase.ofChar

/-! ### Upper case of parts -/

@[simp] theorem Text.upper_nil : Text.upper [] = [] := rfl

theorem Text.upper_append (s t : Text) : Text.upper (s ++ t) = Text.upper s ++ Text.upper t := by
  simp [Text.upper]

end OpcodeCatalog
