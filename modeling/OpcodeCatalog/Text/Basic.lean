/-!
# Text and bytes

A text is a list of Unicode scalar values, and what a file, a pipe or an argument of a command
line holds is a list of bytes.  Both are plain lists, so every operation of the library is a
function by recursion on them.

Main definitions:

* `Text`, `Bytes` — the two kinds of sequence;
* `Text.decimal` — a natural number as it is written without padding;
* `Text.fixedDigits` — a number in a field of fixed width;
* `Text.padRight` — a text in a column, padded and never cut;
* `Text.stripSuffix?` — a text without a given ending.
-/

set_option autoImplicit false

namespace OpcodeCatalog

/-- A sequence of Unicode scalar values. -/
abbrev Text := List Char

/-- A sequence of bytes, such as the content of a file or a path of the file system. -/
abbrev Bytes := List UInt8

namespace Text

/-- The decimal numeral of `n`, without leading zeros. -/
def decimal (n : Nat) : Text := Nat.toDigits 10 n

/-- The last `width` digits of `n` in the given base, in lower case, with zeros in front. -/
def fixedDigits (base : Nat) : Nat → Nat → Text
  | 0, _ => []
  | width + 1, n => fixedDigits base width (n / base) ++ [Nat.digitChar (n % base)]

/-- Spaces on the right up to `width` scalar values.  A longer text stays as it is. -/
def padRight (width : Nat) (t : Text) : Text :=
  t ++ List.replicate (width - t.length) ' '

/-- The text before `ending`, if `t` ends with it. -/
def stripSuffix? (ending t : Text) : Option Text :=
  if t.drop (t.length - ending.length) = ending then some (t.take (t.length - ending.length))
  else none

/-! ### Numerals -/

/-- A numeral begins with a digit. -/
theorem decimal_eq_cons (n : Nat) : ∃ c s, decimal n = c :: s ∧ c.isDigit = true := by
  obtain ⟨c, s, hs⟩ := List.exists_cons_of_ne_nil (Nat.toDigits_ne_nil (n := n) (b := 10))
  exact ⟨c, s, hs, Nat.isDigit_of_mem_toDigits (by decide) (by decide) (hs ▸ List.mem_cons_self ..)⟩

/-- Different numbers have different numerals. -/
theorem decimal_injective {m n : Nat} (h : decimal m = decimal n) : m = n := by
  unfold decimal at h
  rw [← Nat.ofDigitChars_ten_toDigits (n := m), ← Nat.ofDigitChars_ten_toDigits (n := n), h]

/-! ### Widths and endings -/

@[simp] theorem length_fixedDigits (base width n : Nat) :
    (fixedDigits base width n).length = width := by
  induction width generalizing n with
  | zero => rfl
  | succ width ih => simp [fixedDigits, ih]

theorem stripSuffix?_eq_some_iff {ending t stem : Text} :
    stripSuffix? ending t = some stem ↔ t = stem ++ ending := by
  unfold stripSuffix?
  constructor
  · intro h
    split at h
    · rename_i hd
      rw [← Option.some.inj h]
      conv => lhs; rw [← List.take_append_drop (t.length - ending.length) t, hd]
    · simp at h
  · rintro rfl
    simp

end Text

end OpcodeCatalog
