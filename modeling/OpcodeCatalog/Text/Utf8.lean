import OpcodeCatalog.Text.Basic

/-!
# UTF-8

Texts as bytes and back.  The decoder is a machine that reads one byte at a time: between two
characters it looks at a leading byte, inside a character it knows what the next byte may be.  The
second byte has a narrower range after `E0`, `ED`, `F0` and `F4`, and that alone keeps out overlong
forms, surrogates and values above `10FFFF`.

Main definitions:

* `Utf8.encode` — the bytes of a text;
* `Utf8.decode` — the text that the bytes stand for, if they are well formed;
* `Utf8.decodeLossy` — a text for any bytes: every longest start of a character that does not go on
  as one, and every byte that starts none, gives one replacement character.
-/

set_option autoImplicit false

namespace OpcodeCatalog

namespace Utf8

/-- The bytes of a text. -/
def encode (t : Text) : Bytes := t.flatMap String.utf8EncodeChar

/-- The bytes of a fixed word. -/
def ofString (s : String) : Bytes := encode s.toList

/-- A character that has begun: its bits so far, the range of its next byte, and the number of
bytes after that one. -/
structure Pending where
  bits : Nat
  low : Nat
  high : Nat
  more : Nat
  deriving DecidableEq

/-- What a byte does: it ends a character, leaves one unfinished, or cannot stand here. -/
inductive Step where
  | character (c : Char)
  | unfinished (p : Pending)
  | refused
  deriving DecidableEq

/-- A byte between two characters. -/
def lead (b : Nat) : Step :=
  if b ≤ 0x7F then .character (Char.ofNat b)
  else if 0xC2 ≤ b ∧ b ≤ 0xDF then .unfinished ⟨b - 0xC0, 0x80, 0xBF, 0⟩
  else if b = 0xE0 then .unfinished ⟨0x0, 0xA0, 0xBF, 1⟩
  else if b = 0xED then .unfinished ⟨0xD, 0x80, 0x9F, 1⟩
  else if 0xE1 ≤ b ∧ b ≤ 0xEF then .unfinished ⟨b - 0xE0, 0x80, 0xBF, 1⟩
  else if b = 0xF0 then .unfinished ⟨0, 0x90, 0xBF, 2⟩
  else if 0xF1 ≤ b ∧ b ≤ 0xF3 then .unfinished ⟨b - 0xF0, 0x80, 0xBF, 2⟩
  else if b = 0xF4 then .unfinished ⟨4, 0x80, 0x8F, 2⟩
  else .refused

/-- A byte inside a character. -/
def Pending.next (p : Pending) (b : Nat) : Step :=
  if p.low ≤ b ∧ b ≤ p.high then
    match p.more with
    | 0 => .character (Char.ofNat (p.bits * 64 + (b - 0x80)))
    | more + 1 => .unfinished ⟨p.bits * 64 + (b - 0x80), 0x80, 0xBF, more⟩
  else .refused

/-- A byte after what is pending, or between two characters if nothing is. -/
def step : Option Pending → Nat → Step
  | none, b => lead b
  | some p, b => p.next b

/-- Decodes after `done`, which holds the characters so far with the last one first. -/
def decodeFrom (done : Text) : Option Pending → Bytes → Option Text
  | none, [] => some done.reverse
  | some _, [] => none
  | pending, b :: rest =>
    match step pending b.toNat with
    | .character c => decodeFrom (c :: done) none rest
    | .unfinished p => decodeFrom done (some p) rest
    | .refused => none

/-- The text whose bytes these are, if they are the bytes of a text. -/
def decode (bytes : Bytes) : Option Text := decodeFrom [] none bytes

/-- The character that stands for bytes that are none. -/
def replacement : Char := '\uFFFD'

/-- Decodes with replacements: a byte that cannot go on with what is pending is looked at once
more, as the first byte of the next character. -/
def decodeLossyFrom : Option Pending → Bytes → Text
  | none, [] => []
  | some _, [] => [replacement]
  | none, b :: rest =>
    match lead b.toNat with
    | .character c => c :: decodeLossyFrom none rest
    | .unfinished p => decodeLossyFrom (some p) rest
    | .refused => replacement :: decodeLossyFrom none rest
  | some pending, b :: rest =>
    match pending.next b.toNat with
    | .character c => c :: decodeLossyFrom none rest
    | .unfinished p => decodeLossyFrom (some p) rest
    | .refused =>
      replacement ::
        match lead b.toNat with
        | .character c => c :: decodeLossyFrom none rest
        | .unfinished p => decodeLossyFrom (some p) rest
        | .refused => replacement :: decodeLossyFrom none rest

/-- A text for any bytes, with replacements for what is not well formed. -/
def decodeLossy (bytes : Bytes) : Text := decodeLossyFrom none bytes

/-! ### Encoding part by part -/

@[simp] theorem encode_nil : encode [] = [] := rfl

theorem encode_cons (c : Char) (t : Text) : encode (c :: t) = String.utf8EncodeChar c ++ encode t :=
  rfl

theorem encode_append (s t : Text) : encode (s ++ t) = encode s ++ encode t := by
  simp [encode]

/-- The characters before a point of the decoding do not change what follows. -/
theorem decodeFrom_eq (done : Text) (pending : Option Pending) (bytes : Bytes) :
    decodeFrom done pending bytes = (decodeFrom [] pending bytes).map (done.reverse ++ ·) := by
  induction bytes generalizing done pending with
  | nil => cases pending <;> simp [decodeFrom]
  | cons b rest ih =>
      simp only [decodeFrom]
      cases step pending b.toNat with
      | character c =>
          simp only
          rw [ih (c :: done), ih [c]]
          simp [Option.map_map, Function.comp_def]
      | unfinished p => exact ih done (some p)
      | refused => rfl

end Utf8

end OpcodeCatalog
