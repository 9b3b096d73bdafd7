import Mathlib.Algebra.Group.Nat.Defs
import OpcodeCatalog.Text.Utf8

/-!
# Texts from their bytes

The decoder accepts the bytes of a text and nothing else.  Behind the leading byte a character goes
on with six bits a byte, so what is pending holds the upper bits of its number, and the bytes to
come hold the others.  The narrow ranges behind some leading bytes are those of the numbers that
need this many bytes and are numbers of characters.

Main definitions:

* `Utf8.tail` — the bytes of a character behind the leading one;
* `Utf8.Leads` — the leading bytes, with what is pending behind them.

Main results:

* `Utf8.encode_injective` — **texts with the same bytes are equal**;
* `Utf8.decode_eq_some_iff` — **bytes are decoded exactly if they are those of a text**;
* `Utf8.decodeLossy_encode` — the bytes of a text need no replacement.
-/

set_option autoImplicit false

namespace OpcodeCatalog

namespace Utf8

/-- The bytes of a text are those that the core library has for it. -/
theorem toByteArray_encode (t : Text) : (encode t).toByteArray = (String.ofList t).toByteArray := by
  rw [String.toByteArray_ofList, List.utf8Encode, encode]

/-- Texts with the same bytes are equal. -/
theorem encode_injective {s t : Text} (h : encode s = encode t) : s = t := by
  have hbytes : (String.ofList s).toByteArray = (String.ofList t).toByteArray := by
    rw [← toByteArray_encode, ← toByteArray_encode, h]
  exact String.ofList_injective (String.toByteArray_inj.1 hbytes)

/-! ### The bytes behind a leading byte -/

/-- The last bytes of the character with the number `v`, six bits in each. -/
def tail (v : Nat) : Nat → Bytes
  | 0 => []
  | count + 1 => UInt8.ofNat (v / 64 ^ count % 64 + 0x80) :: tail v count

theorem toNat_ofNat_of_lt {n : Nat} (h : n < 256) : (UInt8.ofNat n).toNat = n := by
  rw [UInt8.toNat_ofNat', Nat.mod_eq_of_lt h]

/-- Six bits more. -/
theorem div_pow_succ (v count : Nat) : v / 64 ^ (count + 1) = v / 64 ^ count / 64 := by
  rw [Nat.pow_succ, Nat.div_div_eq_div_mul]

/-- What is pending is the beginning of the number `v`: it holds the upper bits, and the next byte is
in its range. -/
structure Pending.Begins (p : Pending) (v : Nat) : Prop where
  bits_eq : v / 64 ^ (p.more + 1) = p.bits
  low_le : p.low ≤ v / 64 ^ p.more % 64 + 0x80
  le_high : v / 64 ^ p.more % 64 + 0x80 ≤ p.high

/-- What is pending is finished by the last bytes of a number that it is the beginning of. -/
theorem decodeFrom_tail {v : Nat} {p : Pending} (h : p.Begins v) (done : Text) (rest : Bytes) :
    decodeFrom done (some p) (tail v (p.more + 1) ++ rest) =
      decodeFrom (Char.ofNat v :: done) none rest := by
  obtain ⟨bits, low, high, more⟩ := p
  obtain ⟨hbits, hlow, hhigh⟩ := h
  simp only at hbits hlow hhigh ⊢
  induction more generalizing bits low high with
  | zero =>
      simp only [Nat.zero_add, Nat.pow_one, Nat.pow_zero, Nat.div_one] at hbits hlow hhigh
      have hv : bits * 64 + (v % 64 + 0x80 - 0x80) = v := by omega
      simp only [tail, List.cons_append, List.nil_append, decodeFrom, step, Pending.next,
        Nat.pow_zero, Nat.div_one]
      rw [toNat_ofNat_of_lt (by omega), if_pos ⟨hlow, hhigh⟩, hv]
  | succ more ih =>
      rw [div_pow_succ] at hbits
      have hmore : bits * 64 + (v / 64 ^ (more + 1) % 64 + 0x80 - 0x80) = v / 64 ^ (more + 1) := by
        omega
      rw [tail, List.cons_append, decodeFrom, step, Pending.next, toNat_ofNat_of_lt (by omega),
        if_pos ⟨hlow, hhigh⟩]
      simp only [hmore]
      exact ih _ 0x80 0xBF rfl (by omega) (by omega)

/-- What is pending goes on with a byte in its range. -/
theorem exists_cons_of_decodeFrom {p : Pending} {done t : Text} {bytes : Bytes}
    (h : decodeFrom done (some p) bytes = some t) :
    ∃ b rest, bytes = b :: rest ∧ p.low ≤ b.toNat ∧ b.toNat ≤ p.high := by
  cases bytes with
  | nil => simp [decodeFrom] at h
  | cons b rest =>
      rw [decodeFrom, step, Pending.next] at h
      by_cases hrange : p.low ≤ b.toNat ∧ b.toNat ≤ p.high
      · exact ⟨b, rest, rfl, hrange⟩
      · simp [if_neg hrange] at h

/-- If what is pending is finished at all, then by the last bytes of such a number. -/
theorem exists_tail_of_decodeFrom {p : Pending} {done t : Text} {bytes : Bytes}
    (hlow : 0x80 ≤ p.low) (hhigh : p.high ≤ 0xBF) (h : decodeFrom done (some p) bytes = some t) :
    ∃ v rest, p.Begins v ∧ bytes = tail v (p.more + 1) ++ rest ∧
      decodeFrom (Char.ofNat v :: done) none rest = some t := by
  obtain ⟨bits, low, high, more⟩ := p
  simp only at hlow hhigh ⊢
  induction more generalizing bits low high bytes with
  | zero =>
      obtain ⟨b, rest, rfl, hle, hge⟩ := exists_cons_of_decodeFrom h
      rw [decodeFrom, step, Pending.next, if_pos ⟨hle, hge⟩] at h
      simp only at hle hge h
      obtain ⟨v, hv⟩ : ∃ v, v = bits * 64 + (b.toNat - 0x80) := ⟨_, rfl⟩
      have hb : v / 64 ^ 0 % 64 + 0x80 = b.toNat := by omega
      refine ⟨v, rest, ⟨?_, hb.symm ▸ hle, hb.symm ▸ hge⟩, ?_, hv ▸ h⟩
      · simp only
        omega
      · rw [tail, hb, UInt8.ofNat_toNat, tail, List.singleton_append]
  | succ more ih =>
      obtain ⟨b, rest, rfl, hle, hge⟩ := exists_cons_of_decodeFrom h
      rw [decodeFrom, step, Pending.next, if_pos ⟨hle, hge⟩] at h
      simp only at hle hge h
      obtain ⟨v, rest', ⟨hbits, -, -⟩, rfl, hrest⟩ :=
        ih _ 0x80 0xBF (Nat.le_refl _) (Nat.le_refl _) h
      simp only at hbits
      have hb : v / 64 ^ (more + 1) % 64 + 0x80 = b.toNat := by omega
      refine ⟨v, rest', ⟨?_, hb.symm ▸ hle, hb.symm ▸ hge⟩, ?_, hrest⟩
      · rw [div_pow_succ]
        simp only
        omega
      · rw [tail.eq_2 v (more + 1), hb, UInt8.ofNat_toNat, List.cons_append]

/-! ### Leading bytes -/

/-- The leading bytes of characters of two, three and four bytes, with what is pending behind
them. -/
inductive Leads : Nat → Pending → Prop
  | two {n : Nat} : 2 ≤ n → n < 32 → Leads (0xC0 + n) ⟨n, 0x80, 0xBF, 0⟩
  | three {n : Nat} : n < 16 →
      Leads (0xE0 + n) ⟨n, if n = 0 then 0xA0 else 0x80, if n = 13 then 0x9F else 0xBF, 1⟩
  | four {n : Nat} : n < 5 →
      Leads (0xF0 + n) ⟨n, if n = 0 then 0x90 else 0x80, if n = 4 then 0x8F else 0xBF, 2⟩

theorem Leads.lead_eq {b : Nat} {p : Pending} (h : Leads b p) : lead b = .unfinished p := by
  have htwo : ∀ n < 32, 2 ≤ n → lead (0xC0 + n) = .unfinished ⟨n, 0x80, 0xBF, 0⟩ := by decide
  have hthree : ∀ n < 16, lead (0xE0 + n) = .unfinished
      ⟨n, if n = 0 then 0xA0 else 0x80, if n = 13 then 0x9F else 0xBF, 1⟩ := by decide
  have hfour : ∀ n < 5, lead (0xF0 + n) = .unfinished
      ⟨n, if n = 0 then 0x90 else 0x80, if n = 4 then 0x8F else 0xBF, 2⟩ := by decide
  cases h with
  | two hle hlt => exact htwo _ hlt hle
  | three hlt => exact hthree _ hlt
  | four hlt => exact hfour _ hlt

/-- A byte between two characters is a character of its own, a leading byte, or refused. -/
theorem lead_cases (b : Nat) :
    (b < 0x80 ∧ lead b = .character (Char.ofNat b)) ∨ (∃ p, Leads b p) ∨ lead b = .refused := by
  by_cases hone : b < 0x80
  · exact Or.inl ⟨hone, if_pos (by omega)⟩
  right
  by_cases htwo : 0xC2 ≤ b ∧ b < 0xE0
  · obtain ⟨n, rfl⟩ := Nat.exists_eq_add_of_le (by omega : 0xC0 ≤ b)
    exact Or.inl ⟨_, .two (by omega) (by omega)⟩
  by_cases hthree : 0xE0 ≤ b ∧ b < 0xF0
  · obtain ⟨n, rfl⟩ := Nat.exists_eq_add_of_le hthree.1
    exact Or.inl ⟨_, .three (by omega)⟩
  by_cases hfour : 0xF0 ≤ b ∧ b < 0xF5
  · obtain ⟨n, rfl⟩ := Nat.exists_eq_add_of_le hfour.1
    exact Or.inl ⟨_, .four (by omega)⟩
  right
  unfold lead
  rw [if_neg (by omega), if_neg (by omega), if_neg (by omega), if_neg (by omega), if_neg (by omega),
    if_neg (by omega), if_neg (by omega), if_neg (by omega)]

/-! ### Characters -/

theorem Leads.range {b : Nat} {p : Pending} (h : Leads b p) :
    b < 256 ∧ 0x80 ≤ p.low ∧ p.high ≤ 0xBF := by
  cases h with
  | two hle hlt => exact ⟨by omega, Nat.le_refl _, Nat.le_refl _⟩
  | three hlt => refine ⟨by omega, ?_, ?_⟩ <;> simp only <;> split <;> omega
  | four hlt => refine ⟨by omega, ?_, ?_⟩ <;> simp only <;> split <;> omega

/-- The bytes of a character behind the ASCII range begin with a leading byte. -/
theorem exists_leads {c : Char} (h : 0x80 ≤ c.toNat) : ∃ b p, Leads b p ∧ p.Begins c.toNat := by
  have hvalid : c.toNat < 0xD800 ∨ 0xDFFF < c.toNat ∧ c.toNat < 0x110000 := c.valid
  generalize c.toNat = v at h hvalid
  rcases Nat.lt_or_ge v 0x800 with htwo | htwo
  · refine ⟨_, _, .two (n := v / 64) (by omega) (by omega), ⟨?_, ?_, ?_⟩⟩ <;>
      simp only [Nat.reduceAdd, Nat.reducePow] <;> omega
  rcases Nat.lt_or_ge v 0x10000 with hthree | hthree
  · refine ⟨_, _, .three (n := v / 4096) (by omega), ⟨?_, ?_, ?_⟩⟩ <;>
      simp only [Nat.reduceAdd, Nat.reducePow] <;> split <;> omega
  · refine ⟨_, _, .four (n := v / 262144) (by omega), ⟨?_, ?_, ?_⟩⟩ <;>
      simp only [Nat.reduceAdd, Nat.reducePow] <;> split <;> omega

/-- The numbers of characters. -/
theorem toNat_charOfNat {v : Nat} (h : v < 0xD800 ∨ 0xDFFF < v ∧ v < 0x110000) :
    (Char.ofNat v).toNat = v := by
  rw [Char.ofNat, dif_pos h]
  rfl

/-- A leading byte and the last bytes of a number that it begins are those of a character. -/
theorem utf8EncodeChar_of_leads {b v : Nat} {p : Pending} (hleads : Leads b p) (h : p.Begins v) :
    String.utf8EncodeChar (Char.ofNat v) = UInt8.ofNat b :: tail v (p.more + 1) := by
  -- the range of the next byte keeps out overlong forms, surrogates and numbers beyond `10FFFF`
  obtain ⟨hbits, hlow, hhigh⟩ := h
  rw [String.utf8EncodeChar]
  cases hleads with
  | @two n hle hlt =>
      simp only [Nat.reduceAdd, Nat.reducePow, Nat.div_one] at hbits hlow hhigh
      have hv : (Char.ofNat v).val.toNat = v := toNat_charOfNat (by omega)
      have hb : v / 64 % 0x20 + 0xC0 = 0xC0 + n := by omega
      simp only [hv, tail, Nat.reducePow, Nat.div_one]
      rw [if_neg (by omega), if_pos (by omega), hb]
  | @three n hlt =>
      simp only [Nat.reduceAdd, Nat.reducePow] at hbits hlow hhigh
      have hrange : 0x800 ≤ v ∧ v < 0x10000 ∧ (v < 0xD800 ∨ 0xDFFF < v) := by
        split at hlow <;> split at hhigh <;> omega
      have hv : (Char.ofNat v).val.toNat = v := toNat_charOfNat (by omega)
      have hb : v / 4096 % 0x10 + 0xE0 = 0xE0 + n := by omega
      simp only [hv, tail, Nat.reducePow, Nat.div_one]
      rw [if_neg (by omega), if_neg (by omega), if_pos (by omega), hb]
  | @four n hlt =>
      simp only [Nat.reduceAdd, Nat.reducePow] at hbits hlow hhigh
      have hrange : 0x10000 ≤ v ∧ v < 0x110000 := by
        split at hlow <;> split at hhigh <;> omega
      have hv : (Char.ofNat v).val.toNat = v := toNat_charOfNat (by omega)
      have hb : v / 262144 % 0x08 + 0xF0 = 0xF0 + n := by omega
      simp only [hv, tail, Nat.reducePow, Nat.div_one]
      rw [if_neg (by omega), if_neg (by omega), if_neg (by omega), hb]

theorem utf8EncodeChar_of_lt {v : Nat} (h : v < 0x80) :
    String.utf8EncodeChar (Char.ofNat v) = [UInt8.ofNat v] := by
  have hv : (Char.ofNat v).val.toNat = v := toNat_charOfNat (by omega)
  rw [String.utf8EncodeChar]
  simp only [hv]
  rw [if_pos (by omega)]

/-- The bytes of a character are decoded as that character. -/
theorem decodeFrom_utf8EncodeChar (done : Text) (c : Char) (rest : Bytes) :
    decodeFrom done none (String.utf8EncodeChar c ++ rest) = decodeFrom (c :: done) none rest := by
  rw [← Char.ofNat_toNat c]
  rcases Nat.lt_or_ge c.toNat 0x80 with hone | hmore
  · have hlead : lead c.toNat = .character (Char.ofNat c.toNat) := if_pos (by omega)
    rw [utf8EncodeChar_of_lt hone, List.singleton_append, decodeFrom, step,
      toNat_ofNat_of_lt (by omega), hlead]
  · obtain ⟨b, p, hleads, hbegins⟩ := exists_leads hmore
    rw [utf8EncodeChar_of_leads hleads hbegins, List.cons_append, decodeFrom, step,
      toNat_ofNat_of_lt hleads.range.1, hleads.lead_eq]
    exact decodeFrom_tail hbegins done rest

/-- What is decoded begins with the bytes of a character. -/
theorem exists_char_of_decodeFrom {b : UInt8} {bytes : Bytes} {done t : Text}
    (h : decodeFrom done none (b :: bytes) = some t) :
    ∃ c rest, b :: bytes = String.utf8EncodeChar c ++ rest ∧
      decodeFrom (c :: done) none rest = some t := by
  rw [decodeFrom, step] at h
  obtain ⟨hone, hlead⟩ | ⟨p, hleads⟩ | hrefused := lead_cases b.toNat
  · rw [hlead] at h
    refine ⟨_, bytes, ?_, h⟩
    rw [utf8EncodeChar_of_lt hone, UInt8.ofNat_toNat, List.singleton_append]
  · rw [hleads.lead_eq] at h
    obtain ⟨v, rest, hbegins, rfl, hrest⟩ :=
      exists_tail_of_decodeFrom hleads.range.2.1 hleads.range.2.2 h
    refine ⟨_, rest, ?_, hrest⟩
    rw [utf8EncodeChar_of_leads hleads hbegins, UInt8.ofNat_toNat, List.cons_append]
  · rw [hrefused] at h
    simp at h

/-! ### Texts -/

/-- The bytes of a text are decoded as that text, whatever comes before and behind them. -/
theorem decodeFrom_encode_append (done t : Text) (rest : Bytes) :
    decodeFrom done none (encode t ++ rest) = decodeFrom (t.reverse ++ done) none rest := by
  induction t generalizing done with
  | nil => rfl
  | cons c t ih =>
      rw [encode_cons, List.append_assoc, decodeFrom_utf8EncodeChar, ih]
      simp

/-- The bytes of a text are decoded as that text. -/
theorem decode_encode (t : Text) : decode (encode t) = some t := by
  have hfrom := decodeFrom_encode_append [] t []
  rw [List.append_nil, List.append_nil] at hfrom
  rw [decode, hfrom, decodeFrom, List.reverse_reverse]

/-- What is decoded behind some characters are the bytes of the characters to come. -/
theorem encode_append_of_decodeFrom {bytes : Bytes} {done t : Text}
    (h : decodeFrom done none bytes = some t) : encode done.reverse ++ bytes = encode t := by
  -- the induction is on the number of bytes because a character takes several of them
  induction hlength : bytes.length using Nat.strongRecOn generalizing bytes done with
  | ind n ih =>
      cases bytes with
      | nil =>
          rw [decodeFrom, Option.some.injEq] at h
          rw [h, List.append_nil]
      | cons b bytes =>
          obtain ⟨c, rest, hbytes, hrest⟩ := exists_char_of_decodeFrom h
          have hpos : 0 < (String.utf8EncodeChar c).length := by
            rw [String.length_utf8EncodeChar]
            exact c.utf8Size_pos
          have hshorter : rest.length < n := by
            rw [← hlength, hbytes, List.length_append]
            omega
          have hencode := ih rest.length hshorter hrest rfl
          rw [List.reverse_cons, encode_append, encode_cons, encode_nil] at hencode
          rw [hbytes, ← hencode]
          simp

/-- **Bytes are decoded exactly if they are those of a text**, and then as that text. -/
theorem decode_eq_some_iff {bytes : Bytes} {t : Text} :
    decode bytes = some t ↔ bytes = encode t := by
  constructor
  · intro h
    have hencode : encode (List.reverse []) ++ bytes = encode t := encode_append_of_decodeFrom h
    exact hencode
  · rintro rfl
    exact decode_encode t

/-! ### Replacements -/

/-- Nothing is replaced where decoding does not fail. -/
theorem decodeLossyFrom_of_decodeFrom {pending : Option Pending} {bytes : Bytes} {t : Text}
    (h : decodeFrom [] pending bytes = some t) : decodeLossyFrom pending bytes = t := by
  induction bytes generalizing pending t with
  | nil =>
      cases pending with
      | none => exact Option.some.inj h
      | some p => cases h
  | cons b rest ih =>
      have hcharacter : ∀ c, decodeFrom [c] none rest = some t →
          c :: decodeLossyFrom none rest = t := by
        intro c hc
        rw [decodeFrom_eq, Option.map_eq_some_iff] at hc
        obtain ⟨s, hs, rfl⟩ := hc
        rw [ih hs]
        rfl
      rw [decodeFrom] at h
      cases pending with
      | none =>
          rw [decodeLossyFrom]
          rw [step] at h
          cases hlead : lead b.toNat with
          | character c => exact hcharacter c (by simpa only [hlead] using h)
          | unfinished p => exact ih (by simpa only [hlead] using h)
          | refused => simp [hlead] at h
      | some p =>
          rw [decodeLossyFrom]
          rw [step] at h
          cases hnext : p.next b.toNat with
          | character c => exact hcharacter c (by simpa only [hnext] using h)
          | unfinished p' => exact ih (by simpa only [hnext] using h)
          | refused => simp [hnext] at h

/-- The bytes of a text need no replacement. -/
theorem decodeLossy_encode (t : Text) : decodeLossy (encode t) = t :=
  decodeLossyFrom_of_decodeFrom (decode_encode t)

end Utf8

end OpcodeCatalog
