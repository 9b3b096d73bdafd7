import OpcodeCatalog.Proofs.Text.Utf8

/-!
# Bytes that are no text

Behind a leading byte a character goes on with as many bytes as the leading byte announces.  Bytes
of this form have a number, and there are four ways in which they may still not be those of a
character: a shorter form has the same number, the number is one of a surrogate, it is above
`10FFFF`, or some of the bytes are missing.  Besides, a byte may stand where no character can begin
with it.  Nothing else keeps bytes from being a text, wherever it stands among them.

Main definitions:

* `Utf8.Announces` — the leading bytes of all forms, also of those that no character has;
* `Utf8.HasForm` — bytes of the form of a character, with their number;
* `Utf8.Malformed` — bytes with which no character begins.

Main results:

* `Utf8.hasForm_utf8EncodeChar`, `Utf8.HasForm.eq_utf8EncodeChar` — the characters are the shortest
  forms of their numbers;
* `Utf8.forall_ne_encode_iff` — **bytes are no text exactly if something malformed stands behind the
  bytes of some text**.
-/

set_option autoImplicit false

namespace OpcodeCatalog

namespace Utf8

/-! ### Forms -/

/-- A byte that goes on with a character. -/
def IsContinuation (b : UInt8) : Prop := 0x80 ≤ b.toNat ∧ b.toNat ≤ 0xBF

instance : DecidablePred IsContinuation := fun b =>
  inferInstanceAs (Decidable (0x80 ≤ b.toNat ∧ b.toNat ≤ 0xBF))

/-- The leading bytes, with the upper bits of the number and the number of the bytes to come. -/
inductive Announces : Nat → Nat → Nat → Prop
  | one {bits : Nat} : bits < 32 → Announces (0xC0 + bits) bits 1
  | two {bits : Nat} : bits < 16 → Announces (0xE0 + bits) bits 2
  | three {bits : Nat} : bits < 8 → Announces (0xF0 + bits) bits 3

/-- The number with these upper bits and the six lower bits of each of the bytes behind them. -/
def number (bits : Nat) (bytes : Bytes) : Nat :=
  bytes.foldl (fun v b => v * 64 + b.toNat % 64) bits

/-- Bytes of the form of a character with `count` bytes behind the leading one.  Their number is
`v`. -/
inductive HasForm : Nat → Nat → Bytes → Prop
  | intro {b : UInt8} {bits count : Nat} {tail : Bytes} : Announces b.toNat bits count →
      tail.length = count → (∀ c ∈ tail, IsContinuation c) →
        HasForm count (number bits tail) (b :: tail)

/-- The least number for which a form of this many bytes behind the leading one is the shortest. -/
def least : Nat → Nat
  | 1 => 0x80
  | 2 => 0x800
  | _ => 0x10000

/-- Bytes with which no character begins, in front of `rest`. -/
inductive Malformed : Bytes → Bytes → Prop
  /-- A shorter form has the same number. -/
  | overlong {count v : Nat} {bytes rest : Bytes} :
      HasForm count v bytes → v < least count → Malformed bytes rest
  /-- The number is one of a surrogate. -/
  | surrogate {count v : Nat} {bytes rest : Bytes} :
      HasForm count v bytes → 0xD800 ≤ v → v ≤ 0xDFFF → Malformed bytes rest
  /-- The number is above those of all characters. -/
  | tooLarge {count v : Nat} {bytes rest : Bytes} :
      HasForm count v bytes → 0x10FFFF < v → Malformed bytes rest
  /-- Fewer bytes follow than the leading one announces. -/
  | truncated {b : UInt8} {bits count : Nat} {tail rest : Bytes} : Announces b.toNat bits count →
      tail.length < count → (∀ c ∈ tail, IsContinuation c) →
        (∀ c ∈ rest.head?, ¬ IsContinuation c) → Malformed (b :: tail) rest
  /-- The byte neither stands alone nor leads. -/
  | stray {b : UInt8} {rest : Bytes} : IsContinuation b ∨ 0xF8 ≤ b.toNat → Malformed [b] rest

/-! ### Numbers of forms -/

theorem number_cons (bits : Nat) (b : UInt8) (bytes : Bytes) :
    number bits (b :: bytes) = number (bits * 64 + b.toNat % 64) bytes := rfl

/-- The upper bits of a number are those it began with. -/
theorem number_div (bits : Nat) (bytes : Bytes) :
    number bits bytes / 64 ^ bytes.length = bits := by
  induction bytes generalizing bits with
  | nil => exact Nat.div_one bits
  | cons b rest ih =>
      rw [number_cons, List.length_cons, div_pow_succ, ih]
      omega

/-- Continuation bytes are known from the number. -/
theorem tail_number {bytes : Bytes} (h : ∀ c ∈ bytes, IsContinuation c) (bits : Nat) :
    tail (number bits bytes) bytes.length = bytes := by
  induction bytes generalizing bits with
  | nil => rfl
  | cons b rest ih =>
      have hb : 0x80 ≤ b.toNat ∧ b.toNat ≤ 0xBF := h b (List.mem_cons_self ..)
      have hrest : ∀ c ∈ rest, IsContinuation c := fun c hc => h c (List.mem_cons_of_mem _ hc)
      have hbyte : (bits * 64 + b.toNat % 64) % 64 + 0x80 = b.toNat := by omega
      have htail := ih hrest (bits * 64 + b.toNat % 64)
      rw [number_cons, List.length_cons, tail, number_div, hbyte, UInt8.ofNat_toNat, htail]

theorem length_tail (v count : Nat) : (tail v count).length = count := by
  induction count with
  | zero => rfl
  | succ count ih => rw [tail, List.length_cons, ih]

theorem isContinuation_of_mem_tail {v count : Nat} {c : UInt8} (h : c ∈ tail v count) :
    IsContinuation c := by
  induction count with
  | zero => cases h
  | succ count ih =>
      rw [tail] at h
      rcases List.mem_cons.1 h with rfl | hrest
      · unfold IsContinuation
        rw [toNat_ofNat_of_lt (by omega)]
        omega
      · exact ih hrest

/-- The last bytes of a number, behind its upper bits, give the number. -/
theorem number_tail {v count bits : Nat} (h : v / 64 ^ count = bits) :
    number bits (tail v count) = v := by
  induction count generalizing bits with
  | zero =>
      rw [Nat.pow_zero, Nat.div_one] at h
      exact h.symm
  | succ count ih =>
      rw [div_pow_succ] at h
      rw [tail, number_cons, toNat_ofNat_of_lt (by omega)]
      exact ih (by omega)

/-! ### Characters and their forms -/

theorem Announces.lt {b bits count : Nat} (h : Announces b bits count) : 0xC0 ≤ b ∧ b < 0xF8 := by
  cases h <;> omega

/-- A leading byte tells the upper bits and the number of bytes to come. -/
theorem Announces.unique {b bits bits' count count' : Nat} (h : Announces b bits count)
    (h' : Announces b bits' count') : bits = bits' ∧ count = count' := by
  generalize hb : b = b' at h'
  cases h <;> cases h' <;> omega

theorem exists_announces {b : Nat} (hle : 0xC0 ≤ b) (hlt : b < 0xF8) :
    ∃ bits count, Announces b bits count := by
  rcases Nat.lt_or_ge b 0xE0 with hone | hmore
  · obtain ⟨bits, rfl⟩ := Nat.exists_eq_add_of_le hle
    exact ⟨bits, 1, .one (by omega)⟩
  rcases Nat.lt_or_ge b 0xF0 with htwo | hthree
  · obtain ⟨bits, rfl⟩ := Nat.exists_eq_add_of_le hmore
    exact ⟨bits, 2, .two (by omega)⟩
  · obtain ⟨bits, rfl⟩ := Nat.exists_eq_add_of_le hthree
    exact ⟨bits, 3, .three (by omega)⟩

/-- What leads a character announces its bytes. -/
theorem Leads.announces {b : Nat} {p : Pending} (h : Leads b p) :
    Announces b p.bits (p.more + 1) := by
  cases h with
  | two hle hlt => exact .one hlt
  | three hlt => exact .two hlt
  | four hlt => exact .three (by omega)

/-- What is behind the leading byte of a character makes its form the shortest one. -/
theorem Leads.least_le {b v : Nat} {p : Pending} (hleads : Leads b p) (h : p.Begins v) :
    least (p.more + 1) ≤ v := by
  obtain ⟨hbits, hlow, -⟩ := h
  cases hleads with
  | two hle hlt =>
      simp only [Nat.reduceAdd, Nat.reducePow, least] at hbits ⊢
      omega
  | three hlt =>
      simp only [Nat.reduceAdd, Nat.reducePow, least] at hbits hlow ⊢
      split at hlow <;> omega
  | four hlt =>
      simp only [Nat.reduceAdd, Nat.reducePow, least] at hbits hlow ⊢
      split at hlow <;> omega

/-- A character behind the ASCII range has the shortest form of its number. -/
theorem hasForm_utf8EncodeChar {c : Char} (h : 0x80 ≤ c.toNat) :
    ∃ count, HasForm count c.toNat (String.utf8EncodeChar c) ∧ least count ≤ c.toNat := by
  obtain ⟨b, p, hleads, hbegins⟩ := exists_leads h
  refine ⟨p.more + 1, ?_, hleads.least_le hbegins⟩
  have hencode := utf8EncodeChar_of_leads hleads hbegins
  rw [Char.ofNat_toNat] at hencode
  have hannounces := hleads.announces
  rw [← toNat_ofNat_of_lt hleads.range.1] at hannounces
  have hform := HasForm.intro hannounces (length_tail c.toNat _) fun _ => isContinuation_of_mem_tail
  rw [number_tail hbegins.bits_eq] at hform
  rw [hencode]
  exact hform

/-- A leading byte whose number is that of a character, in its shortest form, leads a character. -/
theorem Announces.exists_leads {b bits count v : Nat} (h : Announces b bits count)
    (hbits : v / 64 ^ count = bits) (hleast : least count ≤ v)
    (hvalid : v < 0xD800 ∨ 0xDFFF < v ∧ v < 0x110000) :
    ∃ p, Leads b p ∧ p.Begins v ∧ p.more + 1 = count := by
  cases h with
  | one hlt =>
      simp only [Nat.reducePow, least] at hbits hleast
      refine ⟨_, .two (by omega) hlt, ⟨?_, ?_, ?_⟩, rfl⟩ <;>
        simp only [Nat.reduceAdd, Nat.reducePow] <;> omega
  | two hlt =>
      simp only [Nat.reducePow, least] at hbits hleast
      refine ⟨_, .three hlt, ⟨hbits, ?_, ?_⟩, rfl⟩ <;>
        simp only [Nat.reducePow] <;> split <;> omega
  | three hlt =>
      simp only [Nat.reducePow, least] at hbits hleast
      refine ⟨_, .four (by omega), ⟨hbits, ?_, ?_⟩, rfl⟩ <;>
        simp only [Nat.reducePow] <;> split <;> omega

/-- The shortest form of the number of a character are the bytes of that character. -/
theorem HasForm.eq_utf8EncodeChar {count v : Nat} {bytes : Bytes} (h : HasForm count v bytes)
    (hleast : least count ≤ v) (hvalid : v < 0xD800 ∨ 0xDFFF < v ∧ v < 0x110000) :
    bytes = String.utf8EncodeChar (Char.ofNat v) := by
  cases h with
  | @intro b bits _ rest hannounces hlength hrest =>
      subst hlength
      obtain ⟨p, hleads, hbegins, hmore⟩ :=
        hannounces.exists_leads (number_div bits rest) hleast hvalid
      rw [utf8EncodeChar_of_leads hleads hbegins, hmore, tail_number hrest, UInt8.ofNat_toNat]

/-! ### What is malformed begins no character -/

/-- Bytes begin with one form only. -/
theorem HasForm.unique {count count' v v' : Nat} {bytes bytes' rest rest' : Bytes}
    (h : HasForm count v bytes) (h' : HasForm count' v' bytes')
    (heq : bytes ++ rest = bytes' ++ rest') : count = count' ∧ v = v' := by
  cases h with
  | @intro b bits _ tail hannounces hlength htail =>
      cases h' with
      | @intro b' bits' _ tail' hannounces' hlength' htail' =>
          simp only [List.cons_append, List.cons.injEq] at heq
          obtain ⟨rfl, heq⟩ := heq
          obtain ⟨rfl, rfl⟩ := hannounces.unique hannounces'
          obtain ⟨rfl, -⟩ := List.append_inj heq (hlength.trans hlength'.symm)
          exact ⟨rfl, rfl⟩

/-- A form is longer than what is cut off in front of a byte that does not go on with it. -/
theorem HasForm.not_truncated {count count' v bits : Nat} {b : UInt8}
    {bytes tail rest rest' : Bytes} (h : HasForm count v bytes)
    (hannounces' : Announces b.toNat bits count') (hshort : tail.length < count')
    (hend : ∀ c ∈ rest.head?, ¬ IsContinuation c) :
    b :: tail ++ rest ≠ bytes ++ rest' := by
  intro heq
  cases h with
  | @intro b' bits' _ tail' hannounces hlength htail' =>
      simp only [List.cons_append, List.cons.injEq] at heq
      obtain ⟨rfl, heq⟩ := heq
      obtain ⟨-, rfl⟩ := hannounces.unique hannounces'
      -- either the form goes on where the bytes were cut off, or it is too short for its own count
      rcases List.append_eq_append_iff.1 heq with ⟨missing, rfl, rfl⟩ | ⟨more, rfl, -⟩
      · cases missing with
        | nil => simp [← hlength] at hshort
        | cons c missing => exact hend c rfl (htail' c (by simp))
      · simp only [List.length_append] at hshort
        omega

theorem HasForm.exists_cons {count v : Nat} {bytes : Bytes} (h : HasForm count v bytes) :
    ∃ b tail, bytes = b :: tail ∧ 0xC0 ≤ b.toNat ∧ b.toNat < 0xF8 := by
  cases h with
  | intro hannounces => exact ⟨_, _, rfl, hannounces.lt⟩

theorem Malformed.exists_cons {bad rest : Bytes} (h : Malformed bad rest) :
    ∃ b tail, bad = b :: tail ∧ 0x80 ≤ b.toNat := by
  have hform : ∀ {count v : Nat}, HasForm count v bad →
      ∃ b tail, bad = b :: tail ∧ 0x80 ≤ b.toNat := by
    intro count v hform
    obtain ⟨b, tail, hbytes, hlow, -⟩ := hform.exists_cons
    exact ⟨b, tail, hbytes, Nat.le_trans (by decide) hlow⟩
  cases h with
  | overlong hbad _ => exact hform hbad
  | surrogate hbad _ _ => exact hform hbad
  | tooLarge hbad _ => exact hform hbad
  | truncated hannounces =>
      have hlow := hannounces.lt.1
      exact ⟨_, _, rfl, by omega⟩
  | stray hstray =>
      refine ⟨_, _, rfl, ?_⟩
      rcases hstray with hcontinues | hlarge
      · exact hcontinues.1
      · omega

/-- No character begins with what is malformed. -/
theorem Malformed.ne_utf8EncodeChar {bad rest : Bytes} (h : Malformed bad rest) (c : Char)
    (rest' : Bytes) : bad ++ rest ≠ String.utf8EncodeChar c ++ rest' := by
  intro heq
  rcases Nat.lt_or_ge c.toNat 0x80 with hascii | hmore
  · have hencode := utf8EncodeChar_of_lt hascii
    rw [Char.ofNat_toNat] at hencode
    obtain ⟨b, bytes, rfl, hb⟩ := h.exists_cons
    rw [hencode, List.cons_append, List.singleton_append, List.cons.injEq] at heq
    rw [heq.1, toNat_ofNat_of_lt (by omega)] at hb
    omega
  · obtain ⟨count, hform, hleast⟩ := hasForm_utf8EncodeChar hmore
    have hvalid : c.toNat < 0xD800 ∨ 0xDFFF < c.toNat ∧ c.toNat < 0x110000 := c.valid
    cases h with
    | overlong hbad hless =>
        obtain ⟨rfl, rfl⟩ := hbad.unique hform heq
        omega
    | surrogate hbad hlow hhigh =>
        obtain ⟨-, rfl⟩ := hbad.unique hform heq
        omega
    | tooLarge hbad hlarge =>
        obtain ⟨-, rfl⟩ := hbad.unique hform heq
        omega
    | truncated hannounces hshort _ hend => exact hform.not_truncated hannounces hshort hend heq
    | stray hstray =>
        obtain ⟨b, tail, hencode, hlow, hhigh⟩ := hform.exists_cons
        rw [hencode, List.cons_append, List.cons_append, List.cons.injEq] at heq
        rw [← heq.1] at hlow hhigh
        rcases hstray with hcontinues | hlarge
        · have hend := hcontinues.2
          omega
        · omega

/-! ### What begins no character is malformed -/

/-- The bytes that go on with a character, up to as many as are asked for. -/
theorem exists_continuation_append (count : Nat) (bytes : Bytes) :
    ∃ tail rest, bytes = tail ++ rest ∧ (∀ c ∈ tail, IsContinuation c) ∧
      (tail.length = count ∨
        tail.length < count ∧ ∀ c ∈ rest.head?, ¬ IsContinuation c) := by
  induction count generalizing bytes with
  | zero => exact ⟨[], bytes, rfl, List.forall_mem_nil _, Or.inl rfl⟩
  | succ count ih =>
      by_cases hend : ∀ c ∈ bytes.head?, ¬ IsContinuation c
      · exact ⟨[], bytes, rfl, List.forall_mem_nil _, Or.inr ⟨Nat.succ_pos count, hend⟩⟩
      · cases bytes with
        | nil => exact absurd (fun c hc => by cases hc) hend
        | cons b bytes =>
            have hb : IsContinuation b := Decidable.byContradiction fun hb =>
              hend fun c hc => Option.some.inj hc ▸ hb
            obtain ⟨tail, rest, rfl, htail, hlength⟩ := ih bytes
            refine ⟨b :: tail, rest, rfl, List.forall_mem_cons.2 ⟨hb, htail⟩, ?_⟩
            simp only [List.length_cons, Nat.add_right_cancel_iff, Nat.add_lt_add_iff_right]
            exact hlength

/-- Bytes begin with a character or with something malformed. -/
theorem exists_char_or_malformed (b : UInt8) (bytes : Bytes) :
    (∃ c rest, b :: bytes = String.utf8EncodeChar c ++ rest) ∨
      ∃ bad rest, b :: bytes = bad ++ rest ∧ Malformed bad rest := by
  rcases Nat.lt_or_ge b.toNat 0x80 with hascii | hmore
  · refine Or.inl ⟨Char.ofNat b.toNat, bytes, ?_⟩
    rw [utf8EncodeChar_of_lt hascii, UInt8.ofNat_toNat, List.singleton_append]
  by_cases hstray : IsContinuation b ∨ 0xF8 ≤ b.toNat
  · exact Or.inr ⟨[b], bytes, rfl, .stray hstray⟩
  have hlead : 0xC0 ≤ b.toNat ∧ b.toNat < 0xF8 := by
    unfold IsContinuation at hstray
    omega
  obtain ⟨bits, count, hannounces⟩ := exists_announces hlead.1 hlead.2
  obtain ⟨tail, rest, rfl, htail, hlength | ⟨hshort, hend⟩⟩ :=
    exists_continuation_append count bytes
  · have hform : HasForm count (number bits tail) (b :: tail) := .intro hannounces hlength htail
    by_cases hleast : number bits tail < least count
    · exact Or.inr ⟨b :: tail, rest, rfl, .overlong hform hleast⟩
    by_cases hsurrogate : 0xD800 ≤ number bits tail ∧ number bits tail ≤ 0xDFFF
    · exact Or.inr ⟨b :: tail, rest, rfl, .surrogate hform hsurrogate.1 hsurrogate.2⟩
    by_cases hlarge : 0x10FFFF < number bits tail
    · exact Or.inr ⟨b :: tail, rest, rfl, .tooLarge hform hlarge⟩
    · refine Or.inl ⟨Char.ofNat (number bits tail), rest, ?_⟩
      rw [← hform.eq_utf8EncodeChar (Nat.not_lt.1 hleast) (by omega), List.cons_append]
  · exact Or.inr ⟨b :: tail, rest, rfl, .truncated hannounces hshort htail hend⟩

/-! ### Texts and what follows them -/

/-- Bytes are those of a text, or those of a text with something malformed behind them. -/
theorem exists_encode_or_malformed (bytes : Bytes) :
    ∃ t, bytes = encode t ∨ ∃ bad rest, bytes = encode t ++ (bad ++ rest) ∧ Malformed bad rest := by
  -- the induction is on the number of bytes because a character takes several of them
  induction hlength : bytes.length using Nat.strongRecOn generalizing bytes with
  | ind n ih =>
      cases bytes with
      | nil => exact ⟨[], Or.inl rfl⟩
      | cons b bytes =>
          rcases exists_char_or_malformed b bytes with ⟨c, rest, hbytes⟩ | hbad
          · have hpos : 0 < (String.utf8EncodeChar c).length := by
              rw [String.length_utf8EncodeChar]
              exact c.utf8Size_pos
            have hshorter : rest.length < n := by
              rw [← hlength, hbytes, List.length_append]
              omega
            obtain ⟨t, ht⟩ := ih rest.length hshorter rest rfl
            refine ⟨c :: t, ?_⟩
            rw [hbytes, encode_cons]
            rcases ht with rfl | ⟨bad, rest', rfl, hbad⟩
            · exact Or.inl rfl
            · exact Or.inr ⟨bad, rest', (List.append_assoc ..).symm, hbad⟩
          · exact ⟨[], Or.inr hbad⟩

/-- What follows the bytes of a text in those of another one are the bytes of a text. -/
theorem exists_encode_of_append {s t : Text} {bytes : Bytes} (h : encode s ++ bytes = encode t) :
    ∃ t', bytes = encode t' := by
  have hdecode : decode (encode s ++ bytes) = some t := decode_eq_some_iff.2 h
  rw [decode, decodeFrom_encode_append, decodeFrom_eq, Option.map_eq_some_iff] at hdecode
  obtain ⟨t', ht', -⟩ := hdecode
  exact ⟨t', decode_eq_some_iff.1 ht'⟩

/-- A text with something malformed behind it is the beginning of no text. -/
theorem Malformed.ne_encode {bad rest : Bytes} (h : Malformed bad rest) (s t : Text) :
    encode s ++ (bad ++ rest) ≠ encode t := by
  intro heq
  obtain ⟨t', ht'⟩ := exists_encode_of_append heq
  cases t' with
  | nil =>
      obtain ⟨b, bytes, rfl, -⟩ := h.exists_cons
      cases ht'
  | cons c t' => exact h.ne_utf8EncodeChar c (encode t') ht'

/-- **Bytes are no text exactly if something malformed stands behind the bytes of some text.** -/
theorem forall_ne_encode_iff {bytes : Bytes} :
    (∀ t, bytes ≠ encode t) ↔
      ∃ t bad rest, bytes = encode t ++ (bad ++ rest) ∧ Malformed bad rest := by
  constructor
  · intro hnot
    obtain ⟨t, htext | ⟨bad, rest, hbytes, hbad⟩⟩ := exists_encode_or_malformed bytes
    · exact absurd htext (hnot t)
    · exact ⟨t, bad, rest, hbytes, hbad⟩
  · rintro ⟨s, bad, rest, rfl, hbad⟩ t
    exact hbad.ne_encode s t

end Utf8

end OpcodeCatalog
