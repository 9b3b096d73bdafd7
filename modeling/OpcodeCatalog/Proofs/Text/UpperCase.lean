import Mathlib.Data.List.DropRight
import OpcodeCatalog.Text.Blank
import OpcodeCatalog.Text.UpperCase

/-!
# Blanks and upper case

Upper-casing neither makes blanks nor removes any: no character but the blank itself has a blank in
its upper-case form, and no form is empty.  So a text that has no blank at an end has none there in
upper case, and a text in upper case has no line feed that the text did not have.

Nor is there more to do after the first time: the forms are made of characters that are their own
forms, because no scalar value to which the tables lead is one from which they lead anywhere.

Main definitions:

* `UpperCase.mapped`, `UpperCase.images` — the scalar values on either side of the tables.

Main results:

* `UpperCase.eq_of_mem_ofChar` — **a blank in an upper-case form is the character itself**;
* `UpperCase.ofChar_of_mem_ofChar` — **the characters of an upper-case form are their own forms**;
* `Text.mem_of_mem_upper` — the blanks of a text in upper case are blanks of the text;
* `Text.isBlank_head?_trim`, `Text.isBlank_head?_upper`, `Text.isBlank_getLast?_trim`,
  `Text.isBlank_getLast?_upper` — a trimmed text has no blank at either end, and in upper case
  neither;
* `Text.trim_eq_self`, `Text.upper_upper` — trimming and upper-casing leave such texts alone.
-/

set_option autoImplicit false

namespace OpcodeCatalog

namespace UpperCase

open Text (isBlank)

/-! ### The tables -/

theorem isBlank_image : ∀ s ∈ spans, ∀ d < s.last - s.first + 1,
    isBlank (Char.ofNat (s.image + d)) = false := by decide +kernel

theorem isBlank_expansion : ∀ entry ∈ expansions, entry.2 ≠ [] ∧
    ∀ n ∈ entry.2, isBlank (Char.ofNat n) = false := by decide +kernel

theorem mem_expansions_of_lookup {n : Nat} {form : List Nat}
    (h : expansions.lookup n = some form) : (n, form) ∈ expansions := by
  obtain ⟨before, after, hsplit, -⟩ := List.lookup_eq_some_iff.1 h
  rw [hsplit]
  simp

theorem isBlank_map_of_covers {s : Span} {n : Nat} (hs : s ∈ spans) (h : s.covers n = true) :
    isBlank (Char.ofNat (s.map n)) = false := by
  simp only [Span.covers, Bool.and_eq_true, decide_eq_true_eq] at h
  exact isBlank_image s hs (n - s.first) (by omega)

/-! ### The forms of characters -/

/-- A blank in an upper-case form is the character itself. -/
theorem eq_of_mem_ofChar {c c' : Char} (h : c' ∈ ofChar c) (hblank : isBlank c' = true) :
    c' = c := by
  unfold ofChar at h
  split at h
  · rename_i form hform
    obtain ⟨n, hn, rfl⟩ := List.mem_map.1 h
    rw [(isBlank_expansion _ (mem_expansions_of_lookup hform)).2 n hn] at hblank
    exact absurd hblank (by decide)
  · split at h
    · rename_i s hs
      have hcovers := List.find?_some hs
      rw [List.mem_singleton.1 h, isBlank_map_of_covers (List.mem_of_find?_eq_some hs) hcovers]
        at hblank
      exact absurd hblank (by decide)
    · exact List.mem_singleton.1 h

theorem ofChar_ne_nil (c : Char) : ofChar c ≠ [] := by
  unfold ofChar
  split
  · rename_i form hform
    simpa using (isBlank_expansion _ (mem_expansions_of_lookup hform)).1
  · split <;> simp

/-! ### Forms of forms -/

/-- The distances from the first scalar value of a span to those that it covers. -/
def Span.offsets (s : Span) : List Nat :=
  (List.range ((s.last - s.first) / s.stride + 1)).map (s.stride * ·)

/-- The scalar values that the tables map. -/
def mapped : List Nat :=
  (spans.flatMap fun s => s.offsets.map (s.first + ·)) ++ expansions.map Prod.fst

/-- The scalar values to which they map. -/
def images : List Nat :=
  (spans.flatMap fun s => s.offsets.map (s.image + ·)) ++ expansions.flatMap Prod.snd

/-- A set of numbers as one number, with a bit for each member: so two sets are compared at once and
not member by member. -/
def bits (ns : List Nat) : Nat := ns.foldr (fun n set => 1 <<< n ||| set) 0

theorem testBit_bits {ns : List Nat} {n : Nat} : (bits ns).testBit n = true ↔ n ∈ ns := by
  induction ns with
  | nil => simp [bits]
  | cons m ns ih =>
      have hcons : bits (m :: ns) = 1 <<< m ||| bits ns := rfl
      rw [hcons, Nat.testBit_or, Nat.one_shiftLeft, Nat.testBit_two_pow, Bool.or_eq_true, ih,
        List.mem_cons, decide_eq_true_eq, eq_comm]

theorem bits_mapped_and_bits_images : bits mapped &&& bits images = 0 := by decide +kernel

theorem toNat_ofNat_images : ∀ n ∈ images, (Char.ofNat n).toNat = n := by decide +kernel

/-- The tables do not lead from one of their scalar values to another. -/
theorem not_mem_mapped_of_mem_images {n : Nat} (h : n ∈ images) : n ∉ mapped := by
  intro hmapped
  have hbit : (bits mapped &&& bits images).testBit n = true := by
    rw [Nat.testBit_and, testBit_bits.2 h, testBit_bits.2 hmapped, Bool.and_self]
  rw [bits_mapped_and_bits_images, Nat.zero_testBit] at hbit
  exact absurd hbit (by decide)

/-- A covered scalar value lies at one of the distances of the span. -/
theorem mem_offsets_of_covers {s : Span} {n : Nat} (h : s.covers n = true) :
    s.first ≤ n ∧ n - s.first ∈ s.offsets := by
  simp only [Span.covers, Bool.and_eq_true, decide_eq_true_eq, beq_iff_eq] at h
  obtain ⟨⟨hfirst, hlast⟩, hstride⟩ := h
  refine ⟨hfirst, List.mem_map.2 ⟨(n - s.first) / s.stride, ?_, ?_⟩⟩
  · have hdiv := Nat.div_le_div_right (c := s.stride) (Nat.sub_le_sub_right hlast s.first)
    rw [List.mem_range]
    omega
  · exact Nat.mul_div_cancel' (Nat.dvd_of_mod_eq_zero hstride)

theorem mem_mapped_of_covers {s : Span} (hs : s ∈ spans) {n : Nat} (h : s.covers n = true) :
    n ∈ mapped := by
  obtain ⟨hfirst, hoffset⟩ := mem_offsets_of_covers h
  refine List.mem_append_left _ (List.mem_flatMap.2 ⟨s, hs, List.mem_map.2 ⟨_, hoffset, ?_⟩⟩)
  exact Nat.add_sub_of_le hfirst

theorem map_mem_images_of_covers {s : Span} (hs : s ∈ spans) {n : Nat} (h : s.covers n = true) :
    s.map n ∈ images :=
  List.mem_append_left _ (List.mem_flatMap.2
    ⟨s, hs, List.mem_map_of_mem (mem_offsets_of_covers h).2⟩)

/-- A character that is not mapped is its own upper-case form. -/
theorem ofChar_of_not_mem_mapped {c : Char} (h : c.toNat ∉ mapped) : ofChar c = [c] := by
  have hlookup : expansions.lookup c.toNat = none := by
    refine List.lookup_eq_none_iff.2 fun entry hentry => bne_iff_ne.2 fun hc => h ?_
    rw [hc]
    exact List.mem_append_right _ (List.mem_map_of_mem hentry)
  have hfind : spans.find? (fun s => s.covers c.toNat) = none :=
    List.find?_eq_none.2 fun s hs hcovers => h (mem_mapped_of_covers hs hcovers)
  rw [ofChar, hlookup, hfind]

/-- The characters of an upper-case form are their own upper-case forms. -/
theorem ofChar_of_mem_ofChar {c c' : Char} (h : c' ∈ ofChar c) : ofChar c' = [c'] := by
  have himage : ∀ n ∈ images, ofChar (Char.ofNat n) = [Char.ofNat n] := by
    intro n hn
    refine ofChar_of_not_mem_mapped ?_
    rw [toNat_ofNat_images n hn]
    exact not_mem_mapped_of_mem_images hn
  cases hlookup : expansions.lookup c.toNat with
  | some form =>
      rw [ofChar, hlookup] at h
      obtain ⟨n, hn, rfl⟩ := List.mem_map.1 h
      exact himage n (List.mem_append_right _ (List.mem_flatMap.2
        ⟨_, mem_expansions_of_lookup hlookup, hn⟩))
  | none =>
      cases hfind : spans.find? (fun s => s.covers c.toNat) with
      | some s =>
          have hcovers : s.covers c.toNat = true := by simpa using List.find?_some hfind
          rw [ofChar, hlookup, hfind] at h
          rw [List.mem_singleton.1 h]
          exact himage _ (map_mem_images_of_covers (List.mem_of_find?_eq_some hfind) hcovers)
      | none =>
          rw [ofChar, hlookup, hfind] at h
          rw [List.mem_singleton.1 h, ofChar, hlookup, hfind]

end UpperCase

namespace Text

/-! ### Texts in upper case -/

/-- Only the empty text is empty in upper case. -/
theorem upper_eq_nil_iff {t : Text} : upper t = [] ↔ t = [] := by
  cases t with
  | nil => simp
  | cons c t => simp [upper, UpperCase.ofChar_ne_nil]

/-- Upper-casing a text a second time changes nothing. -/
theorem upper_upper (t : Text) : upper (upper t) = upper t := by
  have hfixed : ∀ c, (UpperCase.ofChar c).flatMap UpperCase.ofChar = UpperCase.ofChar c := by
    intro c
    rw [List.flatMap_congr fun _ => UpperCase.ofChar_of_mem_ofChar]
    exact List.flatMap_singleton' _
  rw [upper, upper, List.flatMap_assoc]
  exact List.flatMap_congr fun c _ => hfixed c

/-- The blanks of a text in upper case are blanks of the text. -/
theorem mem_of_mem_upper {c : Char} {t : Text} (h : c ∈ upper t) (hblank : isBlank c = true) :
    c ∈ t := by
  obtain ⟨d, hd, hc⟩ := List.mem_flatMap.1 h
  rwa [UpperCase.eq_of_mem_ofChar hc hblank]

/-- A text in upper case ends with the upper-case form of its last character. -/
theorem getLast?_upper_concat (t : Text) (last : Char) :
    (upper (t ++ [last])).getLast? = (UpperCase.ofChar last).getLast? := by
  have hlast := List.getLast?_eq_some_getLast (UpperCase.ofChar_ne_nil last)
  rw [upper_append, List.getLast?_append]
  simp [upper, hlast]

/-- Upper-casing puts no blank at the end of a text. -/
theorem isBlank_getLast?_upper {t : Text} (h : ∀ c ∈ t.getLast?, isBlank c = false) :
    ∀ c ∈ (upper t).getLast?, isBlank c = false := by
  intro c hc
  obtain rfl | ⟨before, last, rfl⟩ := List.eq_nil_or_concat t
  · simp at hc
  · rw [List.concat_eq_append] at h hc
    rw [getLast?_upper_concat] at hc
    cases hblank : isBlank c with
    | false => rfl
    | true =>
        have hlast := UpperCase.eq_of_mem_ofChar (List.mem_of_getLast? hc) hblank
        rw [hlast, h last (by simp)] at hblank
        exact absurd hblank (by decide)

/-- Upper-casing puts no blank in front of a text. -/
theorem isBlank_head?_upper {t : Text} (h : ∀ c ∈ t.head?, isBlank c = false) :
    ∀ c ∈ (upper t).head?, isBlank c = false := by
  intro c hc
  cases t with
  | nil => simp at hc
  | cons first rest =>
      have hform : c ∈ (UpperCase.ofChar first).head? := by
        obtain ⟨d, form, hform⟩ := List.exists_cons_of_ne_nil (UpperCase.ofChar_ne_nil first)
        simpa [upper, hform] using hc
      cases hblank : isBlank c with
      | false => rfl
      | true =>
          have hfirst := UpperCase.eq_of_mem_ofChar (List.mem_of_head? hform) hblank
          rw [hfirst, h first (by simp)] at hblank
          exact absurd hblank (by decide)

/-! ### Trimmed texts -/

theorem mem_of_mem_trim {c : Char} {t : Text} (h : c ∈ trim t) : c ∈ t := by
  have hleft : c ∈ trimLeft t := by
    rw [trim, trimRight, List.mem_reverse] at h
    exact List.mem_reverse.1 ((List.dropWhile_sublist _).subset h)
  exact (List.dropWhile_sublist _).subset hleft

/-- A trimmed text does not begin with a blank. -/
theorem isBlank_head?_trim (t : Text) : ∀ c ∈ (trim t).head?, isBlank c = false := by
  intro c hc
  obtain ⟨rest, hrest⟩ : trim t <+: trimLeft t := List.rdropWhile_prefix _ _
  have hhead : (trimLeft t).head? = some c := by
    rw [← hrest, List.head?_append, Option.mem_def.1 hc, Option.some_or]
  have hnot := List.head?_dropWhile_not isBlank t
  rw [trimLeft] at hhead
  rw [hhead] at hnot
  exact hnot

/-- A trimmed text does not end in a blank. -/
theorem isBlank_getLast?_trim (t : Text) : ∀ c ∈ (trim t).getLast?, isBlank c = false := by
  intro c hc
  have hnot := List.head?_dropWhile_not isBlank (trimLeft t).reverse
  rw [trim, trimRight, List.getLast?_reverse, Option.mem_def] at hc
  rw [hc] at hnot
  simpa using hnot

/-- Trimming leaves a text as it is that has no blank at either end. -/
theorem trim_eq_self {t : Text} (hhead : ∀ c ∈ t.head?, isBlank c = false)
    (hlast : ∀ c ∈ t.getLast?, isBlank c = false) : trim t = t := by
  have hleft : trimLeft t = t := by
    cases t with
    | nil => rfl
    | cons c t => exact List.dropWhile_cons_of_neg (by simp [hhead c rfl])
  rw [trim, hleft]
  refine List.rdropWhile_eq_self_iff.2 fun hne => ?_
  simp [hlast _ (List.getLast?_eq_some_getLast hne)]

end Text

end OpcodeCatalog
