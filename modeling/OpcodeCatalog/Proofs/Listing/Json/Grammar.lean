import Mathlib.Algebra.Field.Rat
import OpcodeCatalog.Text.Basic

/-!
# The grammar of JSON

A JSON text is white space, a value, and white space again.  The grammar is written as a reading: a
part of a text is read from the front, and what follows it is left.  Its rules are those of the
standard, one for each way to write a part; numbers and the characters of strings, which have no
parts themselves, are read by functions.

A string stands for the characters it holds, with every escape resolved.  Half of a surrogate pair
stands for no character, so a string with one is not read.

Main definitions:

* `Listing.Json.Value` — what a JSON text stands for;
* `Listing.Json.number?`, `Listing.Json.char?` — a number, and a character of a string;
* `Listing.Json.Reads` — the grammar;
* `Listing.Json.Denotes` — a whole text and its value.

Main results:

* `Listing.Json.Reads.isOnly` — **a text is read in one way**;
* `Listing.Json.Denotes.unique` — a text has one value at most.
-/

set_option autoImplicit false

namespace OpcodeCatalog

namespace Listing

namespace Json

/-- What a JSON text stands for.  An object keeps its members in order, and the same name may come
twice. -/
inductive Value where
  | null
  | bool (b : Bool)
  | number (q : ℚ)
  | string (t : Text)
  | array (elements : List Value)
  | object (members : List (Text × Value))

/-! ### White space -/

/-- Space, tabulator, line feed and carriage return. -/
def isSpace (c : Char) : Bool := c == ' ' || c == '\t' || c == '\n' || c == '\r'

/-- The text without the white space in front. -/
def skip (s : Text) : Text := s.dropWhile isSpace

/-! ### Numbers -/

/-- At least one digit, as many as there are, and what follows. -/
def digits? (s : Text) : Option (Text × Text) :=
  if s.takeWhile Char.isDigit = [] then none
  else some (s.takeWhile Char.isDigit, s.dropWhile Char.isDigit)

/-- The whole part of a number: a zero alone, or digits of which the first is no zero. -/
def whole? : Text → Option (Nat × Text)
  | '0' :: rest => some (0, rest)
  | s => (digits? s).map fun (digits, rest) => (Nat.ofDigitChars 10 digits 0, rest)

/-- The digits after the point, if there is a point. -/
def fraction? : Text → Option (ℚ × Text)
  | '.' :: s =>
    (digits? s).map fun (digits, rest) => (Nat.ofDigitChars 10 digits 0 / 10 ^ digits.length, rest)
  | s => some (0, s)

/-- An exponent behind its letter, with or without a sign. -/
def signed? : Text → Option (ℤ × Text)
  | '-' :: s => (digits? s).map fun (digits, rest) => (-(Nat.ofDigitChars 10 digits 0 : ℤ), rest)
  | '+' :: s => (digits? s).map fun (digits, rest) => ((Nat.ofDigitChars 10 digits 0 : ℤ), rest)
  | s => (digits? s).map fun (digits, rest) => ((Nat.ofDigitChars 10 digits 0 : ℤ), rest)

/-- The exponent, if there is one. -/
def exponent? : Text → Option (ℤ × Text)
  | 'e' :: s => signed? s
  | 'E' :: s => signed? s
  | s => some (0, s)

/-- A number without a sign. -/
def unsigned? (s : Text) : Option (ℚ × Text) := do
  let (whole, s) ← whole? s
  let (fraction, s) ← fraction? s
  let (exponent, s) ← exponent? s
  return ((whole + fraction) * 10 ^ exponent, s)

/-- A number. -/
def number? : Text → Option (ℚ × Text)
  | '-' :: s => (unsigned? s).map fun (q, rest) => (-q, rest)
  | s => unsigned? s

/-- A numeral is read as far as it goes, and nothing may come before its first digit but a sign. -/
example : number? "-12.50e+1,".toList = some (-125, [',']) ∧
    number? "01".toList = some (0, ['1']) ∧ number? "+1".toList = none := by decide +kernel

/-! ### Characters of strings -/

/-- The value of a hexadecimal digit, in either case. -/
def hexDigit? (c : Char) : Option Nat :=
  if c.isDigit then some (c.toNat - 0x30)
  else if 'a' ≤ c ∧ c ≤ 'f' then some (c.toNat - 0x57)
  else if 'A' ≤ c ∧ c ≤ 'F' then some (c.toNat - 0x37)
  else none

/-- Four hexadecimal digits. -/
def codeUnit? : Text → Option (Nat × Text)
  | a :: b :: c :: d :: rest => do
    let a ← hexDigit? a
    let b ← hexDigit? b
    let c ← hexDigit? c
    let d ← hexDigit? d
    return (((a * 16 + b) * 16 + c) * 16 + d, rest)
  | _ => none

/-- The letters of the short escapes, with the characters they stand for. -/
def shortEscapes : List (Char × Char) :=
  [('"', '"'), ('\\', '\\'), ('/', '/'), ('b', '\x08'), ('f', '\x0c'), ('n', '\n'), ('r', '\r'),
   ('t', '\t')]

/-- The character of one code unit, or of the two units of a surrogate pair. -/
def unitChar? (s : Text) : Option (Char × Text) := do
  let (unit, s) ← codeUnit? s
  if 0xD800 ≤ unit ∧ unit ≤ 0xDBFF then
    match s with
    | '\\' :: 'u' :: s =>
      let (low, s) ← codeUnit? s
      if 0xDC00 ≤ low ∧ low ≤ 0xDFFF then
        return (Char.ofNat (0x10000 + (unit - 0xD800) * 0x400 + (low - 0xDC00)), s)
      else none
    | _ => none
  else if 0xDC00 ≤ unit ∧ unit ≤ 0xDFFF then none
  else return (Char.ofNat unit, s)

/-- A character of a string: an escape, or a character that needs none. -/
def char? : Text → Option (Char × Text)
  | '\\' :: 'u' :: s => unitChar? s
  | '\\' :: letter :: s => (shortEscapes.lookup letter).map fun c => (c, s)
  | c :: s => if c = '"' ∨ c = '\\' ∨ c.toNat < 0x20 then none else some (c, s)
  | [] => none

/-- Two halves of a surrogate pair are one character, and a single half is none. -/
example : char? "\\ud83d\\ude00\"".toList = some ('😀', ['"']) ∧
    char? "\\ud83d\"".toList = none := by decide

/-! ### The grammar -/

/-- A part of a JSON text, with what it stands for. -/
inductive Part where
  | value (v : Value)
  /-- What is left of a string, up to its closing quotation mark. -/
  | characters (t : Text)
  /-- What is left of an array, up to its closing bracket. -/
  | elements (vs : List Value)
  | member (m : Text × Value)
  /-- What is left of an object, up to its closing brace. -/
  | members (ms : List (Text × Value))

/-- The text `s` begins with a part, and `rest` is what follows it. -/
inductive Reads : Part → Text → Text → Prop
  | nullWord (rest : Text) : Reads (.value .null) ('n' :: 'u' :: 'l' :: 'l' :: rest) rest
  | trueWord (rest : Text) : Reads (.value (.bool true)) ('t' :: 'r' :: 'u' :: 'e' :: rest) rest
  | falseWord (rest : Text) :
      Reads (.value (.bool false)) ('f' :: 'a' :: 'l' :: 's' :: 'e' :: rest) rest
  | number {q : ℚ} {s rest : Text} : number? s = some (q, rest) → Reads (.value (.number q)) s rest
  | string {t s rest : Text} : Reads (.characters t) s rest →
      Reads (.value (.string t)) ('"' :: s) rest
  | emptyArray {s rest : Text} : skip s = ']' :: rest → Reads (.value (.array [])) ('[' :: s) rest
  | array {vs : List Value} {s rest : Text} : Reads (.elements vs) s rest →
      Reads (.value (.array vs)) ('[' :: s) rest
  | emptyObject {s rest : Text} : skip s = '\x7d' :: rest →
      Reads (.value (.object [])) ('\x7b' :: s) rest
  | object {ms : List (Text × Value)} {s rest : Text} : Reads (.members ms) s rest →
      Reads (.value (.object ms)) ('\x7b' :: s) rest
  | close (rest : Text) : Reads (.characters []) ('"' :: rest) rest
  | char {c : Char} {t s s' rest : Text} : char? s = some (c, s') → Reads (.characters t) s' rest →
      Reads (.characters (c :: t)) s rest
  | lastElement {v : Value} {s s' rest : Text} : Reads (.value v) (skip s) s' →
      skip s' = ']' :: rest → Reads (.elements [v]) s rest
  | element {v : Value} {vs : List Value} {s s' s'' rest : Text} : Reads (.value v) (skip s) s' →
      skip s' = ',' :: s'' → Reads (.elements vs) s'' rest → Reads (.elements (v :: vs)) s rest
  | member {name : Text} {v : Value} {s s' s'' rest : Text} : Reads (.characters name) s s' →
      skip s' = ':' :: s'' → Reads (.value v) (skip s'') rest →
      Reads (.member (name, v)) ('"' :: s) rest
  | lastMember {m : Text × Value} {s s' rest : Text} : Reads (.member m) (skip s) s' →
      skip s' = '\x7d' :: rest → Reads (.members [m]) s rest
  | memberOf {m : Text × Value} {ms : List (Text × Value)} {s s' s'' rest : Text} :
      Reads (.member m) (skip s) s' → skip s' = ',' :: s'' → Reads (.members ms) s'' rest →
      Reads (.members (m :: ms)) s rest

/-- The text is a JSON text, and this is its value. -/
def Denotes (s : Text) (v : Value) : Prop :=
  ∃ rest, Reads (.value v) (skip s) rest ∧ skip rest = []

/-! ### How numbers begin -/

theorem digits?_start {s : Text} {r : Text × Text} (h : digits? s = some r) :
    ∃ c s', s = c :: s' ∧ c.isDigit = true := by
  unfold digits? at h
  cases s with
  | nil => simp at h
  | cons c s =>
      cases hc : c.isDigit with
      | false => simp [hc] at h
      | true => exact ⟨c, s, rfl, hc⟩

/-- A number begins with a sign or a digit. -/
theorem number?_start {s : Text} {r : ℚ × Text} (h : number? s = some r) :
    ∃ c s', s = c :: s' ∧ (c = '-' ∨ c.isDigit = true) := by
  unfold number? at h
  split at h
  · exact ⟨_, _, rfl, Or.inl rfl⟩
  · obtain ⟨whole, hwhole, -⟩ := Option.bind_eq_some_iff.1 h
    unfold whole? at hwhole
    split at hwhole
    · exact ⟨_, _, rfl, Or.inr (by decide)⟩
    · obtain ⟨digits, hdigits, -⟩ := Option.map_eq_some_iff.1 hwhole
      obtain ⟨c, s', rfl, hc⟩ := digits?_start hdigits
      exact ⟨c, s', rfl, Or.inr hc⟩

theorem number?_cons_eq_none {c : Char} (hsign : c ≠ '-') (hdigit : c.isDigit = false)
    (s : Text) : number? (c :: s) = none := by
  rw [Option.eq_none_iff_forall_ne_some]
  intro r h
  obtain ⟨c', s', hs, hc⟩ := number?_start h
  obtain ⟨rfl, -⟩ := List.cons.inj hs
  rcases hc with hc | hc
  · exact hsign hc
  · rw [hdigit] at hc
    exact absurd hc (by decide)

/-! ### How values are read -/

/-- What a text is that begins with a value. -/
def Shape (v : Value) (s rest : Text) : Prop :=
  match v with
  | .null => s = 'n' :: 'u' :: 'l' :: 'l' :: rest
  | .bool true => s = 't' :: 'r' :: 'u' :: 'e' :: rest
  | .bool false => s = 'f' :: 'a' :: 'l' :: 's' :: 'e' :: rest
  | .number q => number? s = some (q, rest)
  | .string t => ∃ s', s = '"' :: s' ∧ Reads (.characters t) s' rest
  | .array vs => ∃ s', s = '[' :: s' ∧
      (vs = [] ∧ skip s' = ']' :: rest ∨ Reads (.elements vs) s' rest)
  | .object ms => ∃ s', s = '\x7b' :: s' ∧
      (ms = [] ∧ skip s' = '\x7d' :: rest ∨ Reads (.members ms) s' rest)

section Inversion

variable {v : Value} {s rest rest' : Text}

theorem Reads.shape (h : Reads (.value v) s rest) : Shape v s rest := by
  cases h with
  | nullWord => rfl
  | trueWord => rfl
  | falseWord => rfl
  | number hq => exact hq
  | string ht => exact ⟨_, rfl, ht⟩
  | emptyArray hskip => exact ⟨_, rfl, Or.inl ⟨rfl, hskip⟩⟩
  | array hvs => exact ⟨_, rfl, Or.inr hvs⟩
  | emptyObject hskip => exact ⟨_, rfl, Or.inl ⟨rfl, hskip⟩⟩
  | object hms => exact ⟨_, rfl, Or.inr hms⟩

/-- No value begins with the bracket that closes an array. -/
theorem not_reads_bracket : ¬ Reads (.value v) (']' :: s) rest := by
  intro h
  have hshape := h.shape
  cases v with
  | bool b => cases b <;> simp [Shape] at hshape
  | _ => simp [Shape, number?_cons_eq_none] at hshape

theorem Reads.null_inv (h : Reads (.value v) ('n' :: 'u' :: 'l' :: 'l' :: rest) rest') :
    v = .null ∧ rest' = rest := by
  have hshape := h.shape
  cases v with
  | null => exact ⟨rfl, by simpa [Shape, eq_comm] using hshape⟩
  | bool b => cases b <;> simp [Shape] at hshape
  | _ => simp [Shape, number?_cons_eq_none] at hshape

theorem Reads.true_inv (h : Reads (.value v) ('t' :: 'r' :: 'u' :: 'e' :: rest) rest') :
    v = .bool Bool.true ∧ rest' = rest := by
  have hshape := h.shape
  cases v with
  | bool b => cases b <;> simp_all [Shape]
  | _ => simp [Shape, number?_cons_eq_none] at hshape

theorem Reads.false_inv (h : Reads (.value v) ('f' :: 'a' :: 'l' :: 's' :: 'e' :: rest) rest') :
    v = .bool Bool.false ∧ rest' = rest := by
  have hshape := h.shape
  cases v with
  | bool b => cases b <;> simp_all [Shape]
  | _ => simp [Shape, number?_cons_eq_none] at hshape

theorem Reads.string_inv (h : Reads (.value v) ('"' :: s) rest) :
    ∃ t, v = .string t ∧ Reads (.characters t) s rest := by
  have hshape := h.shape
  cases v with
  | bool b => cases b <;> simp [Shape] at hshape
  | string t => simpa [Shape] using hshape
  | _ => simp [Shape, number?_cons_eq_none] at hshape

theorem Reads.array_inv (h : Reads (.value v) ('[' :: s) rest) :
    ∃ vs, v = .array vs ∧ (vs = [] ∧ skip s = ']' :: rest ∨ Reads (.elements vs) s rest) := by
  have hshape := h.shape
  cases v with
  | bool b => cases b <;> simp [Shape] at hshape
  | array vs => simpa [Shape] using hshape
  | _ => simp [Shape, number?_cons_eq_none] at hshape

theorem Reads.object_inv (h : Reads (.value v) ('\x7b' :: s) rest) :
    ∃ ms, v = .object ms ∧ (ms = [] ∧ skip s = '\x7d' :: rest ∨ Reads (.members ms) s rest) := by
  have hshape := h.shape
  cases v with
  | bool b => cases b <;> simp [Shape] at hshape
  | object ms => simpa [Shape] using hshape
  | _ => simp [Shape, number?_cons_eq_none] at hshape

theorem Reads.number_inv {q : ℚ} (hq : number? s = some (q, rest))
    (h : Reads (.value v) s rest') : v = .number q ∧ rest' = rest := by
  have hshape := h.shape
  obtain ⟨c, s, rfl, hc⟩ := number?_start hq
  -- every other value begins with a character that begins no number
  cases v with
  | number q' =>
      rw [Shape, hq, Option.some.injEq, Prod.mk.injEq] at hshape
      exact ⟨by rw [hshape.1], hshape.2.symm⟩
  | bool b => cases b <;> simp_all [Shape]
  | _ => simp_all [Shape]

/-- The elements of an array do not begin with its end. -/
theorem Reads.skip_ne_bracket {vs : List Value} (h : Reads (.elements vs) s rest) :
    skip s ≠ ']' :: rest' := by
  intro hskip
  cases h with
  | lastElement hv => exact not_reads_bracket (hskip ▸ hv)
  | element hv => exact not_reads_bracket (hskip ▸ hv)

/-- The members of an object do not begin with its end. -/
theorem Reads.skip_ne_brace {ms : List (Text × Value)} (h : Reads (.members ms) s rest) :
    skip s ≠ '\x7d' :: rest' := by
  have hmember : ∀ {m : Text × Value} {s₀ r : Text}, Reads (.member m) s₀ r →
      s₀ ≠ '\x7d' :: rest' := by
    intro m s₀ r hm
    cases hm
    simp
  cases h with
  | lastMember hm => exact hmember hm
  | memberOf hm => exact hmember hm

end Inversion

/-! ### One reading only -/

/-- No other part of the same sort is read from the text, and nothing else is left. -/
def Part.IsOnly : Part → Text → Text → Prop
  | .value v, s, rest => ∀ v' rest', Reads (.value v') s rest' → v' = v ∧ rest' = rest
  | .characters t, s, rest => ∀ t' rest', Reads (.characters t') s rest' → t' = t ∧ rest' = rest
  | .elements vs, s, rest => ∀ vs' rest', Reads (.elements vs') s rest' → vs' = vs ∧ rest' = rest
  | .member m, s, rest => ∀ m' rest', Reads (.member m') s rest' → m' = m ∧ rest' = rest
  | .members ms, s, rest => ∀ ms' rest', Reads (.members ms') s rest' → ms' = ms ∧ rest' = rest

theorem skip_unique {s rest rest' : Text} {c c' : Char} (h : skip s = c :: rest)
    (h' : skip s = c' :: rest') : c' = c ∧ rest' = rest :=
  List.cons.inj (h'.symm.trans h)

/-- **A text is read in one way**: a part that can be read is the only one of its sort. -/
theorem Reads.isOnly {p : Part} {s rest : Text} (h : Reads p s rest) : p.IsOnly s rest := by
  induction h with
  | nullWord rest => exact fun v' rest' h' => h'.null_inv
  | trueWord rest => exact fun v' rest' h' => h'.true_inv
  | falseWord rest => exact fun v' rest' h' => h'.false_inv
  | number hq => exact fun v' rest' h' => h'.number_inv hq
  | string _ ih =>
      intro v' rest' h'
      obtain ⟨t', rfl, ht'⟩ := h'.string_inv
      obtain ⟨rfl, rfl⟩ := ih _ _ ht'
      exact ⟨rfl, rfl⟩
  | emptyArray hskip =>
      intro v' rest' h'
      obtain ⟨vs', rfl, ⟨rfl, hskip'⟩ | hvs'⟩ := h'.array_inv
      · exact ⟨rfl, (skip_unique hskip hskip').2⟩
      · exact absurd hskip hvs'.skip_ne_bracket
  | array hvs ih =>
      intro v' rest' h'
      obtain ⟨vs', rfl, ⟨rfl, hskip'⟩ | hvs'⟩ := h'.array_inv
      · exact absurd hskip' hvs.skip_ne_bracket
      · obtain ⟨rfl, rfl⟩ := ih _ _ hvs'
        exact ⟨rfl, rfl⟩
  | emptyObject hskip =>
      intro v' rest' h'
      obtain ⟨ms', rfl, ⟨rfl, hskip'⟩ | hms'⟩ := h'.object_inv
      · exact ⟨rfl, (skip_unique hskip hskip').2⟩
      · exact absurd hskip hms'.skip_ne_brace
  | object hms ih =>
      intro v' rest' h'
      obtain ⟨ms', rfl, ⟨rfl, hskip'⟩ | hms'⟩ := h'.object_inv
      · exact absurd hskip' hms.skip_ne_brace
      · obtain ⟨rfl, rfl⟩ := ih _ _ hms'
        exact ⟨rfl, rfl⟩
  | close rest =>
      intro t' rest' h'
      cases h' with
      | close => exact ⟨rfl, rfl⟩
      | char hc _ => simp [char?] at hc
  | char hc _ ih =>
      intro t' rest' h'
      cases h' with
      | close => simp [char?] at hc
      | char hc' ht' =>
          rw [hc, Option.some.injEq, Prod.mk.injEq] at hc'
          obtain ⟨rfl, rfl⟩ := hc'
          obtain ⟨rfl, rfl⟩ := ih _ _ ht'
          exact ⟨rfl, rfl⟩
  | lastElement hv hskip ih =>
      intro vs' rest' h'
      cases h' with
      | lastElement hv' hskip' =>
          obtain ⟨rfl, rfl⟩ := ih _ _ hv'
          exact ⟨rfl, (skip_unique hskip hskip').2⟩
      | element hv' hskip' _ =>
          obtain ⟨-, rfl⟩ := ih _ _ hv'
          exact absurd (skip_unique hskip hskip').1 (by decide)
  | element hv hskip hvs ihv ihvs =>
      intro vs' rest' h'
      cases h' with
      | lastElement hv' hskip' =>
          obtain ⟨-, rfl⟩ := ihv _ _ hv'
          exact absurd (skip_unique hskip hskip').1 (by decide)
      | element hv' hskip' hvs' =>
          obtain ⟨rfl, rfl⟩ := ihv _ _ hv'
          obtain ⟨-, rfl⟩ := skip_unique hskip hskip'
          obtain ⟨rfl, rfl⟩ := ihvs _ _ hvs'
          exact ⟨rfl, rfl⟩
  | member hname hskip hv ihname ihv =>
      intro m' rest' h'
      cases h' with
      | member hname' hskip' hv' =>
          obtain ⟨rfl, rfl⟩ := ihname _ _ hname'
          obtain ⟨-, rfl⟩ := skip_unique hskip hskip'
          obtain ⟨rfl, rfl⟩ := ihv _ _ hv'
          exact ⟨rfl, rfl⟩
  | lastMember hm hskip ih =>
      intro ms' rest' h'
      cases h' with
      | lastMember hm' hskip' =>
          obtain ⟨rfl, rfl⟩ := ih _ _ hm'
          exact ⟨rfl, (skip_unique hskip hskip').2⟩
      | memberOf hm' hskip' _ =>
          obtain ⟨-, rfl⟩ := ih _ _ hm'
          exact absurd (skip_unique hskip hskip').1 (by decide)
  | memberOf hm hskip hms ihm ihms =>
      intro ms' rest' h'
      cases h' with
      | lastMember hm' hskip' =>
          obtain ⟨-, rfl⟩ := ihm _ _ hm'
          exact absurd (skip_unique hskip hskip').1 (by decide)
      | memberOf hm' hskip' hms' =>
          obtain ⟨rfl, rfl⟩ := ihm _ _ hm'
          obtain ⟨-, rfl⟩ := skip_unique hskip hskip'
          obtain ⟨rfl, rfl⟩ := ihms _ _ hms'
          exact ⟨rfl, rfl⟩

/-- A text has one value at most. -/
theorem Denotes.unique {s : Text} {v v' : Value} (h : Denotes s v) (h' : Denotes s v') :
    v' = v := by
  obtain ⟨rest, hv, -⟩ := h
  obtain ⟨rest', hv', -⟩ := h'
  exact (hv.isOnly v' rest' hv').1

end Json

end Listing

end OpcodeCatalog
