import OpcodeCatalog.Listing.Json
import OpcodeCatalog.Proofs.Listing.Json.Grammar
import OpcodeCatalog.Proofs.Listing.Positions
import OpcodeCatalog.Proofs.Text.Utf8

/-!
# Listings read back from JSON

The JSON text of a listing is read by the grammar as an array with an object for each line, and as
nothing else.

Main definitions:

* `Listing.Line.toJson` — the value of a line.

Main results:

* `Listing.Json.char?_escape` — an escaped character is read as that character;
* `Listing.Json.reads_spaced` — a line is read, however white space is put between its tokens;
* `Listing.json_denotes_lines` — **a listing in JSON denotes its lines and nothing else**.
-/

set_option autoImplicit false

namespace OpcodeCatalog

namespace Listing

/-- The value of a line: an object with its name and its code. -/
def Line.toJson (line : Line) : Json.Value :=
  .object [("name".toList, .string line.name), ("code".toList, .number line.code.val)]

namespace Json

/-! ### Strings -/

theorem hexDigit?_digitChar : ∀ d < 16, hexDigit? (Nat.digitChar d) = some d := by decide

/-- Four hexadecimal digits are read as the number they were made of, up to the digits that are cut
off. -/
theorem codeUnit?_fixedDigits (n : Nat) (rest : Text) :
    codeUnit? (Text.fixedDigits 16 4 n ++ rest) = some (n % 65536, rest) := by
  have hdigit : ∀ m, hexDigit? (Nat.digitChar (m % 16)) = some (m % 16) := fun m =>
    hexDigit?_digitChar _ (Nat.mod_lt _ (by decide))
  simp only [Text.fixedDigits, List.nil_append, List.cons_append, codeUnit?, hdigit,
    Option.bind_eq_bind, Option.bind_some, Option.pure_def, Option.some.injEq, Prod.mk.injEq,
    and_true]
  omega

/-- A code unit that is no surrogate is a character. -/
theorem unitChar?_fixedDigits {n : Nat} (h : n < 0xD800) (rest : Text) :
    unitChar? (Text.fixedDigits 16 4 n ++ rest) = some (Char.ofNat n, rest) := by
  have hmod : n % 65536 = n := Nat.mod_eq_of_lt (by omega)
  have hhigh : ¬ (0xD800 ≤ n ∧ n ≤ 0xDBFF) := by omega
  have hlow : ¬ (0xDC00 ≤ n ∧ n ≤ 0xDFFF) := by omega
  simp [unitChar?, codeUnit?_fixedDigits, hmod, hhigh, hlow]

/-- A character that needs no escape is read as itself. -/
theorem char?_cons {c : Char} (hquote : c ≠ '"') (hslash : c ≠ '\\') (hcontrol : 0x20 ≤ c.toNat)
    (rest : Text) : char? (c :: rest) = some (c, rest) := by
  have hcontrol' : ¬ c.toNat < 0x20 := Nat.not_lt.2 hcontrol
  unfold char?
  split
  · rename_i heq
    exact absurd (List.cons.inj heq).1 hslash
  · rename_i heq
    exact absurd (List.cons.inj heq).1 hslash
  · rename_i heq
    obtain ⟨rfl, rfl⟩ := List.cons.inj heq
    simp [hquote, hslash, hcontrol']
  · rename_i heq
    exact absurd heq (by simp)

/-- An escaped character is read as that character. -/
theorem char?_escape (c : Char) (rest : Text) : char? (escape c ++ rest) = some (c, rest) := by
  unfold escape
  split_ifs with hquote hslash hbackspace htab hfeed hform hreturn hcontrol
  · rw [hquote]
    rfl
  · rw [hslash]
    rfl
  · obtain rfl : c = '\x08' := Char.toNat_inj.1 hbackspace
    rfl
  · obtain rfl : c = '\t' := Char.toNat_inj.1 htab
    rfl
  · obtain rfl : c = '\n' := Char.toNat_inj.1 hfeed
    rfl
  · obtain rfl : c = '\x0c' := Char.toNat_inj.1 hform
    rfl
  · obtain rfl : c = '\r' := Char.toNat_inj.1 hreturn
    rfl
  · have hunit := unitChar?_fixedDigits (n := c.toNat) (by omega) rest
    rw [Char.ofNat_toNat] at hunit
    exact hunit
  · exact char?_cons hquote hslash (Nat.not_lt.1 hcontrol) rest

/-- A text in quotation marks is read as that text. -/
theorem reads_characters (t rest : Text) :
    Reads (.characters t) (t.flatMap escape ++ '"' :: rest) rest := by
  induction t with
  | nil => exact .close rest
  | cons c t ih =>
      rw [List.flatMap_cons, List.append_assoc]
      exact .char (char?_escape c _) ih

theorem reads_quote (t rest : Text) : Reads (.value (.string t)) (quote t ++ rest) rest := by
  have hquote : quote t ++ rest = '"' :: (t.flatMap escape ++ '"' :: rest) := by simp [quote]
  rw [hquote]
  exact .string (reads_characters t rest)

/-! ### Numbers -/

/-- The text does not go on with a numeral. -/
def EndsNumeral (rest : Text) : Prop :=
  ∀ c ∈ rest.head?, c.isDigit = false ∧ c ≠ '.' ∧ c ≠ 'e' ∧ c ≠ 'E'

theorem fraction?_of_ends {rest : Text} (h : EndsNumeral rest) :
    fraction? rest = some (0, rest) := by
  unfold fraction?
  split
  · exact absurd rfl (h '.' rfl).2.1
  · rfl

theorem exponent?_of_ends {rest : Text} (h : EndsNumeral rest) :
    exponent? rest = some (0, rest) := by
  unfold exponent?
  split
  · exact absurd rfl (h 'e' rfl).2.2.1
  · exact absurd rfl (h 'E' rfl).2.2.2
  · rfl

/-- A numeral is read up to its last digit. -/
theorem digits?_decimal (n : Nat) {rest : Text} (h : EndsNumeral rest) :
    digits? (Text.decimal n ++ rest) = some (Text.decimal n, rest) := by
  have hdigits : ∀ c ∈ Text.decimal n, c.isDigit = true := fun c hc =>
    Nat.isDigit_of_mem_toDigits (by decide) (by decide) hc
  have hne : Text.decimal n ≠ [] := Nat.toDigits_ne_nil
  have htake : rest.takeWhile Char.isDigit = [] := by
    cases rest with
    | nil => rfl
    | cons c rest => simp [(h c rfl).1]
  have hdrop : rest.dropWhile Char.isDigit = rest := by
    cases rest with
    | nil => rfl
    | cons c rest => simp [(h c rfl).1]
  rw [digits?, List.takeWhile_append_of_pos hdigits, List.dropWhile_append_of_pos hdigits, htake,
    hdrop, List.append_nil, if_neg hne]

/-- No numeral but that of zero begins with a zero. -/
theorem head?_decimal {n : Nat} (h : n ≠ 0) : (Text.decimal n).head? ≠ some '0' := by
  induction n using Nat.strongRecOn with
  | ind n ih =>
      unfold Text.decimal at ih ⊢
      by_cases hn : n < 10
      · rw [Nat.toDigits_of_lt_base hn]
        simp [h]
      · -- the numeral of a tenth comes before the last digit
        rw [Nat.toDigits_of_base_le (by decide) (Nat.not_lt.1 hn),
          List.head?_append_of_ne_nil _ Nat.toDigits_ne_nil]
        exact ih (n / 10) (by omega) (by omega)

theorem whole?_decimal (n : Nat) {rest : Text} (h : EndsNumeral rest) :
    whole? (Text.decimal n ++ rest) = some (n, rest) := by
  by_cases hn : n = 0
  · subst hn
    rfl
  · unfold whole?
    split
    · rename_i heq
      have hhead := congrArg List.head? heq
      rw [Text.decimal, List.head?_append_of_ne_nil _ Nat.toDigits_ne_nil] at hhead
      exact absurd hhead (head?_decimal hn)
    · rw [digits?_decimal n h]
      simp [Text.decimal, Nat.ofDigitChars_ten_toDigits]

/-- A numeral is read as its number. -/
theorem number?_decimal (n : Nat) {rest : Text} (h : EndsNumeral rest) :
    number? (Text.decimal n ++ rest) = some ((n : ℚ), rest) := by
  unfold number?
  split
  · rename_i heq
    obtain ⟨c, s, hs, hdigit⟩ := Text.decimal_eq_cons n
    rw [hs, List.cons_append] at heq
    rw [(List.cons.inj heq).1] at hdigit
    exact absurd hdigit (by decide)
  · simp [unsigned?, whole?_decimal n h, fraction?_of_ends h, exponent?_of_ends h]

/-! ### White space -/

theorem isSpace_iff {c : Char} :
    isSpace c = true ↔ c = ' ' ∨ c = '\t' ∨ c = '\n' ∨ c = '\r' := by
  simp [isSpace, or_assoc]

theorem skip_append {w : Text} (h : ∀ c ∈ w, isSpace c = true) (s : Text) :
    skip (w ++ s) = skip s := List.dropWhile_append_of_pos h

theorem skip_space {c : Char} (h : isSpace c = true) (s : Text) : skip (c :: s) = skip s := by
  simp [skip, h]

theorem skip_cons {c : Char} (h : isSpace c = false) (s : Text) : skip (c :: s) = c :: s := by
  simp [skip, h]

theorem skip_quote (t rest : Text) : skip (quote t ++ rest) = quote t ++ rest :=
  skip_cons (by decide) _

theorem skip_decimal (n : Nat) (rest : Text) :
    skip (Text.decimal n ++ rest) = Text.decimal n ++ rest := by
  obtain ⟨c, s, hs, hdigit⟩ := Text.decimal_eq_cons n
  have hspace : isSpace c = false := by
    rw [Bool.eq_false_iff, ne_eq, isSpace_iff]
    rintro (rfl | rfl | rfl | rfl) <;> exact absurd hdigit (by decide)
  rw [hs, List.cons_append, skip_cons hspace]

/-- White space ends a numeral, and so does the brace that closes an object. -/
theorem endsNumeral_append {w : Text} (h : ∀ c ∈ w, isSpace c = true) (rest : Text) :
    EndsNumeral (w ++ '\x7d' :: rest) := by
  intro c hc
  cases w with
  | nil =>
      obtain rfl : '\x7d' = c := by simpa using hc
      decide
  | cons first w =>
      obtain rfl : first = c := by simpa using hc
      rcases isSpace_iff.1 (h first (List.mem_cons_self ..)) with rfl | rfl | rfl | rfl <;> decide

/-! ### Lines -/

/-- The line as an object, with `outer` in front of the names, `inner` behind the colons and `last`
at the end. -/
def spaced (outer inner last : Text) (line : Line) : Text :=
  '\x7b' :: (outer ++ quote "name".toList ++ ':' :: (inner ++ quote line.name ++ ',' ::
    (outer ++ quote "code".toList ++ ':' :: (inner ++ Text.decimal line.code.val ++ last ++
      ['\x7d']))))

theorem compact_eq_spaced (line : Line) : compact line = spaced [] [] [] line := by
  have hname : "\x7b\"name\":".toList = '\x7b' :: (quote "name".toList ++ [':']) := by decide
  have hcode : ",\"code\":".toList = ',' :: (quote "code".toList ++ [':']) := by decide
  have hend : "\x7d".toList = ['\x7d'] := by decide
  unfold compact spaced
  simp only [hname, hcode, hend, List.append_assoc, List.cons_append, List.nil_append]

theorem flatten_prettyLine (line : Line) :
    (prettyLine line).flatten =
      ' ' :: ' ' :: spaced "\n    ".toList " ".toList "\n  ".toList line := by
  have hstart : "  \x7b\n".toList ++ "    \"name\": ".toList = ' ' :: ' ' :: '\x7b' ::
      ("\n    ".toList ++ quote "name".toList ++ ':' :: " ".toList) := by decide
  have hcode : ",\n".toList ++ "    \"code\": ".toList = ',' ::
      ("\n    ".toList ++ quote "code".toList ++ ':' :: " ".toList) := by decide
  have hend : "\n  \x7d".toList = "\n  ".toList ++ ['\x7d'] := by decide
  have hpieces : (prettyLine line).flatten =
      ("  \x7b\n".toList ++ "    \"name\": ".toList) ++ quote line.name ++
        (",\n".toList ++ "    \"code\": ".toList) ++ Text.decimal line.code.val ++
          "\n  \x7d".toList := by
    rw [prettyLine]
    simp only [List.flatten_cons, List.flatten_nil, List.append_nil, List.append_assoc]
  rw [hpieces, hstart, hcode, hend, spaced]
  simp only [List.append_assoc, List.cons_append]

section Spaced

variable {outer inner last : Text}

/-- A member is read, with white space behind the colon. -/
theorem reads_member (hinner : ∀ c ∈ inner, isSpace c = true) {key s rest : Text} {v : Value}
    (hs : skip s = s) (hv : Reads (.value v) s rest) :
    Reads (.member (key, v)) (quote key ++ ':' :: (inner ++ s)) rest := by
  have hquote : quote key ++ ':' :: (inner ++ s) =
      '"' :: (key.flatMap escape ++ '"' :: ':' :: (inner ++ s)) := by simp [quote]
  have hskip : skip (inner ++ s) = s := by rw [skip_append hinner, hs]
  rw [hquote]
  exact .member (reads_characters key _) (skip_cons (by decide) _) (hskip.symm ▸ hv)

/-- A line is read as its value, whatever the white space is. -/
theorem reads_spaced (houter : ∀ c ∈ outer, isSpace c = true)
    (hinner : ∀ c ∈ inner, isSpace c = true) (hlast : ∀ c ∈ last, isSpace c = true)
    (line : Line) (rest : Text) :
    Reads (.value line.toJson) (spaced outer inner last line ++ rest) rest := by
  -- what follows the number, and what follows the comma
  obtain ⟨brace, hbrace⟩ : ∃ s, s = last ++ '\x7d' :: rest := ⟨_, rfl⟩
  obtain ⟨second, hsecond⟩ : ∃ s, s = outer ++ (quote "code".toList ++ ':' ::
      (inner ++ (Text.decimal line.code.val ++ brace))) := ⟨_, rfl⟩
  have hspaced : spaced outer inner last line ++ rest = '\x7b' :: (outer ++
      (quote "name".toList ++ ':' :: (inner ++ (quote line.name ++ ',' :: second)))) := by
    rw [hsecond, hbrace]
    unfold spaced
    simp only [List.append_assoc, List.cons_append, List.nil_append]
  have hend : skip brace = '\x7d' :: rest := by
    rw [hbrace, skip_append hlast]
    exact skip_cons (by decide) rest
  have hnumeral : EndsNumeral brace := hbrace ▸ endsNumeral_append hlast rest
  have hcode : Reads (.members [("code".toList, .number line.code.val)]) second rest := by
    refine .lastMember ?_ hend
    rw [hsecond, skip_append houter, skip_quote]
    exact reads_member hinner (skip_decimal _ _) (.number (number?_decimal _ hnumeral))
  rw [hspaced]
  refine .object (.memberOf ?_ (skip_cons (by decide) second) hcode)
  rw [skip_append houter, skip_quote]
  exact reads_member hinner (skip_quote _ _) (reads_quote line.name _)

end Spaced

/-- A line without white space denotes its value. -/
theorem denotes_compact (line : Line) : Denotes (compact line) line.toJson := by
  have hreads : Reads (.value line.toJson) (spaced [] [] [] line ++ []) [] :=
    reads_spaced (by simp) (by simp) (by simp) line []
  have hskip : skip (spaced [] [] [] line) = spaced [] [] [] line := skip_cons (by decide) _
  refine ⟨[], ?_, rfl⟩
  rwa [compact_eq_spaced, hskip, ← List.append_nil (spaced [] [] [] line)]

/-! ### Listings -/

/-- An indented line is read as its value, behind the line feed in front of it. -/
theorem reads_prettyLine (line : Line) (rest : Text) :
    Reads (.value line.toJson) (skip ('\n' :: ((prettyLine line).flatten ++ rest))) rest := by
  rw [skip_space (by decide), flatten_prettyLine, List.cons_append, List.cons_append,
    skip_space (by decide), skip_space (by decide), spaced, List.cons_append,
    skip_cons (by decide)]
  exact reads_spaced (by simp [isSpace]) (by simp [isSpace]) (by simp [isSpace]) line rest

/-- The lines behind the first one, and the end of the array. -/
def prettyRest (lines : List Line) : Text :=
  (lines.flatMap fun line => ",\n".toList :: prettyLine line).flatten ++ "\n]".toList

theorem prettyRest_nil : prettyRest [] = ['\n', ']'] := by decide

theorem prettyRest_cons (line : Line) (lines : List Line) :
    prettyRest (line :: lines) =
      ',' :: '\n' :: ((prettyLine line).flatten ++ prettyRest lines) := by
  have hcomma : ",\n".toList = [',', '\n'] := by decide
  simp only [prettyRest, hcomma, List.flatMap_cons, List.cons_append, List.flatten_cons,
    List.flatten_append, List.nil_append, List.append_assoc]

theorem flatten_pretty_cons (line : Line) (lines : List Line) :
    (pretty (line :: lines)).flatten =
      '[' :: '\n' :: ((prettyLine line).flatten ++ prettyRest lines) := by
  have hbracket : "[\n".toList = ['[', '\n'] := by decide
  simp only [pretty, prettyRest, hbracket, List.cons_append, List.flatten_cons,
    List.flatten_append, List.flatten_nil, List.append_nil, List.nil_append, List.append_assoc]

/-- The lines behind the bracket are read one by one. -/
theorem reads_elements (line : Line) (lines : List Line) (rest : Text) :
    Reads (.elements ((line :: lines).map Line.toJson))
      ('\n' :: ((prettyLine line).flatten ++ (prettyRest lines ++ rest))) rest := by
  induction lines generalizing line with
  | nil =>
      refine .lastElement (reads_prettyLine line _) ?_
      rw [prettyRest_nil, List.cons_append, skip_space (by decide)]
      exact skip_cons (by decide) rest
  | cons next lines ih =>
      refine .element (reads_prettyLine line _) ?_ (ih next)
      rw [prettyRest_cons, List.cons_append, List.cons_append, skip_cons (by decide),
        List.append_assoc]

/-- A listing over several lines denotes the array of its lines. -/
theorem denotes_pretty (lines : List Line) :
    Denotes (pretty lines).flatten (.array (lines.map Line.toJson)) := by
  cases lines with
  | nil => exact ⟨[], .emptyArray rfl, rfl⟩
  | cons line lines =>
      have hreads := reads_elements line lines []
      rw [List.append_nil] at hreads
      refine ⟨[], ?_, rfl⟩
      rw [flatten_pretty_cons, skip_cons (by decide)]
      exact .array hreads

/-- Lines with the same value are equal. -/
theorem toJson_injective {line line' : Line} (h : line.toJson = line'.toJson) : line = line' := by
  obtain ⟨name, code⟩ := line
  obtain ⟨name', code'⟩ := line'
  simp only [Line.toJson, Value.object.injEq, List.cons.injEq, Prod.mk.injEq, true_and,
    Value.string.injEq, Value.number.injEq, Nat.cast_inj, and_true] at h
  rw [h.1, Fin.ext h.2]

end Json

/-! ### Documents -/

open Json (Denotes compact pretty denotes_compact denotes_pretty toJson_injective)

theorem render_json (lines : List Line) :
    render .json lines = (pretty lines).flatten ++ ['\n'] := by
  simp [render, pieces]

/-- Listings with the same JSON text are equal. -/
theorem render_json_injective {lines lines' : List Line}
    (h : render .json lines = render .json lines') : lines = lines' := by
  rw [render_json, render_json] at h
  have hdenotes := denotes_pretty lines
  rw [List.append_cancel_right h] at hdenotes
  have hvalue := hdenotes.unique (denotes_pretty lines')
  rw [Json.Value.array.injEq] at hvalue
  exact (List.map_injective_iff.2 fun _ _ => toJson_injective) hvalue.symm

/-- Lines with the same JSON text are equal. -/
theorem compact_injective {line line' : Line} (h : compact line = compact line') :
    line = line' := by
  have hdenotes := denotes_compact line
  rw [h] at hdenotes
  exact toJson_injective ((denotes_compact line').unique hdenotes)

/-- **A listing in JSON denotes its lines and nothing else.**  What is written is a JSON text and a
line feed, and the text denotes an array with an object for each line, in order, with its name and
its code.  So listings that differ are written differently.  The same holds of a single line. -/
theorem json_denotes_lines (lines : List Line) :
    (∃ document, (write .unlimited .json lines).failure = none ∧
      (write .unlimited .json lines).taken = Utf8.encode (document ++ ['\n']) ∧
      ∀ v, Denotes document v ↔ v = .array (lines.map Line.toJson)) ∧
    (∀ lines', (write .unlimited .json lines').taken = (write .unlimited .json lines).taken ↔
      lines' = lines) ∧
    (∀ line v, Denotes (compact line) v ↔ v = line.toJson) ∧
    ∀ line line', compact line' = compact line ↔ line' = line := by
  refine ⟨⟨(pretty lines).flatten, (write_unlimited .json lines).2, ?_, ?_⟩, ?_, ?_, ?_⟩
  · rw [(write_unlimited .json lines).1, render_json]
  · intro v
    constructor
    · exact fun hv => (denotes_pretty lines).unique hv
    · rintro rfl
      exact denotes_pretty lines
  · intro lines'
    constructor
    · intro h
      rw [(write_unlimited .json lines).1, (write_unlimited .json lines').1] at h
      exact render_json_injective (Utf8.encode_injective h)
    · rintro rfl
      rfl
  · intro line v
    constructor
    · exact fun hv => (denotes_compact line).unique hv
    · rintro rfl
      exact denotes_compact line
  · intro line line'
    exact ⟨compact_injective, fun h => h ▸ rfl⟩

end Listing

end OpcodeCatalog
