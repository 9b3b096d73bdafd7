import Mathlib.Algebra.Group.Nat.Even
import OpcodeCatalog.Definitions
import OpcodeCatalog.Proofs.Text.Lines

/-!
# The headers of a definition file

The scan of a definition file takes two lines at a header and one line elsewhere, so whether a line
is a header depends on how the lines before it were taken.  This module says it without the scan: a
line is a header if it is the word `DEFINE_INSN` and an even number of such words stands directly
before it.  With an odd number the line is the name of the definition that the line before it
begins.

The scan is then the same as two steps one after the other: find the headers, each with the name on
its next line, and collect the names up to the first fault.

Main definitions:

* `Definitions.textLines` — the lines of a text, by splitting at line feeds;
* `Definitions.IsHeader`, `Definitions.headers` — the positions of the headers;
* `Definitions.nameAfter` — the name on the line after a position;
* `Definitions.scan`, `Definitions.collect` — the two steps.

Main results:

* `Definitions.namesFrom_eq_collect` — the scan is the two steps;
* `Definitions.scan_eq_map_headers` — **the scan stops at the headers**, and nowhere else;
* `Definitions.names_eq_collect_headers` — the names of a text, by its headers.
-/

set_option autoImplicit false

namespace OpcodeCatalog

namespace Definitions

/-! ### The lines of a text -/

/-- The lines of a text: its pieces between line feeds without an empty one at the end, each without
the carriage returns at its end. -/
def textLines (t : Text) : List Text :=
  (Text.dropFinalEmpty (t.splitOn '\n')).map (List.rdropWhile (· == '\r'))

theorem logicalLines_eq_textLines (t : Text) : logicalLines t = textLines t := by
  rw [logicalLines, Text.lines_eq_splitOn, textLines]
  exact List.map_congr_left fun line _ => Text.dropReturns_eq_rdropWhile line

/-! ### Runs of the header word -/

/-- The number of header words at the end of the lines. -/
def runLength (lines : List Text) : Nat := (lines.rtakeWhile (· == header)).length

@[simp] theorem runLength_nil : runLength [] = 0 := by simp [runLength]

@[simp] theorem runLength_concat_header (lines : List Text) :
    runLength (lines ++ [header]) = runLength lines + 1 := by
  simp [runLength]

theorem runLength_concat_of_ne {line : Text} (h : line ≠ header) (lines : List Text) :
    runLength (lines ++ [line]) = 0 := by
  simp [runLength, h]

/-- After a header and its name the run is even again, whatever the name is. -/
theorem even_runLength_concat_header {lines : List Text} (h : Even (runLength lines))
    (name : Text) : Even (runLength (lines ++ [header, name])) := by
  have happend : lines ++ [header, name] = (lines ++ [header]) ++ [name] := by simp
  rw [happend]
  by_cases hname : name = header
  · rw [hname, runLength_concat_header, runLength_concat_header]
    exact h.add ⟨1, rfl⟩
  · rw [runLength_concat_of_ne hname]
    exact Even.zero

/-! ### Headers -/

/-- Position `i` holds a header: the header word, with an even number of header words directly
before it. -/
def IsHeader (lines : List Text) (i : Nat) : Prop :=
  lines[i]? = some header ∧ Even (runLength (lines.take i))

instance (lines : List Text) (i : Nat) : Decidable (IsHeader lines i) :=
  inferInstanceAs (Decidable (_ ∧ _))

/-- The positions of the headers before position `n`, in the order of the lines. -/
def headersBefore (lines : List Text) (n : Nat) : List Nat :=
  (List.range n).filter (IsHeader lines ·)

/-- The positions of all headers, in the order of the lines. -/
def headers (lines : List Text) : List Nat := headersBefore lines lines.length

theorem IsHeader.lt_length {lines : List Text} {i : Nat} (h : IsHeader lines i) :
    i < lines.length := (List.getElem?_eq_some_iff.1 h.1).1

@[simp] theorem mem_headersBefore {lines : List Text} {n i : Nat} :
    i ∈ headersBefore lines n ↔ i < n ∧ IsHeader lines i := by
  simp [headersBefore]

@[simp] theorem mem_headers {lines : List Text} {i : Nat} :
    i ∈ headers lines ↔ IsHeader lines i := by
  rw [headers, mem_headersBefore]
  exact ⟨fun h => h.2, fun h => ⟨h.lt_length, h⟩⟩

theorem nodup_headersBefore (lines : List Text) (n : Nat) : (headersBefore lines n).Nodup :=
  List.nodup_range.filter _

theorem nodup_headers (lines : List Text) : (headers lines).Nodup :=
  nodup_headersBefore lines lines.length

/-- The headers are those before a given one, that one, and others. -/
theorem exists_headers_eq_append {lines : List Text} {i : Nat} (h : IsHeader lines i) :
    ∃ rest, headers lines = headersBefore lines i ++ i :: rest := by
  obtain ⟨k, hk⟩ := Nat.exists_eq_add_of_lt h.lt_length
  refine ⟨(List.range' (i + 1) k).filter (IsHeader lines ·), ?_⟩
  have hrange : List.range lines.length = List.range i ++ i :: List.range' (i + 1) k := by
    rw [hk, Nat.add_assoc, List.range_eq_range', List.range_eq_range', ← List.range'_succ]
    simpa using (List.range'_append_1 (s := 0) (m := i) (n := k + 1)).symm
  rw [headers, headersBefore, hrange, List.filter_append,
    List.filter_cons_of_pos (by simpa using h)]
  rfl

/-- The line after some others is a header if the run before it is even. -/
theorem isHeader_length_append {before : List Text} {line : Text} {rest : List Text} :
    IsHeader (before ++ line :: rest) before.length ↔
      line = header ∧ Even (runLength before) := by
  simp [IsHeader]

/-- The line after a header is none. -/
theorem not_isHeader_after {before : List Text} (h : Even (runLength before)) (next : Text)
    (rest : List Text) :
    ¬ IsHeader (before ++ header :: next :: rest) (before.length + 1) := by
  intro hnext
  -- seen from this line the header belongs to the lines before, and makes the run odd
  have hlines : before ++ header :: next :: rest = (before ++ [header]) ++ next :: rest := by simp
  have hlength : before.length + 1 = (before ++ [header]).length := by simp
  rw [hlines, hlength, isHeader_length_append, runLength_concat_header] at hnext
  exact Nat.even_add_one.1 hnext.2 h

/-! ### The name after a header -/

/-- The text on the line after position `i`, without the blanks around it and in upper case. -/
def nameAfter (lines : List Text) (i : Nat) : Text :=
  Text.upper (Text.trim (lines.getD (i + 1) []))

/-- There is a line after position `i`, and it has a character that is no blank. -/
def IsNamed (lines : List Text) (i : Nat) : Prop :=
  ∃ line ∈ lines[i + 1]?, ∃ c ∈ line, Text.isBlank c = false

theorem isNamed_iff_any {lines : List Text} {i : Nat} :
    (lines[i + 1]?.any fun line => line.any fun c => !Text.isBlank c) = true ↔
      IsNamed lines i := by
  simp [IsNamed, Option.any_eq_true, Option.mem_def]

instance (lines : List Text) (i : Nat) : Decidable (IsNamed lines i) :=
  decidable_of_iff _ isNamed_iff_any

/-- A header as the scan finds it: the number of its line, and the name on the next line if there is
one. -/
structure Entry where
  line : Nat
  name? : Option Text

/-- What the scan finds at position `i`. -/
def entryAt (lines : List Text) (i : Nat) : Entry := ⟨i + 1, lines[i + 1]?.bind nameOn⟩

theorem nameOn_eq_some_of_mem {line : Text} {c : Char} (hc : c ∈ line)
    (h : Text.isBlank c = false) : nameOn line = some (Text.upper (Text.trim line)) := by
  have hne : Text.trim line ≠ [] := by
    intro htrim
    rw [Text.trim_eq_nil_iff.1 htrim c hc] at h
    exact absurd h (by decide)
  rw [nameOn, if_neg hne]

theorem entryAt_of_isNamed {lines : List Text} {i : Nat} (h : IsNamed lines i) :
    entryAt lines i = ⟨i + 1, some (nameAfter lines i)⟩ := by
  obtain ⟨line, hline, c, hc, hblank⟩ := h
  have hget : lines[i + 1]? = some line := hline
  rw [entryAt, nameAfter, List.getD_eq_getElem?_getD, hget]
  simp [nameOn_eq_some_of_mem hc hblank]

theorem entryAt_of_not_isNamed {lines : List Text} {i : Nat} (h : ¬ IsNamed lines i) :
    entryAt lines i = ⟨i + 1, none⟩ := by
  have hnone : lines[i + 1]?.bind nameOn = none := by
    cases hget : lines[i + 1]? with
    | none => rfl
    | some line =>
        refine nameOn_eq_none_iff.2 fun c hc => ?_
        by_contra hblank
        exact h ⟨line, hget, c, hc, by simpa using hblank⟩
  rw [entryAt, hnone]

/-! ### Files that agree on their first lines -/

section Congr

variable {lines lines' : List Text} {n i : Nat}

theorem getElem?_congr (h : lines'.take n = lines.take n) (hi : i < n) :
    lines'[i]? = lines[i]? := by
  rw [← List.getElem?_take_of_lt hi, h, List.getElem?_take_of_lt hi]

/-- Whether a line is a header depends on the lines up to it alone. -/
theorem isHeader_congr (h : lines'.take n = lines.take n) (hi : i < n) :
    IsHeader lines' i ↔ IsHeader lines i := by
  have htake : lines'.take i = lines.take i := by
    have := congrArg (List.take i) h
    rwa [List.take_take, List.take_take, Nat.min_eq_left (Nat.le_of_lt hi)] at this
  rw [IsHeader, IsHeader, getElem?_congr h hi, htake]

theorem isNamed_congr (h : lines'.take n = lines.take n) (hi : i + 1 < n) :
    IsNamed lines' i ↔ IsNamed lines i := by
  rw [IsNamed, IsNamed, getElem?_congr h hi]

theorem nameAfter_congr (h : lines'.take n = lines.take n) (hi : i + 1 < n) :
    nameAfter lines' i = nameAfter lines i := by
  rw [nameAfter, nameAfter, List.getD_eq_getElem?_getD, List.getD_eq_getElem?_getD,
    getElem?_congr h hi]

end Congr

/-! ### The scan in two steps -/

/-- The headers that the scan finds, where `number` is the number of the first line. -/
def scan (number : Nat) : List Text → List Entry
  | [] => []
  | [line] => if line = header then [⟨number, none⟩] else []
  | line :: next :: rest =>
    if line = header then ⟨number, nameOn next⟩ :: scan (number + 2) rest
    else scan (number + 1) (next :: rest)

/-- A line that is not the header word is passed over. -/
theorem scan_cons_of_ne {line : Text} (h : line ≠ header) (number : Nat) (rest : List Text) :
    scan number (line :: rest) = scan (number + 1) rest := by
  cases rest with
  | nil => simp [scan, h]
  | cons next rest => rw [scan, if_neg h]

/-- The names of the entries, up to the first entry without a name or with a name that is known
already. -/
def collect (seen : List Text) : List Entry → Except Failure (List Text)
  | [] => .ok []
  | ⟨line, none⟩ :: _ => .error (.missingName line)
  | ⟨_, some name⟩ :: rest =>
    if seen.contains name then .error (.duplicateName name)
    else (collect (name :: seen) rest).map (name :: ·)

theorem collect_cons_of_mem {seen : List Text} {name : Text} (h : name ∈ seen) (line : Nat)
    (rest : List Entry) :
    collect seen (⟨line, some name⟩ :: rest) = .error (.duplicateName name) := by
  rw [collect, if_pos (List.contains_iff_mem.2 h)]

theorem collect_cons_of_not_mem {seen : List Text} {name : Text} (h : name ∉ seen) (line : Nat)
    (rest : List Entry) :
    collect seen (⟨line, some name⟩ :: rest) =
      (collect (name :: seen) rest).map (name :: ·) := by
  rw [collect, if_neg (List.contains_iff_mem.not.2 h)]

/-- The scan finds the headers and collects their names. -/
theorem namesFrom_eq_collect (seen : List Text) (number : Nat) (lines : List Text) :
    namesFrom seen number lines = collect seen (scan number lines) := by
  fun_induction namesFrom seen number lines with
  | case1 => rfl
  | case2 seen number => simp [scan, collect]
  | case3 seen number line hline => simp [scan, collect, hline]
  | case4 seen number next rest hname => simp [scan, collect, hname]
  | case5 seen number next rest name hname hseen => simp [scan, collect_cons_of_mem, hname, hseen]
  | case6 seen number next rest name hname hseen ih =>
      simp [scan, collect_cons_of_not_mem, hname, hseen, ih]
  | case7 seen number line next rest hline ih => simp [scan, hline, ih]

/-- The scan of the last lines of a file stops at the headers among them, if it begins where the run
of header words is even: there the next line is no name. -/
theorem scan_append (before : List Text) (h : Even (runLength before)) (lines : List Text) :
    scan (before.length + 1) lines =
      ((List.range' before.length lines.length).filter (IsHeader (before ++ lines) ·)).map
        (entryAt (before ++ lines)) := by
  generalize hnumber : before.length + 1 = number
  fun_induction scan number lines generalizing before with
  | case1 => rfl
  | case2 number =>
      have hheader : IsHeader (before ++ [header]) before.length :=
        isHeader_length_append.2 ⟨rfl, h⟩
      simp [hheader, entryAt, hnumber]
  | case3 number line hline =>
      have hheader : ¬ IsHeader (before ++ [line]) before.length :=
        fun hheader => hline (isHeader_length_append.1 hheader).1
      simp [hheader]
  | case4 number next rest ih =>
      have hheader : IsHeader (before ++ header :: next :: rest) before.length :=
        isHeader_length_append.2 ⟨rfl, h⟩
      have hnext := not_isHeader_after h next rest
      -- the scan goes on behind the name, where the run is even again
      have hrest := ih _ (even_runLength_concat_header h next) (by simp; omega)
      rw [hrest]
      have hlines : before ++ [header, next] ++ rest = before ++ header :: next :: rest := by simp
      have hentry : entryAt (before ++ header :: next :: rest) before.length =
          ⟨number, nameOn next⟩ := by
        subst hnumber
        simp [entryAt]
      simp [hlines, List.range'_succ, hheader, hnext, hentry]
  | case5 number line next rest hline ih =>
      have hheader : ¬ IsHeader (before ++ line :: next :: rest) before.length :=
        fun hheader => hline (isHeader_length_append.1 hheader).1
      -- any other line ends the run
      have hrun : Even (runLength (before ++ [line])) := by
        rw [runLength_concat_of_ne hline]
        exact Even.zero
      rw [ih _ hrun (by simp; omega)]
      have hlines : before ++ [line] ++ next :: rest = before ++ line :: next :: rest := by simp
      simp [hlines, List.range'_succ, hheader]

/-- **The scan stops at the headers**, in order, and finds the name on the line after each. -/
theorem scan_eq_map_headers (lines : List Text) :
    scan 1 lines = (headers lines).map (entryAt lines) := by
  have hscan := scan_append [] (by simp) lines
  simpa [headers, headersBefore, List.range_eq_range'] using hscan

/-- The names of a text are collected from its headers. -/
theorem names_eq_collect_headers (t : Text) :
    names t = collect [] ((headers (textLines t)).map (entryAt (textLines t))) := by
  rw [names, namesFrom_eq_collect, logicalLines_eq_textLines, scan_eq_map_headers]

end Definitions

end OpcodeCatalog
