import Mathlib.Data.List.FinRange
import OpcodeCatalog.Proofs.Listing.Output

/-!
# Listings by position

A definition file becomes a listing by way of a table with 256 codes, most of them unused.  The same
listing is made here without a table: the instructions are numbered as they come, with numbers that
know no upper bound, and each gives its lines.

Main definitions:

* `Listing.linesAt` — the lines of a name at a position;
* `Listing.byPosition` — the lines of a list of names.

Main results:

* `Listing.map_ofTable_ofNames` — **the lines of a table made from names are those by position**;
* `Listing.snd_lt_of_mem_byPosition` — no line bears a number beyond the names.
-/

set_option autoImplicit false

namespace OpcodeCatalog

namespace Listing

/-! ### Lines without a table -/

/-- The lines of a name: none if it begins with `<`, the name without its last two characters and
then the name if it ends in `+0`, and the name alone otherwise. -/
def linesAt (name : Text) (position : Nat) : List (Text × Nat) :=
  if name.head? = some '<' then []
  else if ['+', '0'] <:+ name then [(name.take (name.length - 2), position), (name, position)]
  else [(name, position)]

/-- The lines of the names, numbered from zero. -/
def byPosition (names : List Text) : List (Text × Nat) :=
  names.zipIdx.flatMap fun entry => linesAt entry.1 entry.2

/-- A hidden name has its number all the same, and only one ending is removed. -/
example : byPosition ["<6>".toList, "SLICE+0".toList, "+0".toList, "X+0+0".toList] =
    [("SLICE".toList, 1), ("SLICE+0".toList, 1), ([], 2), ("+0".toList, 2),
      ("X+0".toList, 3), ("X+0+0".toList, 3)] := by decide

/-- A line with its code as a number. -/
def Line.numbered (line : Line) : Text × Nat := (line.name, line.code.val)

/-- The lines of a code are the lines at the position of that number. -/
theorem map_numbered_ofEntry (code : Code) (name : Text) :
    (ofEntry code name).map Line.numbered = linesAt name code.val := by
  have hhidden : isHidden name = true ↔ name.head? = some '<' := by
    simp [isHidden, placeholderMark]
  unfold ofEntry linesAt
  by_cases hmark : name.head? = some '<'
  · rw [if_pos (hhidden.2 hmark), if_pos hmark]
    rfl
  · rw [if_neg (hhidden.not.2 hmark), if_neg hmark]
    cases hstrip : Text.stripSuffix? plainEnding name with
    | none =>
        have hend : ¬ ['+', '0'] <:+ name := by
          rintro ⟨stem, hstem⟩
          have hsome : Text.stripSuffix? plainEnding name = some stem :=
            Text.stripSuffix?_eq_some_iff.2 hstem.symm
          rw [hstrip] at hsome
          exact absurd hsome (by simp)
        rw [if_neg hend]
        rfl
    | some stem =>
        have hname : name = stem ++ ['+', '0'] := Text.stripSuffix?_eq_some_iff.1 hstrip
        have hend : ['+', '0'] <:+ name := ⟨stem, hname.symm⟩
        have hstem : name.take (name.length - 2) = stem := by simp [hname]
        rw [if_pos hend, hstem]
        rfl

@[simp] theorem linesAt_placeholder (c : Code) (position : Nat) :
    linesAt (placeholder c) position = [] := rfl

/-! ### All codes of a table -/

/-- Going through positions up to some number beyond the end of a list is going through the list. -/
theorem flatMap_zipIdx_eq_flatMap_range {α β : Type} (f : α → Nat → List β) (xs : List α)
    {n : Nat} (h : xs.length ≤ n) (start : Nat) :
    (xs.zipIdx start).flatMap (fun entry => f entry.1 entry.2) =
      (List.range n).flatMap fun i => xs[i]?.elim [] fun x => f x (start + i) := by
  -- the start is generalised because the tail is numbered from one further on
  induction xs generalizing n start with
  | nil => simp
  | cons x xs ih =>
      obtain ⟨n, rfl⟩ : ∃ m, n = m + 1 := ⟨n - 1, by simp at h; omega⟩
      rw [List.zipIdx_cons, List.flatMap_cons, ih (by simpa using h), List.range_succ_eq_map,
        List.flatMap_cons, List.flatMap_map]
      simp [Nat.add_comm, Nat.add_left_comm]

/-- **The lines of a table made from names are those by position**: the codes behind the last name
give none. -/
theorem map_ofTable_ofNames {names : List Text} {table : OpcodeTable}
    (h : OpcodeTable.ofNames names = .ok table) :
    (ofTable table).map Line.numbered = byPosition names := by
  have hlength : names.length ≤ 256 := OpcodeTable.isOk_ofNames_iff.1 ⟨table, h⟩
  have hcode : ∀ c : Code, linesAt (table.name c) c.val =
      names[c.val]?.elim [] fun name => linesAt name (0 + c.val) := by
    intro c
    rw [OpcodeTable.name_ofNames h]
    cases names[c.val]? <;> simp
  calc
    (ofTable table).map Line.numbered
      = (List.finRange 256).flatMap fun c => linesAt (table.name c) c.val := by
        simp [ofTable, OpcodeTable.entries, List.map_flatMap, List.flatMap_map,
          map_numbered_ofEntry]
    _ = ((List.finRange 256).map Fin.val).flatMap fun i =>
          names[i]?.elim [] fun name => linesAt name (0 + i) := by
        rw [List.flatMap_map]
        exact List.flatMap_congr fun c _ => hcode c
    _ = byPosition names := by
        rw [List.map_coe_finRange_eq_range, byPosition,
          flatMap_zipIdx_eq_flatMap_range linesAt names hlength]

theorem snd_of_mem_linesAt {name : Text} {position : Nat} {line : Text × Nat}
    (h : line ∈ linesAt name position) : line.2 = position := by
  unfold linesAt at h
  split at h
  · simp at h
  · split at h
    · simp only [List.mem_cons, List.not_mem_nil, or_false] at h
      rcases h with rfl | rfl <;> rfl
    · rw [List.mem_singleton.1 h]

/-- Every line bears the position of a name. -/
theorem snd_lt_of_mem_byPosition {names : List Text} {line : Text × Nat}
    (h : line ∈ byPosition names) : line.2 < names.length := by
  obtain ⟨⟨name, position⟩, hentry, hline⟩ := List.mem_flatMap.1 h
  rw [snd_of_mem_linesAt hline]
  have hposition := List.snd_lt_of_mem_zipIdx hentry
  simpa using hposition

/-! ### From a definition file to its listing -/

/-- A sink without limits takes a whole listing. -/
theorem write_unlimited (format : Format) (lines : List Line) :
    (write .unlimited format lines).taken = Utf8.encode (render format lines) ∧
      (write .unlimited format lines).failure = none := by
  have hdelivers := delivers_write .unlimited format lines
  exact ⟨hdelivers.taken_eq, hdelivers.failure_eq⟩

theorem ofNames_of_le {names : List Text} (h : names.length ≤ 256) :
    ∃ lines, ofNames names = .ok lines ∧ lines.map Line.numbered = byPosition names := by
  obtain ⟨table, htable⟩ := OpcodeTable.isOk_ofNames_iff.2 h
  exact ⟨ofTable table, by simp [ofNames, htable], map_ofTable_ofNames htable⟩

theorem ofNames_of_lt {names : List Text} (h : 256 < names.length) :
    ofNames names = .error (.tooManyNames names.length) := by
  rw [ofNames, OpcodeTable.ofNames_of_lt h]

/-- **A definition file is listed by position.**  Its first fault comes before the number of its
instructions; with at most 256 instructions the listing is made of the lines by position and nothing
else, and a sink without limits takes all of it. -/
theorem renderDefinitions_by_position (format : Format) (t : Text) :
    match Definitions.names t with
    | .error failure => renderDefinitions format t = .error failure
    | .ok names =>
      if 256 < names.length then
        renderDefinitions format t = .error (.tooManyNames names.length)
      else
        ∃ lines : List Line,
          lines.map Line.numbered = byPosition names ∧
          (∀ line ∈ lines, line.code.val < names.length) ∧
          ofDefinitions t = .ok lines ∧
          renderDefinitions format t = .ok (render format lines) ∧
          (write .unlimited format lines).taken = Utf8.encode (render format lines) ∧
          (write .unlimited format lines).failure = none := by
  cases hnames : Definitions.names t with
  | error failure => simp [renderDefinitions, ofDefinitions, hnames]
  | ok names =>
      have hchain : ofDefinitions t = ofNames names := by simp [ofDefinitions, hnames]
      simp only
      by_cases hlength : 256 < names.length
      · rw [if_pos hlength]
        simp [renderDefinitions, hchain, ofNames_of_lt hlength]
      · rw [if_neg hlength]
        obtain ⟨lines, hlines, hposition⟩ := ofNames_of_le (Nat.not_lt.1 hlength)
        refine ⟨lines, hposition, ?_, hchain.trans hlines, ?_, write_unlimited format lines⟩
        · intro line hline
          have hmem : line.numbered ∈ byPosition names :=
            hposition ▸ List.mem_map_of_mem hline
          exact snd_lt_of_mem_byPosition hmem
        · simp [renderDefinitions, hchain, hlines]

end Listing

end OpcodeCatalog
