import Mathlib.Data.List.Nodup
import Mathlib.Data.Nat.Find
import Mathlib.Order.Bounds.Basic
import OpcodeCatalog.Proofs.Definitions.Headers

/-!
# Which definition files are accepted

A file is accepted exactly if every header has a name after it and no two of the names are equal.
Otherwise the first header at fault decides what is reported, and nothing after the name of that
header matters.

Main definitions:

* `Definitions.IsFaulty` — a header without a name, or with the name of a header before it;
* `Definitions.faultAt` — the failure that such a header gives.

Main results:

* `Definitions.collect_eq_ok_iff`, `Definitions.collect_append_of_ok` — when names are collected,
  and how collecting goes on after names that were;
* `Definitions.collect_entries_eq_ok_iff` — **the accepted headers and their names**;
* `Definitions.names_eq_error_of_isLeast`, `Definitions.exists_isLeast_isFaulty` — **the first
  faulty header decides the failure**.
-/

set_option autoImplicit false

namespace OpcodeCatalog

namespace Definitions

/-! ### Collecting names -/

theorem map_cons_eq_ok_iff {result : Except Failure (List Text)} {name first : Text}
    {tail : List Text} :
    result.map (name :: ·) = .ok (first :: tail) ↔ name = first ∧ result = .ok tail := by
  cases result <;> simp [Except.map]

/-- Names are collected if every entry has one and each is new. -/
theorem collect_eq_ok_iff {seen names : List Text} {entries : List Entry} :
    collect seen entries = .ok names ↔
      entries.map Entry.name? = names.map some ∧ names.Nodup ∧ ∀ name ∈ names, name ∉ seen := by
  fun_induction collect seen entries generalizing names with
  | case1 seen =>
      constructor
      · intro h
        rw [← Except.ok.inj h]
        simp
      · rintro ⟨hnames, -, -⟩
        have hnil : names = [] := by simpa using hnames.symm
        rw [hnil]
  | case2 seen line rest =>
      constructor
      · intro h
        simp at h
      · rintro ⟨hnames, -, -⟩
        cases names <;> simp at hnames
  | case3 seen line name rest hseen =>
      constructor
      · intro h
        simp at h
      · rintro ⟨hnames, -, hnew⟩
        obtain ⟨tail, rfl⟩ : ∃ tail, names = name :: tail := by
          cases names with
          | nil => simp at hnames
          | cons first tail =>
              simp only [List.map_cons, List.cons.injEq, Option.some.injEq] at hnames
              exact ⟨tail, by rw [hnames.1]⟩
        exact absurd (List.contains_iff_mem.1 hseen) (hnew name (List.mem_cons_self ..))
  | case4 seen line name rest hseen ih =>
      cases names with
      | nil => cases hrest : collect (name :: seen) rest <;> simp [Except.map]
      | cons first tail =>
          -- a name is new for the rest exactly if the rest does not have it again
          rw [map_cons_eq_ok_iff, ih]
          constructor
          · rintro ⟨rfl, hnames, hnodup, hnew⟩
            have hfirst : name ∉ tail := fun hmem => hnew name hmem (List.mem_cons_self ..)
            refine ⟨by simp [hnames], List.nodup_cons.2 ⟨hfirst, hnodup⟩, ?_⟩
            intro other hother
            rcases List.mem_cons.1 hother with rfl | hother
            · exact List.contains_iff_mem.not.1 hseen
            · exact fun hmem => hnew other hother (List.mem_cons_of_mem _ hmem)
          · rintro ⟨hnames, hnodup, hnew⟩
            simp only [List.map_cons, List.cons.injEq, Option.some.injEq] at hnames
            obtain ⟨rfl, hnames⟩ := hnames
            rw [List.nodup_cons] at hnodup
            refine ⟨rfl, hnames, hnodup.2, ?_⟩
            intro other hother hmem
            rcases List.mem_cons.1 hmem with rfl | hmem
            · exact hnodup.1 hother
            · exact hnew other (List.mem_cons_of_mem _ hother) hmem

/-- Collecting goes on after names that were collected, with those names known. -/
theorem collect_append_of_ok {seen names : List Text} {entries : List Entry}
    (h : collect seen entries = .ok names) (rest : List Entry) :
    collect seen (entries ++ rest) =
      (collect (names.reverse ++ seen) rest).map (names ++ ·) := by
  fun_induction collect seen entries generalizing names with
  | case1 seen =>
      rw [← Except.ok.inj h]
      cases hrest : collect seen rest <;> simp [Except.map, hrest]
  | case2 seen line rest => simp at h
  | case3 seen line name rest hseen => simp at h
  | case4 seen line name entries hseen ih =>
      cases hentries : collect (name :: seen) entries with
      | error failure => simp [hentries, Except.map] at h
      | ok tail =>
          have hnames : names = name :: tail := by simpa [hentries, Except.map] using h.symm
          rw [List.cons_append, collect, if_neg hseen, ih hentries, hnames]
          simp only [List.reverse_cons, List.append_assoc, List.singleton_append]
          cases collect (tail.reverse ++ name :: seen) rest <;> simp [Except.map]

/-! ### The accepted files -/

/-- What the scan finds at some headers has the given names exactly if each of the headers has a name
and the names are those. -/
theorem name?_entries_eq_iff {lines names : List Text} {positions : List Nat} :
    (positions.map (entryAt lines)).map Entry.name? = names.map some ↔
      (∀ i ∈ positions, IsNamed lines i) ∧ names = positions.map (nameAfter lines) := by
  induction positions generalizing names with
  | nil => cases names <;> simp
  | cons i positions ih =>
      by_cases hnamed : IsNamed lines i
      · have hentry := congrArg Entry.name? (entryAt_of_isNamed hnamed)
        cases names with
        | nil => simp
        | cons name names =>
            simp only [List.map_cons, List.cons.injEq, hentry, Option.some.injEq, ih,
              List.forall_mem_cons]
            constructor
            · rintro ⟨hname, hall, hnames⟩
              exact ⟨⟨hnamed, hall⟩, hname.symm, hnames⟩
            · rintro ⟨⟨-, hall⟩, hname, hnames⟩
              exact ⟨hname.symm, hall, hnames⟩
      · have hentry := congrArg Entry.name? (entryAt_of_not_isNamed hnamed)
        constructor
        · intro h
          cases names with
          | nil => simp at h
          | cons name names => simp [hentry] at h
        · rintro ⟨hall, -⟩
          exact absurd (hall i (List.mem_cons_self ..)) hnamed

/-- The names that some headers give are collected if each header has one and they differ. -/
theorem collect_entries_eq_ok_iff {lines names : List Text} {positions : List Nat}
    (h : positions.Nodup) :
    collect [] (positions.map (entryAt lines)) = .ok names ↔
      (∀ i ∈ positions, IsNamed lines i) ∧
        (∀ i ∈ positions, ∀ j ∈ positions, nameAfter lines i = nameAfter lines j → i = j) ∧
        names = positions.map (nameAfter lines) := by
  rw [collect_eq_ok_iff, name?_entries_eq_iff, and_assoc]
  refine and_congr_right fun _ => ?_
  constructor
  · rintro ⟨rfl, hnodup, -⟩
    exact ⟨fun i hi j hj => List.inj_on_of_nodup_map hnodup hi hj, rfl⟩
  · rintro ⟨hinj, rfl⟩
    exact ⟨rfl, (List.nodup_map_iff_inj_on h).2 hinj, fun name _ => List.not_mem_nil⟩

/-- **The accepted files and their names**: every header has a line with a name after it, the names
after two headers differ, and the names are those of the headers in the order of the lines. -/
theorem names_eq_ok_iff (t : Text) (ns : List Text) :
    names t = .ok ns ↔
      (∀ i, IsHeader (textLines t) i → IsNamed (textLines t) i) ∧
        (∀ i j, IsHeader (textLines t) i → IsHeader (textLines t) j →
          nameAfter (textLines t) i = nameAfter (textLines t) j → i = j) ∧
        ns = (headers (textLines t)).map (nameAfter (textLines t)) := by
  rw [names_eq_collect_headers, collect_entries_eq_ok_iff (nodup_headers _)]
  simp only [mem_headers]
  constructor
  · rintro ⟨hnamed, hinj, hns⟩
    exact ⟨hnamed, fun i j hi hj => hinj i hi j hj, hns⟩
  · rintro ⟨hnamed, hinj, hns⟩
    exact ⟨hnamed, fun i hi j hj => hinj i j hi hj, hns⟩

/-- A header word in the place of a name is a name. -/
example : names "DEFINE_INSN\nDEFINE_INSN\nDEFINE_INSN\r\r\n nop".toList =
    .ok ["DEFINE_INSN".toList, "NOP".toList] := by decide +kernel

/-! ### The first faulty header -/

/-- The header at position `i` has no name, or the name of a header before it. -/
def IsFaulty (lines : List Text) (i : Nat) : Prop :=
  IsHeader lines i ∧
    (¬ IsNamed lines i ∨ ∃ j < i, IsHeader lines j ∧ nameAfter lines j = nameAfter lines i)

instance (lines : List Text) (i : Nat) : Decidable (IsFaulty lines i) :=
  inferInstanceAs (Decidable (_ ∧ (_ ∨ ∃ j < i, _)))

/-- What the header at position `i` is reported for, with the number of its own line. -/
def faultAt (lines : List Text) (i : Nat) : Failure :=
  if IsNamed lines i then .duplicateName (nameAfter lines i) else .missingName (i + 1)

/-- The headers before a position give their names if none of them is faulty. -/
theorem collect_of_forall_not_isFaulty (lines : List Text) {n : Nat}
    (h : ∀ i < n, ¬ IsFaulty lines i) :
    collect [] ((headersBefore lines n).map (entryAt lines)) =
      .ok ((headersBefore lines n).map (nameAfter lines)) := by
  refine (collect_entries_eq_ok_iff (nodup_headersBefore lines n)).2 ⟨?_, ?_, rfl⟩
  · intro i hi
    obtain ⟨hlt, hheader⟩ := mem_headersBefore.1 hi
    by_contra hnamed
    exact h i hlt ⟨hheader, Or.inl hnamed⟩
  · intro i hi j hj hname
    obtain ⟨hin, hiheader⟩ := mem_headersBefore.1 hi
    obtain ⟨hjn, hjheader⟩ := mem_headersBefore.1 hj
    -- of two headers with one name the later one would be faulty
    rcases Nat.lt_trichotomy i j with hlt | heq | hgt
    · exact absurd ⟨hjheader, Or.inr ⟨i, hlt, hiheader, hname⟩⟩ (h j hjn)
    · exact heq
    · exact absurd ⟨hiheader, Or.inr ⟨j, hgt, hjheader, hname.symm⟩⟩ (h i hin)

/-- A faulty header after headers that give their names ends the collecting. -/
theorem collect_cons_of_isFaulty {lines : List Text} {i : Nat} (h : IsFaulty lines i)
    (rest : List Entry) :
    collect ((headersBefore lines i).map (nameAfter lines)).reverse
      (entryAt lines i :: rest) = .error (faultAt lines i) := by
  by_cases hnamed : IsNamed lines i
  · obtain hunnamed | ⟨j, hlt, hheader, hname⟩ := h.2
    · exact absurd hnamed hunnamed
    · have hseen : nameAfter lines i ∈
          ((headersBefore lines i).map (nameAfter lines)).reverse := by
        rw [List.mem_reverse, ← hname]
        exact List.mem_map_of_mem (mem_headersBefore.2 ⟨hlt, hheader⟩)
      rw [entryAt_of_isNamed hnamed, collect_cons_of_mem hseen, faultAt, if_pos hnamed]
  · rw [entryAt_of_not_isNamed hnamed, collect, faultAt, if_neg hnamed]

/-- The failure is that of the first faulty header. -/
theorem names_eq_error_of_isLeast {t : Text} {i : Nat}
    (h : IsLeast {i | IsFaulty (textLines t) i} i) :
    names t = .error (faultAt (textLines t) i) := by
  obtain ⟨rest, hheaders⟩ := exists_headers_eq_append h.1.1
  have hbefore := collect_of_forall_not_isFaulty (textLines t) (n := i) fun j hj hfault =>
    absurd (h.2 hfault) (Nat.not_le.2 hj)
  rw [names_eq_collect_headers, hheaders, List.map_append, collect_append_of_ok hbefore,
    List.append_nil, List.map_cons, collect_cons_of_isFaulty h.1]
  rfl

/-- A file that is refused has a first faulty header, and is refused for it. -/
theorem exists_isLeast_isFaulty {t : Text} {failure : Failure} (h : names t = .error failure) :
    ∃ i, IsLeast {i | IsFaulty (textLines t) i} i ∧ faultAt (textLines t) i = failure := by
  have hex : ∃ i, IsFaulty (textLines t) i := by
    by_contra hnone
    have hok := collect_of_forall_not_isFaulty (textLines t) (n := (textLines t).length)
      fun i _ hfault => hnone ⟨i, hfault⟩
    rw [names_eq_collect_headers, headers, hok] at h
    simp at h
  have hleast : IsLeast {i | IsFaulty (textLines t) i} (Nat.find hex) :=
    ⟨Nat.find_spec hex, fun _ hj => Nat.find_min' hex hj⟩
  rw [names_eq_error_of_isLeast hleast] at h
  exact ⟨_, hleast, Except.error.inj h⟩

/-- Whether a header is faulty, and what it is reported for, depends on the lines up to the one
after it. -/
theorem isFaulty_congr {lines lines' : List Text} {n i : Nat} (h : lines'.take n = lines.take n)
    (hi : i + 1 < n) :
    (IsFaulty lines' i ↔ IsFaulty lines i) ∧ faultAt lines' i = faultAt lines i := by
  have hnamed := isNamed_congr h hi
  have hname := nameAfter_congr h hi
  have hbefore : (∃ j < i, IsHeader lines' j ∧ nameAfter lines' j = nameAfter lines' i) ↔
      ∃ j < i, IsHeader lines j ∧ nameAfter lines j = nameAfter lines i := by
    refine exists_congr fun j => and_congr_right fun hj => ?_
    rw [isHeader_congr h (by omega), nameAfter_congr h (by omega), hname]
  constructor
  · rw [IsFaulty, IsFaulty, isHeader_congr h (by omega), hnamed, hbefore]
  · simp only [faultAt, hnamed, hname]

/-- The first faulty header is the same in all files that agree up to its name. -/
theorem isLeast_isFaulty_congr {lines lines' : List Text} {i : Nat}
    (h : IsLeast {i | IsFaulty lines i} i) (htake : lines'.take (i + 2) = lines.take (i + 2)) :
    IsLeast {i | IsFaulty lines' i} i := by
  constructor
  · exact (isFaulty_congr htake (by omega)).1.2 h.1
  · intro j hj
    by_contra hlt
    exact hlt (h.2 ((isFaulty_congr htake (by omega)).1.1 hj))

/-- **The first faulty header decides the failure.**  A file is refused exactly if one of its headers
is faulty.  The first of them in the order of the lines is the one that is reported, and it stays so
whatever follows its name. -/
theorem names_error_iff_first_fault (t : Text) :
    ((∃ failure, names t = .error failure) ↔ ∃ i, IsFaulty (textLines t) i) ∧
      ∀ i, IsLeast {i | IsFaulty (textLines t) i} i →
        ∀ t', (textLines t').take (i + 2) = (textLines t).take (i + 2) →
          names t' = .error (faultAt (textLines t) i) := by
  constructor
  · constructor
    · rintro ⟨failure, hfailure⟩
      by_contra hnone
      have hok := collect_of_forall_not_isFaulty (textLines t) (n := (textLines t).length)
        fun i _ hfault => hnone ⟨i, hfault⟩
      rw [names_eq_collect_headers, headers, hok] at hfailure
      simp at hfailure
    · rintro ⟨i, hi⟩
      have hex : ∃ i, IsFaulty (textLines t) i := ⟨i, hi⟩
      have hleast : IsLeast {i | IsFaulty (textLines t) i} (Nat.find hex) :=
        ⟨Nat.find_spec hex, fun _ hj => Nat.find_min' hex hj⟩
      exact ⟨_, names_eq_error_of_isLeast hleast⟩
  · intro i hi t' htake
    rw [names_eq_error_of_isLeast (isLeast_isFaulty_congr hi htake),
      (isFaulty_congr htake (by omega)).2]

/-- Two headers whose names are one in upper case, and behind them a header without a name. -/
def collision : Text :=
  "DEFINE_INSN\r\nstraße\n\nDEFINE_INSN\n STRASSE\r\r\nDEFINE_INSN".toList

/-- The collision is reported, also if something else follows it. -/
theorem names_error_collision :
    IsLeast {i | IsFaulty (textLines collision) i} 3 ∧
      names "DEFINE_INSN\nstraße\r\n\nDEFINE_INSN\n STRASSE\n/* end */".toList =
        .error (.duplicateName "STRASSE".toList) := by
  have hleast : IsLeast {i | IsFaulty (textLines collision) i} 3 := by
    have hfaulty : IsFaulty (textLines collision) 3 := by decide +kernel
    have hbefore : ∀ i < 3, ¬ IsFaulty (textLines collision) i := by decide +kernel
    exact ⟨hfaulty, fun i hi => Nat.le_of_not_lt fun hlt => hbefore i hlt hi⟩
  have hfault : faultAt (textLines collision) 3 = .duplicateName "STRASSE".toList := by
    decide +kernel
  refine ⟨hleast, hfault ▸ ?_⟩
  exact (names_error_iff_first_fault collision).2 3 hleast _ (by decide +kernel)

end Definitions

end OpcodeCatalog
