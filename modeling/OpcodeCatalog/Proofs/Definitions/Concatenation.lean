import OpcodeCatalog.Proofs.Definitions.Grammar

/-!
# One definition file behind another

A definition file that ends with a line feed can have another one put behind it.  If the first one
is accepted, no header waits for its name where the second begins, so the scan goes through the
second as it would on its own.  Two things differ: the lines have higher numbers, and the names of
the first file are known, so that the first name to occur again is reported as a duplicate.

Main definitions:

* `Definitions.Entry.shift` — what the scan finds, some lines further down;
* `Definitions.unlessKnown` — a result, unless one of the names is known;
* `Definitions.definedBefore` — the names that a file defines before a line.

Main results:

* `Definitions.scan_append_of_named` — the scan of lines behind others begins afresh;
* `Definitions.collect_of_known` — what is collected if more names are known;
* `Definitions.names_append_of_isLeast`, `Definitions.names_append_of_duplicate` — a first faulty
  header in the second file, and a duplicate in the first;
* `Definitions.names_append_eq` — **what two files define together**.
-/

set_option autoImplicit false

namespace OpcodeCatalog

namespace Definitions

/-! ### The scan of lines behind others -/

theorem textLines_append {s : Text} (h : Text.EndsLine s) (t : Text) :
    textLines (s ++ t) = textLines s ++ textLines t := by
  simp only [← logicalLines_eq_textLines, logicalLines, Text.lines_append h, List.map_append]

theorem length_textLines {s : Text} (h : Text.EndsLine s) :
    (textLines s).length = s.count '\n' := by
  rw [← logicalLines_eq_textLines, logicalLines, List.length_map, Text.length_lines h]

/-- An entry as it is found behind `k` more lines. -/
def Entry.shift (k : Nat) (entry : Entry) : Entry := { entry with line := entry.line + k }

/-- The numbering of the lines begins where it is told to. -/
theorem scan_add (number k : Nat) (lines : List Text) :
    scan (number + k) lines = (scan number lines).map (Entry.shift k) := by
  fun_induction scan number lines with
  | case1 => rfl
  | case2 number => simp [scan, Entry.shift]
  | case3 number line hline => simp [scan, hline]
  | case4 number next rest ih =>
      rw [scan, if_pos rfl, List.map_cons, ← ih, Nat.add_right_comm]
      rfl
  | case5 number line next rest hline ih =>
      rw [scan, if_neg hline, ← ih, Nat.add_right_comm]

/-- If the last line is not a header, the scan of lines behind it begins afresh. -/
theorem scan_append_of_named {number : Nat} {lines : List Text}
    (h : ∀ entry ∈ scan number lines, entry.name? ≠ none) (more : List Text) :
    scan number (lines ++ more) = scan number lines ++ scan (number + lines.length) more := by
  fun_induction scan number lines with
  | case1 => rfl
  | case2 number =>
      exact absurd rfl (h _ (List.mem_singleton_self _))
  | case3 number line hline =>
      rw [List.singleton_append, scan_cons_of_ne hline, List.nil_append, List.length_singleton]
  | case4 number next rest ih =>
      have hrest := ih fun entry hentry => h entry (List.mem_cons_of_mem _ hentry)
      have hnumber : number + 2 + rest.length = number + (header :: next :: rest).length := by
        simp only [List.length_cons]
        omega
      rw [List.cons_append, List.cons_append, scan, if_pos rfl, hrest, List.cons_append, hnumber]
  | case5 number line next rest hline ih =>
      have hnumber :
          number + 1 + (next :: rest).length = number + (line :: next :: rest).length := by
        simp only [List.length_cons]
        omega
      rw [List.cons_append, scan_cons_of_ne hline, ih h, hnumber]

/-! ### Names that are known already -/

/-- The result of collecting `found` where `known` are known as well: the first of the names found
that is known is a duplicate, and comes before whatever else the result is. -/
def unlessKnown (known found : List Text) (result : Except Failure (List Text)) :
    Except Failure (List Text) :=
  match found.find? known.contains with
  | some name => .error (.duplicateName name)
  | none => result

@[simp] theorem unlessKnown_nil (known : List Text) (result : Except Failure (List Text)) :
    unlessKnown known [] result = result := rfl

theorem unlessKnown_cons_of_mem {known : List Text} {name : Text} (h : name ∈ known)
    (found : List Text) (result : Except Failure (List Text)) :
    unlessKnown known (name :: found) result = .error (.duplicateName name) := by
  simp [unlessKnown, h]

theorem unlessKnown_cons_of_not_mem {known : List Text} {name : Text} (h : name ∉ known)
    (found : List Text) (result : Except Failure (List Text)) :
    unlessKnown known (name :: found) result = unlessKnown known found result := by
  simp [unlessKnown, h]

theorem map_unlessKnown (known found : List Text) (result : Except Failure (List Text))
    (f : List Text → List Text) :
    (unlessKnown known found result).map f = unlessKnown known found (result.map f) := by
  unfold unlessKnown
  cases found.find? known.contains <;> rfl

theorem unlessKnown_concat_self (known found : List Text) (name : Text) :
    unlessKnown known (found ++ [name]) (.error (.duplicateName name)) =
      unlessKnown known found (.error (.duplicateName name)) := by
  unfold unlessKnown
  rw [List.find?_append]
  cases hfound : found.find? known.contains with
  | some first => rfl
  | none =>
      by_cases hname : name ∈ known <;> simp [hname]

/-- Collecting with more names known, where it succeeds without them.  The first of the names found
that is among them ends the collecting, and else it goes on with all of the names. -/
theorem collect_of_known {seen seen' known names : List Text} {entries : List Entry}
    (hseen : ∀ name, name ∈ seen' ↔ name ∈ seen ∨ name ∈ known)
    (h : collect seen entries = .ok names) (rest : List Entry) :
    collect seen' (entries ++ rest) =
      unlessKnown known names ((collect (names.reverse ++ seen') rest).map (names ++ ·)) := by
  fun_induction collect seen entries generalizing seen' names with
  | case1 seen =>
      rw [← Except.ok.inj h]
      cases hrest : collect seen' rest <;> simp [Except.map, hrest]
  | case2 seen line rest => simp at h
  | case3 seen line name rest hname => simp at h
  | case4 seen line name entries hname ih =>
      cases hentries : collect (name :: seen) entries with
      | error failure => simp [hentries, Except.map] at h
      | ok tail =>
          have hnames : names = name :: tail := by simpa [hentries, Except.map] using h.symm
          rw [hnames, List.cons_append]
          -- the name is new among the names seen, so only the known ones can refuse it
          by_cases hknown : name ∈ known
          · rw [unlessKnown_cons_of_mem hknown,
              collect_cons_of_mem ((hseen name).2 (Or.inr hknown))]
          · have hnew : name ∉ seen' := fun hmem =>
              (hseen name).1 hmem |>.elim (List.contains_iff_mem.not.1 hname) hknown
            have hmore : ∀ other, other ∈ name :: seen' ↔ other ∈ name :: seen ∨ other ∈ known := by
              intro other
              rw [List.mem_cons, List.mem_cons, hseen, or_assoc]
            rw [unlessKnown_cons_of_not_mem hknown, collect_cons_of_not_mem hnew,
              ih hmore hentries, map_unlessKnown]
            simp only [List.reverse_cons, List.append_assoc, List.singleton_append]
            cases collect (tail.reverse ++ name :: seen') rest <;> rfl

/-! ### What is defined before a line -/

/-- The names defined before the line of this number. -/
def definedBefore (t : Text) (number : Nat) : List Text :=
  (headersBefore (textLines t) (number - 1)).map (nameAfter (textLines t))

theorem headersBefore_succ_of_isHeader {lines : List Text} {i : Nat} (h : IsHeader lines i) :
    headersBefore lines (i + 1) = headersBefore lines i ++ [i] := by
  simp [headersBefore, List.range_succ, h]

theorem definedBefore_add_two {t : Text} {i : Nat} (h : IsHeader (textLines t) i) :
    definedBefore t (i + 2) = definedBefore t (i + 1) ++ [nameAfter (textLines t) i] := by
  simp [definedBefore, headersBefore_succ_of_isHeader h]

/-- A faulty header with a name has the name of a header before it. -/
theorem name_mem_definedBefore {t : Text} {i : Nat} (h : IsFaulty (textLines t) i)
    (hnamed : IsNamed (textLines t) i) :
    nameAfter (textLines t) i ∈ definedBefore t (i + 1) := by
  obtain hunnamed | ⟨j, hlt, hheader, hname⟩ := h.2
  · exact absurd hnamed hunnamed
  · rw [← hname]
    exact List.mem_map_of_mem (mem_headersBefore.2 ⟨hlt, hheader⟩)

/-- The names before the first faulty header are collected. -/
theorem collect_definedBefore {t : Text} {i : Nat}
    (h : IsLeast {i | IsFaulty (textLines t) i} i) :
    collect [] ((headersBefore (textLines t) i).map (entryAt (textLines t))) =
      .ok (definedBefore t (i + 1)) :=
  collect_of_forall_not_isFaulty (textLines t) fun _ hj hfault =>
    absurd (h.2 hfault) (Nat.not_le.2 hj)

/-! ### A file behind another -/

variable {a b : Text} {xs : List Text}

/-- Shifting entries does not change what is collected from them. -/
theorem collect_map_shift_of_ok {seen names : List Text} {entries : List Entry} (k : Nat)
    (h : collect seen entries = .ok names) :
    collect seen (entries.map (Entry.shift k)) = .ok names := by
  rw [collect_eq_ok_iff] at h ⊢
  rwa [List.map_map]

/-- Behind an accepted file of whole lines the headers of a file are found further down, and their
names are collected with those of the accepted file known. -/
theorem names_append_eq_collect (ha : Text.EndsLine a) (h : names a = .ok xs) (b : Text) :
    names (a ++ b) = (collect xs.reverse ((scan 1 (textLines b)).map
      (Entry.shift (a.count '\n')))).map (xs ++ ·) := by
  rw [names, namesFrom_eq_collect, logicalLines_eq_textLines] at h
  have hnamed : ∀ entry ∈ scan 1 (textLines a), entry.name? ≠ none := by
    intro entry hentry hnone
    have hmem := List.mem_map_of_mem (f := Entry.name?) hentry
    rw [(collect_eq_ok_iff.1 h).1, hnone] at hmem
    simp at hmem
  rw [names, namesFrom_eq_collect, logicalLines_eq_textLines, textLines_append ha,
    scan_append_of_named hnamed, collect_append_of_ok h, length_textLines ha, scan_add,
    List.append_nil]

/-- Names that a file defines without a fault are checked against those of the file before it. -/
theorem names_append_of_scan {found : List Text} {entries rest : List Entry}
    (ha : Text.EndsLine a) (hxs : names a = .ok xs)
    (hscan : scan 1 (textLines b) = entries ++ rest) (h : collect [] entries = .ok found) :
    names (a ++ b) = unlessKnown xs found
      (((collect (found.reverse ++ xs.reverse) (rest.map (Entry.shift (a.count '\n')))).map
        (found ++ ·)).map (xs ++ ·)) := by
  have hseen : ∀ name, name ∈ xs.reverse ↔ name ∈ ([] : List Text) ∨ name ∈ xs := by simp
  rw [names_append_eq_collect ha hxs, hscan, List.map_append,
    collect_of_known hseen (collect_map_shift_of_ok _ h), map_unlessKnown]

/-- If the second file has a first faulty header, that is found behind the names before it. -/
theorem names_append_of_isLeast {i : Nat} (ha : Text.EndsLine a) (hxs : names a = .ok xs)
    (h : IsLeast {i | IsFaulty (textLines b) i} i) :
    names (a ++ b) = unlessKnown xs (definedBefore b (i + 1)) (.error
      (if IsNamed (textLines b) i then .duplicateName (nameAfter (textLines b) i)
        else .missingName (i + 1 + a.count '\n'))) := by
  obtain ⟨rest, hheaders⟩ := exists_headers_eq_append h.1.1
  have hscan := scan_eq_map_headers (textLines b)
  rw [hheaders, List.map_append] at hscan
  rw [names_append_of_scan ha hxs hscan (collect_definedBefore h), List.map_cons, List.map_cons]
  by_cases hnamed : IsNamed (textLines b) i
  · have hmem : nameAfter (textLines b) i ∈ (definedBefore b (i + 1)).reverse ++ xs.reverse :=
      List.mem_append_left _ (List.mem_reverse.2 (name_mem_definedBefore h.1 hnamed))
    rw [entryAt_of_isNamed hnamed, if_pos hnamed]
    simp only [Entry.shift]
    rw [collect_cons_of_mem hmem]
    rfl
  · rw [entryAt_of_not_isNamed hnamed, if_neg hnamed]
    rfl

/-- A file with a duplicate is refused for it whatever follows. -/
theorem names_append_of_duplicate {d : Text} (ha : Text.EndsLine a)
    (h : names a = .error (.duplicateName d)) (b : Text) :
    names (a ++ b) = .error (.duplicateName d) := by
  obtain ⟨i, hleast, hfault⟩ := exists_isLeast_isFaulty h
  have hnamed : IsNamed (textLines a) i := by
    by_contra hnamed
    rw [faultAt, if_neg hnamed] at hfault
    simp at hfault
  have hlength : i + 2 ≤ (textLines a).length := by
    obtain ⟨line, hline, -⟩ := hnamed
    exact (List.getElem?_eq_some_iff.1 hline).1
  have htake : (textLines (a ++ b)).take (i + 2) = (textLines a).take (i + 2) := by
    rw [textLines_append ha, List.take_append_of_le_length hlength]
  rw [names_eq_error_of_isLeast (isLeast_isFaulty_congr hleast htake),
    (isFaulty_congr htake (by omega)).2, hfault]

/-- **What two files define together.**  If the first is accepted, the first name of the second that
the first one has is a duplicate: of all names if the second is accepted, of those before the header
without a name if it lacks one, and of those up to the second with one name if it has a duplicate.
With no such name the two lists of names are joined, or the second file is refused as on its own,
with the number of the line counted from the beginning.  A duplicate in the first file is reported
whatever the second is. -/
theorem names_append_eq (ha : Text.EndsLine a) (b : Text) :
    (∀ xs, names a = .ok xs →
      (∀ ys, names b = .ok ys → names (a ++ b) = unlessKnown xs ys (.ok (xs ++ ys))) ∧
      (∀ n, names b = .error (.missingName n) →
        names (a ++ b) =
          unlessKnown xs (definedBefore b n) (.error (.missingName (n + a.count '\n')))) ∧
      ∀ d, names b = .error (.duplicateName d) →
        ∃ i, IsHeader (textLines b) i ∧ nameAfter (textLines b) i = d ∧
          (definedBefore b (i + 1)).count d = 1 ∧
          names (a ++ b) =
            unlessKnown xs (definedBefore b (i + 2)) (.error (.duplicateName d))) ∧
      ∀ d, names a = .error (.duplicateName d) →
        names (a ++ b) = .error (.duplicateName d) := by
  refine ⟨fun xs hxs => ⟨?_, ?_, ?_⟩, fun d hd => names_append_of_duplicate ha hd b⟩
  · intro ys hys
    rw [names, namesFrom_eq_collect, logicalLines_eq_textLines] at hys
    rw [names_append_of_scan ha hxs (List.append_nil _).symm hys]
    simp [collect, Except.map]
  · intro n hn
    obtain ⟨i, hleast, hfault⟩ := exists_isLeast_isFaulty hn
    have happend := names_append_of_isLeast ha hxs hleast
    unfold faultAt at hfault
    split at hfault
    · simp at hfault
    · rename_i hnamed
      have hline : i + 1 = n := by simpa using hfault
      rwa [if_neg hnamed, hline] at happend
  · intro d hd
    obtain ⟨i, hleast, hfault⟩ := exists_isLeast_isFaulty hd
    have happend := names_append_of_isLeast ha hxs hleast
    unfold faultAt at hfault
    split at hfault
    · rename_i hnamed
      have hname : nameAfter (textLines b) i = d := by simpa using hfault
      have hmem := name_mem_definedBefore hleast.1 hnamed
      have hnodup := (collect_eq_ok_iff.1 (collect_definedBefore hleast)).2.1
      rw [if_pos hnamed, hname] at happend
      rw [hname] at hmem
      refine ⟨i, hleast.1.1, hname, List.count_eq_one_of_mem hnodup hmem, ?_⟩
      rw [happend, definedBefore_add_two hleast.1.1, hname, unlessKnown_concat_self]
    · simp at hfault

/-- The second file lacks a name at its end, but before that it has one of the first file. -/
theorem names_append_known_before_missing :
    Text.EndsLine "DEFINE_INSN\nnop\n\n".toList ∧
      names ("DEFINE_INSN\nnop\n\n".toList ++ "DEFINE_INSN\r\n Nop\nDEFINE_INSN".toList) =
        .error (.duplicateName "NOP".toList) := by
  have ha : Text.EndsLine "DEFINE_INSN\nnop\n\n".toList := by decide
  have hxs : names "DEFINE_INSN\nnop\n\n".toList = .ok ["NOP".toList] := by decide +kernel
  have hb : names "DEFINE_INSN\r\n Nop\nDEFINE_INSN".toList = .error (.missingName 3) := by
    decide +kernel
  have hfound : definedBefore "DEFINE_INSN\r\n Nop\nDEFINE_INSN".toList 3 = ["NOP".toList] := by
    decide +kernel
  refine ⟨ha, ?_⟩
  rw [((names_append_eq ha _).1 _ hxs).2.1 3 hb, hfound,
    unlessKnown_cons_of_mem (List.mem_singleton_self _)]

end Definitions

end OpcodeCatalog
