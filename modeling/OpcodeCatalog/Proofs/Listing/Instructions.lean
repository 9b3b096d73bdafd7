import OpcodeCatalog.Proofs.Definitions.Names
import OpcodeCatalog.Proofs.Listing.Positions

/-!
# The instructions on a listing

An instruction stands on a listing under its own name, and under its plain name as well if it is a
plain form.  Two things keep the names apart from the lines.  A name that begins with `<` is taken
for a placeholder, so its instruction is left out although it has its number.  And the plain name of
one instruction may be the whole name of another, as with `SLICE+0` and `SLICE`: then two lines bear
one name.

Main definitions:

* `Listing.IsShared` — a name that is the name of one instruction and the plain name of another.

Main results:

* `Listing.mem_byPosition_iff` — the lines by position, one by one;
* `Listing.count_fst_byPosition` — how many of them bear a name;
* `Listing.instruction_listed_unless_hidden` — **the instructions that are listed**;
* `Listing.name_repeated_iff` — **the names that stand on two lines**.
-/

set_option autoImplicit false

namespace OpcodeCatalog

namespace Listing

open Definitions (textLines headers nameAfter)

/-! ### The lines of one name -/

/-- The ending does not change how a name begins. -/
theorem head?_append_plain (name : Text) :
    (name ++ ['+', '0']).head? = some '<' ↔ name.head? = some '<' := by
  cases name <;> simp

theorem linesAt_of_hidden {name : Text} (h : name.head? = some '<') (position : Nat) :
    linesAt name position = [] := if_pos h

theorem linesAt_append_plain {stem : Text} (h : stem.head? ≠ some '<') (position : Nat) :
    linesAt (stem ++ ['+', '0']) position =
      [(stem, position), (stem ++ ['+', '0'], position)] := by
  rw [linesAt, if_neg ((head?_append_plain stem).not.2 h), if_pos (List.suffix_append ..)]
  simp

theorem linesAt_of_not_plain {name : Text} (h : name.head? ≠ some '<')
    (hplain : ∀ stem, name ≠ stem ++ ['+', '0']) (position : Nat) :
    linesAt name position = [(name, position)] := by
  rw [linesAt, if_neg h, if_neg]
  rintro ⟨stem, hstem⟩
  exact hplain stem hstem.symm

/-- A name that is not hidden is a plain form, or it is not. -/
theorem plain_or_not_plain {name : Text} (h : name.head? ≠ some '<') :
    (∃ stem : Text, stem.head? ≠ some '<' ∧ name = stem ++ ['+', '0']) ∨
      ∀ stem, name ≠ stem ++ ['+', '0'] := by
  by_cases hplain : ∃ stem, name = stem ++ ['+', '0']
  · obtain ⟨stem, rfl⟩ := hplain
    exact Or.inl ⟨stem, (head?_append_plain stem).not.1 h, rfl⟩
  · exact Or.inr fun stem hstem => hplain ⟨stem, hstem⟩

/-- A name is listed as itself and, if it is a plain form, without its ending. -/
theorem mem_linesAt_iff {first name : Text} {position code : Nat} :
    (name, code) ∈ linesAt first position ↔
      code = position ∧ name.head? ≠ some '<' ∧
        (first = name ∨ first = name ++ ['+', '0']) := by
  by_cases hhidden : first.head? = some '<'
  · rw [linesAt_of_hidden hhidden]
    constructor
    · intro h
      simp at h
    · rintro ⟨-, hvisible, rfl | rfl⟩
      · exact absurd hhidden hvisible
      · exact absurd ((head?_append_plain name).1 hhidden) hvisible
  · obtain ⟨stem, hstem, rfl⟩ | hplain := plain_or_not_plain hhidden
    · rw [linesAt_append_plain hstem]
      constructor
      · intro h
        simp only [List.mem_cons, Prod.mk.injEq, List.not_mem_nil, or_false] at h
        rcases h with ⟨rfl, rfl⟩ | ⟨rfl, rfl⟩
        · exact ⟨rfl, hstem, Or.inr rfl⟩
        · exact ⟨rfl, hhidden, Or.inl rfl⟩
      · rintro ⟨rfl, -, rfl | h⟩
        · simp
        · simp [List.append_cancel_right h]
    · rw [linesAt_of_not_plain hhidden hplain, List.mem_singleton, Prod.mk.injEq]
      constructor
      · rintro ⟨rfl, rfl⟩
        exact ⟨rfl, hhidden, Or.inl rfl⟩
      · rintro ⟨rfl, -, rfl | h⟩
        · exact ⟨rfl, rfl⟩
        · exact absurd h (hplain name)

/-- How many lines of an instruction bear a name. -/
theorem count_fst_linesAt (first name : Text) (position : Nat) :
    ((linesAt first position).map Prod.fst).count name =
      if name.head? = some '<' then 0
      else [first].count name + [first].count (name ++ ['+', '0']) := by
  by_cases hhidden : first.head? = some '<'
  · rw [linesAt_of_hidden hhidden]
    by_cases hmark : name.head? = some '<'
    · rw [if_pos hmark]
      rfl
    · have hname : first ≠ name := fun h => hmark (h ▸ hhidden)
      have hplain : first ≠ name ++ ['+', '0'] := fun h =>
        hmark ((head?_append_plain name).1 (h ▸ hhidden))
      simp [hmark, hname, hplain]
  · obtain ⟨stem, hstem, rfl⟩ | hplain := plain_or_not_plain hhidden
    · rw [linesAt_append_plain hstem]
      by_cases hmark : name.head? = some '<'
      · have hname : stem ≠ name := fun h => hstem (h ▸ hmark)
        have hplain : stem ++ ['+', '0'] ≠ name := fun h => hhidden (h ▸ hmark)
        simp [hmark, hname, hplain]
      · rw [if_neg hmark]
        simp [List.count_cons, Nat.add_comm]
    · rw [linesAt_of_not_plain hhidden hplain]
      by_cases hmark : name.head? = some '<'
      · have hname : first ≠ name := fun h => hhidden (h ▸ hmark)
        simp [hmark, hname]
      · simp [hmark, hplain name]

/-! ### The lines of all names -/

/-- A line bears the position of its name, or of the plain form of its name. -/
theorem mem_byPosition_iff {names : List Text} {name : Text} {position : Nat} :
    (name, position) ∈ byPosition names ↔
      name.head? ≠ some '<' ∧
        (names[position]? = some name ∨ names[position]? = some (name ++ ['+', '0'])) := by
  simp only [byPosition, List.mem_flatMap, Prod.exists, List.mem_zipIdx_iff_getElem?,
    mem_linesAt_iff]
  constructor
  · rintro ⟨first, i, hget, rfl, hvisible, rfl | rfl⟩
    · exact ⟨hvisible, Or.inl hget⟩
    · exact ⟨hvisible, Or.inr hget⟩
  · rintro ⟨hvisible, hget | hget⟩
    · exact ⟨_, _, hget, rfl, hvisible, Or.inl rfl⟩
    · exact ⟨_, _, hget, rfl, hvisible, Or.inr rfl⟩

/-- How many lines bear a name: one for each instruction of that name, and one for each plain form
of it. -/
theorem count_fst_zipIdx (names : List Text) (name : Text) (start : Nat) :
    (((names.zipIdx start).flatMap fun entry => linesAt entry.1 entry.2).map Prod.fst).count name =
      if name.head? = some '<' then 0
      else names.count name + names.count (name ++ ['+', '0']) := by
  induction names generalizing start with
  | nil => simp
  | cons first names ih =>
      rw [List.zipIdx_cons, List.flatMap_cons, List.map_append, List.count_append,
        count_fst_linesAt, ih]
      by_cases hmark : name.head? = some '<'
      · simp [hmark]
      · simp only [if_neg hmark, List.count_cons, List.count_nil]
        omega

theorem count_fst_byPosition (names : List Text) (name : Text) :
    ((byPosition names).map Prod.fst).count name =
      if name.head? = some '<' then 0
      else names.count name + names.count (name ++ ['+', '0']) :=
  count_fst_zipIdx names name 0

/-! ### Listings of definition files -/

variable {t : Text} {lines : List Line}

/-- The lines of a definition file are those of its names by position. -/
theorem exists_names_of_ofDefinitions (h : ofDefinitions t = .ok lines) :
    ∃ names, Definitions.names t = .ok names ∧ lines.map Line.numbered = byPosition names := by
  unfold ofDefinitions at h
  cases hnames : Definitions.names t with
  | error failure => simp [hnames] at h
  | ok names =>
      rw [hnames] at h
      simp only [ofNames] at h
      cases htable : OpcodeTable.ofNames names with
      | error failure => simp [htable] at h
      | ok table =>
          rw [htable] at h
          rw [← Except.ok.inj h]
          exact ⟨names, rfl, map_ofTable_ofNames htable⟩

/-- Names that fit into a table have a listing. -/
theorem exists_lines_of_names {names : List Text} (h : Definitions.names t = .ok names)
    (hlength : names.length ≤ 256) :
    ∃ lines, ofDefinitions t = .ok lines ∧ lines.map Line.numbered = byPosition names := by
  obtain ⟨lines, hlines, hposition⟩ := ofNames_of_le hlength
  exact ⟨lines, by simp [ofDefinitions, h, hlines], hposition⟩

/-- The names on the lines are those by position. -/
theorem map_name_eq {names : List Text} (h : lines.map Line.numbered = byPosition names) :
    lines.map Line.name = (byPosition names).map Prod.fst := by
  rw [← h, List.map_map]
  rfl

/-- A line of the listing is a line by position. -/
theorem exists_line_iff {names : List Text} (h : lines.map Line.numbered = byPosition names)
    {name : Text} {position : Nat} :
    (∃ line ∈ lines, line.name = name ∧ line.code.val = position) ↔
      (name, position) ∈ byPosition names := by
  simp [← h, Line.numbered]

/-- **The instructions that are listed.**  An instruction stands on the listing with its name, in
upper case, and its number, unless its name begins with `<`: then no line bears its number. -/
theorem instruction_listed_unless_hidden (h : ofDefinitions t = .ok lines) :
    ∃ names, Definitions.names t = .ok names ∧
      names = (headers (textLines t)).map (nameAfter (textLines t)) ∧
      ∀ N name, names[N]? = some name →
        if name.head? = some '<' then ∀ line ∈ lines, line.code.val ≠ N
        else ∃ line ∈ lines, line.name = name ∧ line.code.val = N := by
  obtain ⟨names, hnames, hlines⟩ := exists_names_of_ofDefinitions h
  refine ⟨names, hnames, Definitions.names_eq_map_headers hnames, ?_⟩
  intro N name hname
  split
  · rename_i hhidden
    rintro line hline rfl
    obtain ⟨hvisible, hself | hplain⟩ := mem_byPosition_iff.1
      ((exists_line_iff hlines).1 ⟨line, hline, rfl, rfl⟩)
    · rw [hname, Option.some.injEq] at hself
      exact hvisible (hself ▸ hhidden)
    · rw [hname, Option.some.injEq] at hplain
      exact hvisible ((head?_append_plain line.name).1 (hplain ▸ hhidden))
  · rename_i hvisible
    exact (exists_line_iff hlines).2 (mem_byPosition_iff.2 ⟨hvisible, Or.inl hname⟩)

/-- A file with an instruction that is left out in front of another one. -/
def hiddenFirst : Text := "DEFINE_INSN\n<x>\nDEFINE_INSN\nslice+0\n".toList

theorem names_hiddenFirst :
    Definitions.names hiddenFirst = .ok ["<X>".toList, "SLICE+0".toList] := by decide +kernel

/-- The instruction behind the one that is left out keeps its number. -/
theorem instruction_listed_hiddenFirst :
    ∃ lines, ofDefinitions hiddenFirst = .ok lines ∧
      (∀ line ∈ lines, line.code.val ≠ 0) ∧
      ∃ line ∈ lines, line.name = "SLICE+0".toList ∧ line.code.val = 1 := by
  obtain ⟨lines, hlines, -⟩ := exists_lines_of_names names_hiddenFirst (by decide)
  obtain ⟨names, hnames, -, hlisted⟩ := instruction_listed_unless_hidden hlines
  obtain rfl := Except.ok.inj (names_hiddenFirst.symm.trans hnames)
  exact ⟨lines, hlines, hlisted 0 "<X>".toList rfl, hlisted 1 "SLICE+0".toList rfl⟩

/-- Not every instruction is listed. -/
theorem hidden_instruction_unlisted :
    ¬ ∀ (t : Text) (names : List Text) (lines : List Line), Definitions.names t = .ok names →
      ofDefinitions t = .ok lines →
      ∀ N name, names[N]? = some name →
        ∃ line ∈ lines, line.name = name ∧ line.code.val = N := by
  intro h
  obtain ⟨lines, hlines, hposition⟩ := exists_lines_of_names names_hiddenFirst (by decide)
  have hlisted := h _ _ lines names_hiddenFirst hlines 0 "<X>".toList rfl
  rw [exists_line_iff hposition] at hlisted
  exact absurd hlisted (by decide)

/-! ### Names on two lines -/

/-- The name is that of one instruction and the plain name of another, and it is not taken for a
placeholder. -/
def IsShared (names : List Text) (name : Text) : Prop :=
  name.head? ≠ some '<' ∧ name ∈ names ∧ name ++ ['+', '0'] ∈ names

instance (names : List Text) (name : Text) : Decidable (IsShared names name) :=
  inferInstanceAs (Decidable (_ ∧ _))

/-- If the names differ, two lines bear one of them exactly if it is shared. -/
theorem two_le_count_iff {names : List Text} (h : names.Nodup) (name : Text) :
    2 ≤ ((byPosition names).map Prod.fst).count name ↔ IsShared names name := by
  rw [count_fst_byPosition]
  have hself := h.count (a := name)
  have hplain := h.count (a := name ++ ['+', '0'])
  by_cases hmark : name.head? = some '<'
  · simp [IsShared, hmark]
  · rw [if_neg hmark, hself, hplain]
    by_cases hname : name ∈ names <;> by_cases hform : name ++ ['+', '0'] ∈ names <;>
      simp [IsShared, hmark, hname, hform]

/-- A shared name stands at two positions, and no other name does. -/
theorem exists_two_positions_iff {names : List Text} (h : names.Nodup) (name : Text) :
    (∃ p q, p ≠ q ∧ (name, p) ∈ byPosition names ∧ (name, q) ∈ byPosition names) ↔
      IsShared names name := by
  have hsame : ∀ {p q : Nat} {other : Text}, names[p]? = some other → names[q]? = some other →
      p = q := by
    intro p q other hp hq
    exact (List.getElem?_inj (List.getElem?_eq_some_iff.1 hp).1 h).1 (hp.trans hq.symm)
  constructor
  · rintro ⟨p, q, hne, hp, hq⟩
    obtain ⟨hvisible, hp | hp⟩ := mem_byPosition_iff.1 hp <;>
      obtain ⟨-, hq | hq⟩ := mem_byPosition_iff.1 hq
    · exact absurd (hsame hp hq) hne
    · exact ⟨hvisible, List.mem_of_getElem? hp, List.mem_of_getElem? hq⟩
    · exact ⟨hvisible, List.mem_of_getElem? hq, List.mem_of_getElem? hp⟩
    · exact absurd (hsame hp hq) hne
  · rintro ⟨hvisible, hself, hplain⟩
    obtain ⟨p, hp⟩ := List.mem_iff_getElem?.1 hself
    obtain ⟨q, hq⟩ := List.mem_iff_getElem?.1 hplain
    refine ⟨p, q, ?_, mem_byPosition_iff.2 ⟨hvisible, Or.inl hp⟩,
      mem_byPosition_iff.2 ⟨hvisible, Or.inr hq⟩⟩
    -- one position would hold a name with the ending and without it
    rintro rfl
    rw [hp, Option.some.injEq] at hq
    simpa using congrArg List.length hq

/-- **The names that stand on two lines.**  A name stands on two lines of a listing, and then with
two codes, exactly if it is the name of one instruction and the plain name of another. -/
theorem name_repeated_iff (h : ofDefinitions t = .ok lines) :
    ∃ names, Definitions.names t = .ok names ∧ ∀ name,
      (2 ≤ (lines.map Line.name).count name ↔ IsShared names name) ∧
      ((∃ line ∈ lines, ∃ line' ∈ lines, line.name = name ∧ line'.name = name ∧
          line.code ≠ line'.code) ↔ IsShared names name) := by
  obtain ⟨names, hnames, hlines⟩ := exists_names_of_ofDefinitions h
  have hnodup := Definitions.nodup_names hnames
  refine ⟨names, hnames, fun name => ⟨?_, ?_⟩⟩
  · rw [map_name_eq hlines, two_le_count_iff hnodup]
  · rw [← exists_two_positions_iff hnodup]
    constructor
    · rintro ⟨line, hline, line', hline', rfl, hname, hcode⟩
      refine ⟨line.code.val, line'.code.val, Fin.val_ne_of_ne hcode, ?_, ?_⟩
      · exact (exists_line_iff hlines).1 ⟨line, hline, rfl, rfl⟩
      · exact (exists_line_iff hlines).1 ⟨line', hline', hname, rfl⟩
    · rintro ⟨p, q, hne, hp, hq⟩
      obtain ⟨line, hline, hname, rfl⟩ := (exists_line_iff hlines).2 hp
      obtain ⟨line', hline', hname', rfl⟩ := (exists_line_iff hlines).2 hq
      exact ⟨line, hline, line', hline', hname, hname', fun hcode => hne (congrArg Fin.val hcode)⟩

/-- A file in which the plain name of one instruction is the name of another. -/
def sharedName : Text := "DEFINE_INSN\nslice+0\nDEFINE_INSN\nslice\nDEFINE_INSN\n+0\n".toList

theorem names_sharedName : Definitions.names sharedName =
    .ok ["SLICE+0".toList, "SLICE".toList, "+0".toList] := by decide +kernel

/-- The shared name stands on two lines, and the name with the ending on one. -/
theorem name_repeated_sharedName :
    ∃ lines, ofDefinitions sharedName = .ok lines ∧
      2 ≤ (lines.map Line.name).count "SLICE".toList ∧
      ¬ 2 ≤ (lines.map Line.name).count "SLICE+0".toList := by
  obtain ⟨lines, hlines, -⟩ := exists_lines_of_names names_sharedName (by decide)
  obtain ⟨names, hnames, hshared⟩ := name_repeated_iff hlines
  obtain rfl := Except.ok.inj (names_sharedName.symm.trans hnames)
  exact ⟨lines, hlines, (hshared _).1.2 (by decide), (hshared _).1.not.2 (by decide)⟩

/-- The names on the lines of a listing need not differ. -/
theorem listed_names_not_nodup :
    ¬ ∀ (t : Text) (lines : List Line), ofDefinitions t = .ok lines →
      (lines.map Line.name).Nodup := by
  intro h
  obtain ⟨lines, hlines, hposition⟩ := exists_lines_of_names names_sharedName (by decide)
  have hnodup := h _ lines hlines
  rw [map_name_eq hposition] at hnodup
  exact absurd hnodup (by decide)

end Listing

end OpcodeCatalog
