import Mathlib.Data.List.FinRange
import OpcodeCatalog.Proofs.Listing.Instructions

/-!
# Listings of tables

A listing goes through a table code by code, so the lines of a code stand together, behind those of
all lesser codes and in front of those of all greater ones.  What stands there depends on the name of
the code alone: nothing for a name that begins with `<`, the name without its ending and then the
name for a name that ends in `+0`, and else the name.  The last line of a code bears its whole name,
so only the names that are left out are not known from the listing.

Main definitions:

* `Listing.Precedes` — the order of the lines;
* `Listing.ofCode` — the lines of one code;
* `Listing.ListsTable` — what holds of the listing of a table.

Main results:

* `Listing.exists_ofTable_eq_append` — the lines of a code stand together;
* `Listing.pairwise_precedes_ofTable` — the lines are in order;
* `Listing.listsTable_ofTable` — **every table is listed code by code**.
-/

set_option autoImplicit false

namespace OpcodeCatalog

theorem OpcodeTable.eq_of_name_eq {table other : OpcodeTable}
    (h : ∀ c, table.name c = other.name c) : table = other := by
  obtain ⟨names⟩ := table
  obtain ⟨names'⟩ := other
  rw [OpcodeTable.mk.injEq]
  exact Vector.ext fun i hi => h ⟨i, hi⟩

namespace Listing

variable {table : OpcodeTable} {code : Code} {name : Text}

/-! ### The lines of one name -/

theorem numbered_injective : Function.Injective Line.numbered := by
  rintro ⟨name, code⟩ ⟨name', code'⟩ h
  simp only [Line.numbered, Prod.mk.injEq] at h
  rw [h.1, Fin.ext h.2]

/-- The lines of a name and a code are known from the lines at the position of that number. -/
theorem ofEntry_eq_iff {lines : List Line} :
    ofEntry code name = lines ↔ linesAt name code.val = lines.map Line.numbered := by
  rw [← map_numbered_ofEntry, (List.map_injective_iff.2 numbered_injective).eq_iff]

theorem ofEntry_of_hidden (h : name.head? = some '<') : ofEntry code name = [] :=
  ofEntry_eq_iff.2 (linesAt_of_hidden h code.val)

theorem ofEntry_append_plain {stem : Text} (h : stem.head? ≠ some '<') :
    ofEntry code (stem ++ ['+', '0']) = [⟨stem, code⟩, ⟨stem ++ ['+', '0'], code⟩] :=
  ofEntry_eq_iff.2 (linesAt_append_plain h code.val)

theorem ofEntry_of_not_plain (h : name.head? ≠ some '<')
    (hplain : ∀ stem, name ≠ stem ++ ['+', '0']) : ofEntry code name = [⟨name, code⟩] :=
  ofEntry_eq_iff.2 (linesAt_of_not_plain h hplain code.val)

/-- A code is listed under its name and, if that is a plain form, without its ending. -/
theorem mem_ofEntry_iff {line : Line} :
    line ∈ ofEntry code name ↔ line.code = code ∧ name.head? ≠ some '<' ∧
      (name = line.name ∨ name = line.name ++ ['+', '0']) := by
  rw [← List.mem_map_of_injective numbered_injective, map_numbered_ofEntry, Line.numbered,
    mem_linesAt_iff, Fin.val_inj]
  refine and_congr_right fun _ => and_congr_left ?_
  rintro (rfl | rfl)
  · exact Iff.rfl
  · exact (head?_append_plain line.name).not.symm

/-- A code has a line for its name, and one more for the name without its ending. -/
theorem length_ofEntry (code : Code) (name : Text) :
    (ofEntry code name).length = (if name.head? ≠ some '<' then 1 else 0) +
      if name.head? ≠ some '<' ∧ ['+', '0'] <:+ name then 1 else 0 := by
  by_cases hhidden : name.head? = some '<'
  · simp [ofEntry_of_hidden hhidden, hhidden]
  · obtain ⟨stem, hstem, rfl⟩ | hplain := plain_or_not_plain hhidden
    · rw [ofEntry_append_plain hstem, if_pos hhidden, if_pos ⟨hhidden, List.suffix_append ..⟩]
      rfl
    · have hend : ¬ ['+', '0'] <:+ name := fun ⟨stem, hstem⟩ => hplain stem hstem.symm
      rw [ofEntry_of_not_plain hhidden hplain, if_pos hhidden, if_neg fun h => hend h.2]
      rfl

/-! ### The order of the lines -/

/-- A line comes before another one: it has a lesser code, or it is the line without the ending in
front of the line with it. -/
def Precedes (line line' : Line) : Prop :=
  line.code < line'.code ∨ line.code = line'.code ∧ line'.name = line.name ++ ['+', '0']

theorem Precedes.code_le {line line' : Line} (h : Precedes line line') :
    line.code ≤ line'.code := by
  rcases h with hlt | ⟨heq, -⟩
  · exact Nat.le_of_lt hlt
  · exact Nat.le_of_eq (congrArg Fin.val heq)

theorem Precedes.ne {line line' : Line} (h : Precedes line line') : line ≠ line' := by
  rintro rfl
  rcases h with hlt | ⟨-, hname⟩
  · exact Nat.lt_irrefl _ hlt
  · simpa using congrArg List.length hname

theorem pairwise_precedes_ofEntry (code : Code) (name : Text) :
    (ofEntry code name).Pairwise Precedes := by
  by_cases hhidden : name.head? = some '<'
  · rw [ofEntry_of_hidden hhidden]
    exact List.Pairwise.nil
  · obtain ⟨stem, hstem, rfl⟩ | hplain := plain_or_not_plain hhidden
    · rw [ofEntry_append_plain hstem, List.pairwise_pair]
      exact Or.inr ⟨rfl, rfl⟩
    · rw [ofEntry_of_not_plain hhidden hplain]
      exact List.pairwise_singleton ..

theorem ofTable_eq_flatMap (table : OpcodeTable) :
    ofTable table = (List.finRange 256).flatMap fun c => ofEntry c (table.name c) := by
  rw [ofTable, OpcodeTable.entries, List.flatMap_map]

theorem pairwise_precedes_ofTable (table : OpcodeTable) :
    (ofTable table).Pairwise Precedes := by
  rw [ofTable_eq_flatMap, List.pairwise_flatMap]
  refine ⟨fun c _ => pairwise_precedes_ofEntry c _, (List.pairwise_lt_finRange 256).imp ?_⟩
  intro c c' hlt line hline line' hline'
  refine Or.inl ?_
  rw [code_of_mem_ofEntry hline, code_of_mem_ofEntry hline']
  exact hlt

/-! ### The lines of one code -/

/-- The lines of a listing that bear the code. -/
def ofCode (code : Code) (lines : List Line) : List Line := lines.filter (·.code == code)

/-- The lines of a code stand together, behind those of the lesser codes and in front of those of
the greater ones. -/
theorem exists_ofTable_eq_append (table : OpcodeTable) (code : Code) :
    ∃ front back, ofTable table = front ++ ofEntry code (table.name code) ++ back ∧
      (∀ line ∈ front, line.code < code) ∧ ∀ line ∈ back, code < line.code := by
  obtain ⟨lesser, greater, hcodes⟩ := List.append_of_mem (List.mem_finRange code)
  have hlt := List.pairwise_lt_finRange 256
  rw [hcodes, List.pairwise_append, List.pairwise_cons] at hlt
  obtain ⟨-, ⟨hgreater, -⟩, hlesser⟩ := hlt
  refine ⟨lesser.flatMap fun c => ofEntry c (table.name c),
    greater.flatMap fun c => ofEntry c (table.name c), ?_, ?_, ?_⟩
  · rw [ofTable_eq_flatMap, hcodes]
    simp
  · intro line hline
    obtain ⟨c, hc, hmem⟩ := List.mem_flatMap.1 hline
    rw [code_of_mem_ofEntry hmem]
    exact hlesser c hc code (List.mem_cons_self ..)
  · intro line hline
    obtain ⟨c, hc, hmem⟩ := List.mem_flatMap.1 hline
    rw [code_of_mem_ofEntry hmem]
    exact hgreater c hc

/-- The lines of a code are those of its name. -/
theorem ofCode_ofTable (table : OpcodeTable) (code : Code) :
    ofCode code (ofTable table) = ofEntry code (table.name code) := by
  obtain ⟨front, back, heq, hfront, hback⟩ := exists_ofTable_eq_append table code
  have hself : ∀ line ∈ ofEntry code (table.name code), (line.code == code) = true := by
    intro line hline
    rw [code_of_mem_ofEntry hline, beq_self_eq_true]
  have hbefore : front.filter (·.code == code) = [] := by
    rw [List.filter_eq_nil_iff]
    intro line hline
    simpa using Fin.ne_of_lt (hfront line hline)
  have hbehind : back.filter (·.code == code) = [] := by
    rw [List.filter_eq_nil_iff]
    intro line hline
    simpa using Fin.ne_of_gt (hback line hline)
  rw [heq, ofCode, List.filter_append, List.filter_append, hbefore, hbehind,
    List.filter_eq_self.2 hself, List.nil_append, List.append_nil]

theorem ofCode_infix_ofTable (table : OpcodeTable) (code : Code) :
    ofCode code (ofTable table) <:+: ofTable table := by
  obtain ⟨front, back, heq, -, -⟩ := exists_ofTable_eq_append table code
  rw [ofCode_ofTable]
  exact ⟨front, back, heq.symm⟩

/-- The last line of a code bears its whole name. -/
theorem getLast?_ofCode_ofTable (h : (table.name code).head? ≠ some '<') :
    (ofCode code (ofTable table)).getLast? = some ⟨table.name code, code⟩ := by
  rw [ofCode_ofTable]
  obtain ⟨stem, hstem, hname⟩ | hplain := plain_or_not_plain h
  · rw [hname, ofEntry_append_plain hstem]
    rfl
  · rw [ofEntry_of_not_plain h hplain]
    rfl

/-! ### All lines -/

/-- The lines of any codes, one after the other. -/
theorem length_flatMap_ofEntry (table : OpcodeTable) (codes : List Code) :
    (codes.flatMap fun c => ofEntry c (table.name c)).length =
      codes.countP (fun c => (table.name c).head? ≠ some '<') +
        codes.countP fun c => (table.name c).head? ≠ some '<' ∧ ['+', '0'] <:+ table.name c := by
  induction codes with
  | nil => rfl
  | cons c codes ih =>
      rw [List.flatMap_cons, List.length_append, ih, length_ofEntry, List.countP_cons,
        List.countP_cons]
      simp only [decide_eq_true_eq]
      omega

theorem mem_ofTable_iff {line : Line} :
    line ∈ ofTable table ↔ (table.name line.code).head? ≠ some '<' ∧
      (table.name line.code = line.name ∨ table.name line.code = line.name ++ ['+', '0']) := by
  rw [ofTable_eq_flatMap, List.mem_flatMap]
  constructor
  · rintro ⟨c, -, hmem⟩
    obtain ⟨rfl, hname⟩ := mem_ofEntry_iff.1 hmem
    exact hname
  · intro hname
    exact ⟨line.code, List.mem_finRange _, mem_ofEntry_iff.2 ⟨rfl, hname⟩⟩

/-- A listing and the names that it leaves out belong to one table only. -/
theorem eq_of_ofTable_eq {other : OpcodeTable} (h : ofTable other = ofTable table)
    (hhidden : ∀ code, (table.name code).head? = some '<' → other.name code = table.name code) :
    other = table := by
  apply OpcodeTable.eq_of_name_eq
  intro code
  by_cases hcode : (table.name code).head? = some '<'
  · exact hhidden code hcode
  · have hlast := getLast?_ofCode_ofTable hcode
    rw [← h] at hlast
    have hother : (other.name code).head? ≠ some '<' := by
      intro hmark
      rw [ofCode_ofTable, ofEntry_of_hidden hmark] at hlast
      simp at hlast
    rw [getLast?_ofCode_ofTable hother, Option.some.injEq, Line.mk.injEq] at hlast
    exact hlast.1

/-- What holds of the listing of a table. -/
structure ListsTable (table : OpcodeTable) (lines : List Line) : Prop where
  /-- A line bears the name of its code, with the ending `+0` or without it, and no name that begins
  with `<` gives a line. -/
  mem_iff : ∀ name code, ⟨name, code⟩ ∈ lines ↔ (table.name code).head? ≠ some '<' ∧
    (table.name code = name ∨ table.name code = name ++ ['+', '0'])
  /-- No line occurs twice. -/
  nodup : lines.Nodup
  /-- The codes never decrease. -/
  code_le : lines.Pairwise fun line line' => line.code ≤ line'.code
  /-- A code has no line if its name begins with `<`. -/
  hidden : ∀ code, (table.name code).head? = some '<' → ofCode code lines = []
  /-- If the name ends in `+0`, the code has two lines next to each other, the first one without this
  ending.  No other ending is removed: `X+0+0` is listed as `X+0` and as `X+0+0`. -/
  plain : ∀ code stem, (table.name code).head? ≠ some '<' → table.name code = stem ++ ['+', '0'] →
    ofCode code lines = [⟨stem, code⟩, ⟨stem ++ ['+', '0'], code⟩] ∧
      [⟨stem, code⟩, ⟨stem ++ ['+', '0'], code⟩] <:+: lines
  /-- Any other name gives one line. -/
  other : ∀ code, (table.name code).head? ≠ some '<' →
    (∀ stem, table.name code ≠ stem ++ ['+', '0']) → ofCode code lines = [⟨table.name code, code⟩]
  /-- There is a line for each listed name, and one more for each of them that ends in `+0`. -/
  length_eq : lines.length =
    (List.finRange 256).countP (fun code => (table.name code).head? ≠ some '<') +
      (List.finRange 256).countP fun code =>
        (table.name code).head? ≠ some '<' ∧ ['+', '0'] <:+ table.name code
  /-- The last line of a code bears its whole name. -/
  last : ∀ code, (table.name code).head? ≠ some '<' →
    (ofCode code lines).getLast? = some ⟨table.name code, code⟩
  /-- No other table with these lines has the same names where no line tells them. -/
  determines : ∀ other, ofTable other = lines →
    (∀ code, (table.name code).head? = some '<' → other.name code = table.name code) →
      other = table

/-- **Every table is listed code by code.** -/
theorem listsTable_ofTable (table : OpcodeTable) : ListsTable table (ofTable table) where
  mem_iff _ _ := mem_ofTable_iff
  nodup := (pairwise_precedes_ofTable table).imp Precedes.ne
  code_le := (pairwise_precedes_ofTable table).imp Precedes.code_le
  hidden code h := by rw [ofCode_ofTable, ofEntry_of_hidden h]
  plain code stem h hname := by
    have hlines : ofCode code (ofTable table) = [⟨stem, code⟩, ⟨stem ++ ['+', '0'], code⟩] := by
      rw [hname] at h
      rw [ofCode_ofTable, hname, ofEntry_append_plain ((head?_append_plain stem).not.1 h)]
    exact ⟨hlines, hlines ▸ ofCode_infix_ofTable table code⟩
  other code h hplain := by rw [ofCode_ofTable, ofEntry_of_not_plain h hplain]
  length_eq := by rw [ofTable_eq_flatMap, length_flatMap_ofEntry]
  last _ h := getLast?_ofCode_ofTable h
  determines _ h hhidden := eq_of_ofTable_eq h hhidden

end Listing

end OpcodeCatalog
