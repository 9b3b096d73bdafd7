import OpcodeCatalog.Failure
import OpcodeCatalog.Opcode

/-!
# Opcode tables

A table has a name for each of the 256 codes.  A code without an instruction has a placeholder, its
decimal number in angle brackets.  Every table begins with nothing but placeholders and is filled
name by name.

Main definitions:

* `OpcodeTable` — a name for every code;
* `OpcodeTable.store` — a table with another name at a code;
* `OpcodeTable.python` — the table of CPython 2.6;
* `OpcodeTable.ofNames` — instructions numbered by their position;
* `OpcodeTable.entries` — all codes with their names, in order.

Main results:

* `OpcodeTable.name_python_code`, `OpcodeTable.name_python_of_unused` — the names of CPython 2.6;
* `OpcodeTable.name_fill` — what a table holds when some names have come;
* `OpcodeTable.name_ofNames` — the name at each code of a table made from names;
* `OpcodeTable.isOk_ofNames_iff` — the names fit exactly if there are at most 256.
-/

set_option autoImplicit false

namespace OpcodeCatalog

/-- The name of a code without an instruction. -/
def placeholder (c : Code) : Text := '<' :: Text.decimal c.val ++ ['>']

/-- A name for every code. -/
structure OpcodeTable where
  names : Vector Text 256
  deriving DecidableEq

namespace OpcodeTable

/-- The number of codes. -/
def size : Nat := 256

/-- The name of a code. -/
def name (table : OpcodeTable) (c : Code) : Text := table.names[c]

/-- The table that names each code as given. -/
def ofFunction (f : Code → Text) : OpcodeTable := ⟨Vector.ofFn f⟩

/-- The table without instructions. -/
def unused : OpcodeTable := ofFunction placeholder

/-- The table with another name at a code. -/
def store (table : OpcodeTable) (c : Code) (name : Text) : OpcodeTable :=
  ⟨table.names.set c name⟩

/-- The table of CPython 2.6. -/
def python : OpcodeTable := Opcode.all.foldl (fun table op => table.store op.code op.name) unused

/-- A table that is being filled, with the number of names that have come. -/
structure Filling where
  table : OpcodeTable
  count : Nat

/-- One more name.  It stands at the code that the names before it have left, and when they have
left none it is only counted. -/
def Filling.add (filling : Filling) (name : Text) : Filling where
  table :=
    if h : filling.count < size then filling.table.store ⟨filling.count, h⟩ name
    else filling.table
  count := filling.count + 1

/-- The filling of a table with names. -/
def fill (names : List Text) : Filling := names.foldl Filling.add ⟨unused, 0⟩

/-- The table in which the first name stands at code 0, the second at code 1, and so on.  The codes
after the last name have placeholders. -/
def ofNames (names : List Text) : Except Failure OpcodeTable :=
  let filling := fill names
  if size < filling.count then .error (.tooManyNames filling.count) else .ok filling.table

/-- All codes with their names, in the order of the codes. -/
def entries (table : OpcodeTable) : List (Code × Text) :=
  (List.finRange 256).map fun c => (c, table.name c)

/-! ### Names by code -/

@[simp] theorem name_ofFunction (f : Code → Text) (c : Code) : (ofFunction f).name c = f c := by
  simp [ofFunction, name]

@[simp] theorem name_unused (c : Code) : unused.name c = placeholder c := name_ofFunction _ c

theorem name_store (table : OpcodeTable) (c c' : Code) (name : Text) :
    (table.store c name).name c' = if c = c' then name else table.name c' := by
  simp only [store, OpcodeTable.name, Fin.getElem_fin, Vector.getElem_set, Fin.ext_iff]

/-! ### The table of all instructions -/

theorem name_foldl_store_of_forall_ne {ops : List Opcode} {c : Code}
    (h : ∀ op ∈ ops, op.code ≠ c) (table : OpcodeTable) :
    (ops.foldl (fun table op => table.store op.code op.name) table).name c = table.name c := by
  induction ops generalizing table with
  | nil => rfl
  | cons op ops ih =>
      rw [List.foldl_cons, ih fun op' hmem => h op' (List.mem_cons_of_mem _ hmem), name_store,
        if_neg (h op (List.mem_cons_self ..))]

theorem name_foldl_store_of_mem {ops : List Opcode} {op : Opcode} (h : op ∈ ops)
    (table : OpcodeTable) :
    (ops.foldl (fun table op => table.store op.code op.name) table).name op.code = op.name := by
  induction ops generalizing table with
  | nil => cases h
  | cons first ops ih =>
      rw [List.foldl_cons]
      by_cases hmem : op ∈ ops
      · exact ih hmem _
      · -- no later instruction has this code, because no other instruction has it
        have hlater : ∀ op' ∈ ops, op'.code ≠ op.code := by
          intro op' hop' hcode
          exact hmem (Opcode.code_injective hcode ▸ hop')
        rw [name_foldl_store_of_forall_ne hlater, name_store]
        rcases List.mem_cons.1 h with rfl | hrest
        · exact if_pos rfl
        · exact absurd hrest hmem

/-- The code of an instruction has its name. -/
theorem name_python_code (op : Opcode) : python.name op.code = op.name :=
  name_foldl_store_of_mem (Opcode.mem_all op) unused

/-- The other codes keep their placeholders. -/
theorem name_python_of_unused {c : Code} (h : Opcode.ofCode? c = none) :
    python.name c = placeholder c := by
  have hne : ∀ op ∈ Opcode.all, op.code ≠ c := by
    rintro op - rfl
    rw [Opcode.ofCode?_code] at h
    cases h
  rw [python, name_foldl_store_of_forall_ne hne, name_unused]

/-! ### Filling -/

@[simp] theorem count_add (filling : Filling) (name : Text) :
    (filling.add name).count = filling.count + 1 := rfl

/-- Every name counts, also when there is no code left for it. -/
theorem count_foldl_add (names : List Text) (filling : Filling) :
    (names.foldl Filling.add filling).count = filling.count + names.length := by
  induction names generalizing filling with
  | nil => rfl
  | cons name names ih =>
      rw [List.foldl_cons, ih, count_add, List.length_cons]
      omega

theorem name_add (filling : Filling) (name : Text) (c : Code) :
    (filling.add name).table.name c =
      if filling.count = c.val then name else filling.table.name c := by
  unfold Filling.add
  by_cases hroom : filling.count < size
  · rw [dif_pos hroom, name_store]
    simp only [Fin.ext_iff]
  · have hne : filling.count ≠ c.val := by
      have hc : c.val < size := c.isLt
      omega
    rw [dif_neg hroom, if_neg hne]

/-- Names that come later do not touch the codes in front of them. -/
theorem name_foldl_add (names : List Text) (filling : Filling) (c : Code) :
    (names.foldl Filling.add filling).table.name c =
      if c.val < filling.count then filling.table.name c
      else (names[c.val - filling.count]?).getD (filling.table.name c) := by
  induction names generalizing filling with
  | nil => simp
  | cons name names ih =>
      rw [List.foldl_cons, ih, name_add, count_add]
      -- a code below the count is done, the code at the count takes this name, the others wait
      rcases Nat.lt_trichotomy c.val filling.count with hlt | heq | hgt
      · rw [if_pos (by omega), if_neg (by omega), if_pos hlt]
      · rw [if_pos (by omega), if_pos heq.symm, if_neg (by omega), heq, Nat.sub_self]
        rfl
      · have hindex : c.val - filling.count = c.val - (filling.count + 1) + 1 := by omega
        rw [if_neg (by omega), if_neg (by omega), if_neg (by omega), hindex,
          List.getElem?_cons_succ]

theorem count_fill (names : List Text) : (fill names).count = names.length := by
  rw [fill, count_foldl_add, Nat.zero_add]

/-- What a table holds when some names have come: those for which there is a code, and behind them
placeholders. -/
theorem name_fill (names : List Text) (c : Code) :
    (fill names).table.name c = (names[c.val]?).getD (placeholder c) := by
  rw [fill, name_foldl_add, if_neg (Nat.not_lt_zero _), Nat.sub_zero, name_unused]

/-! ### Tables made from names -/

theorem ofNames_of_le {names : List Text} (h : names.length ≤ size) :
    ofNames names = .ok (fill names).table := by
  rw [ofNames, count_fill, if_neg (Nat.not_lt.2 h)]

theorem ofNames_of_lt {names : List Text} (h : size < names.length) :
    ofNames names = .error (.tooManyNames names.length) := by
  rw [ofNames, count_fill, if_pos h]

theorem isOk_ofNames_iff {names : List Text} :
    (∃ table, ofNames names = .ok table) ↔ names.length ≤ size := by
  constructor
  · rintro ⟨table, htable⟩
    refine Nat.not_lt.1 fun hmore => ?_
    rw [ofNames_of_lt hmore] at htable
    cases htable
  · intro hle
    exact ⟨_, ofNames_of_le hle⟩

theorem name_ofNames {names : List Text} {table : OpcodeTable} (h : ofNames names = .ok table)
    (c : Code) : table.name c = (names[c.val]?).getD (placeholder c) := by
  rw [ofNames_of_le (isOk_ofNames_iff.1 ⟨table, h⟩)] at h
  rw [← Except.ok.inj h, name_fill]

end OpcodeTable

end OpcodeCatalog
