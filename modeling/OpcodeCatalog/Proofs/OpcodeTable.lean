import Mathlib.Data.List.FinRange
import OpcodeCatalog.OpcodeTable

/-!
# Tables made from names

The filling of a table goes on counting when there is no code left, so the number of all names
decides whether they fit.  It stores a name only while the count is below the number of codes, and
storing does not change how many names a table has.  So the same filling on a plain list of names,
where an index may be out of bounds, never meets such an index.

Main definitions:

* `OpcodeTable.slots` — the names of a table as a plain list;
* `OpcodeTable.ofNamesChecked` — the filling on a plain list, ended by an index out of bounds;
* `OpcodeTable.Numbers` — what holds of a table in which names are numbered by their position.

Main results:

* `OpcodeTable.addChecked_slots` — one name more is stored within bounds;
* `OpcodeTable.ofNamesChecked_eq` — **no index is ever out of bounds**;
* `OpcodeTable.ofNames_numbers_by_position` — **names are numbered by their position if there are at
  most 256, and refused with their number otherwise**.
-/

set_option autoImplicit false

namespace OpcodeCatalog

namespace OpcodeTable

/-! ### Names as a plain list -/

/-- The names of a table as a plain list, whose length its type does not tell. -/
def slots (table : OpcodeTable) : List Text := table.names.toList

@[simp] theorem length_slots (table : OpcodeTable) : table.slots.length = size :=
  Vector.length_toList

/-- The code of a table is an index of the list. -/
theorem getElem?_slots (table : OpcodeTable) (c : Code) :
    table.slots[c.val]? = some (table.name c) := by
  have hc : c.val < table.slots.length := by
    rw [length_slots]
    exact c.isLt
  rw [List.getElem?_eq_getElem hc]
  simp [slots, name]

theorem slots_store (table : OpcodeTable) (c : Code) (name : Text) :
    (table.store c name).slots = table.slots.set c.val name := by
  simp [slots, store, Vector.toList_set]

/-- The list of all placeholders. -/
def unusedSlots : List Text := (List.range size).map fun code => '<' :: Text.decimal code ++ ['>']

theorem slots_unused : unused.slots = unusedSlots := by
  apply List.ext_getElem?
  intro i
  rcases Nat.lt_or_ge i size with hlt | hge
  · have hi := getElem?_slots unused ⟨i, hlt⟩
    rw [name_unused] at hi
    rw [hi, unusedSlots, List.getElem?_map, List.getElem?_range hlt]
    rfl
  · rw [List.getElem?_eq_none (by rwa [length_slots]),
      List.getElem?_eq_none (by simpa [unusedSlots] using hge)]

/-! ### Filling with checked indices -/

/-- The list with another name at an index, unless the index is out of bounds. -/
def storeAt? (slots : List Text) (index : Nat) (name : Text) : Option (List Text) :=
  if index < slots.length then some (slots.set index name) else none

/-- One more name for a list and the number of names that have come. -/
def addChecked (filling : List Text × Nat) (name : Text) : Option (List Text × Nat) :=
  if filling.2 < size then
    (storeAt? filling.1 filling.2 name).map fun slots => (slots, filling.2 + 1)
  else some (filling.1, filling.2 + 1)

/-- The table of some names as a plain list.  There is no result if an index was out of bounds. -/
def ofNamesChecked (names : List Text) : Option (Except Failure (List Text)) :=
  (names.foldlM addChecked (unusedSlots, 0)).map fun filling =>
    if size < filling.2 then .error (.tooManyNames filling.2) else .ok filling.1

/-- One name more is stored within bounds, because a table keeps its number of names. -/
theorem addChecked_slots (filling : Filling) (name : Text) :
    addChecked (filling.table.slots, filling.count) name =
      some ((filling.add name).table.slots, (filling.add name).count) := by
  unfold addChecked Filling.add
  by_cases hroom : filling.count < size
  · rw [if_pos hroom, dif_pos hroom, storeAt?, length_slots, if_pos hroom, slots_store]
    rfl
  · rw [if_neg hroom, dif_neg hroom]

theorem foldlM_addChecked_slots (names : List Text) (filling : Filling) :
    names.foldlM addChecked (filling.table.slots, filling.count) =
      some ((names.foldl Filling.add filling).table.slots,
        (names.foldl Filling.add filling).count) := by
  induction names generalizing filling with
  | nil => rfl
  | cons name names ih =>
      rw [List.foldlM_cons, addChecked_slots, List.foldl_cons]
      exact ih (filling.add name)

/-- **No index is ever out of bounds**, however many names come, and the result is the same. -/
theorem ofNamesChecked_eq (names : List Text) :
    ofNamesChecked names = some ((ofNames names).map slots) := by
  have hfill : names.foldlM addChecked (unusedSlots, 0) =
      some ((fill names).table.slots, (fill names).count) := by
    rw [← slots_unused]
    exact foldlM_addChecked_slots names ⟨unused, 0⟩
  rw [ofNamesChecked, hfill, Option.map_some, ofNames]
  by_cases hmore : size < (fill names).count
  · rw [if_pos hmore, if_pos hmore]
    rfl
  · rw [if_neg hmore, if_neg hmore]
    rfl

/-! ### The table of some names -/

/-- What holds of a table in which names are numbered by their position. -/
structure Numbers (names : List Text) (table : OpcodeTable) : Prop where
  /-- There are as many names as codes. -/
  length_eq : table.slots.length = 256
  /-- The names stand at their positions. -/
  name_of_lt : ∀ (c : Code) (h : c.val < names.length), table.name c = names[c.val]
  /-- The other codes have their decimal number in angle brackets. -/
  name_of_le : ∀ c : Code, names.length ≤ c.val →
    table.name c = '<' :: Text.decimal c.val ++ ['>']
  /-- Going through the table meets every code once, in order. -/
  codes_eq : table.entries.map (·.1.val) = List.range 256
  /-- Every code is met with its name. -/
  entry_eq : ∀ entry ∈ table.entries, entry.2 = table.name entry.1

theorem codes_entries (table : OpcodeTable) :
    table.entries.map (·.1.val) = List.range 256 := by
  rw [entries, List.map_map, ← List.map_coe_finRange_eq_range]
  rfl

theorem snd_of_mem_entries {table : OpcodeTable} {entry : Code × Text}
    (h : entry ∈ table.entries) : entry.2 = table.name entry.1 := by
  obtain ⟨c, -, rfl⟩ := List.mem_map.1 h
  rfl

theorem numbers_of_ofNames {names : List Text} {table : OpcodeTable}
    (h : ofNames names = .ok table) : Numbers names table where
  length_eq := length_slots table
  name_of_lt c hlt := by rw [name_ofNames h, List.getElem?_eq_getElem hlt, Option.getD_some]
  name_of_le c hle := by
    rw [name_ofNames h, List.getElem?_eq_none hle, Option.getD_none, placeholder]
  codes_eq := codes_entries table
  entry_eq _ := snd_of_mem_entries

/-- **Names are numbered by their position** if there are at most 256 of them.  More names are
refused, and the number of all of them is reported.  No index is out of bounds, neither while the
table is filled nor when a name is looked up by its code. -/
theorem ofNames_numbers_by_position (names : List Text) :
    ((∃ table, ofNames names = .ok table) ↔ names.length ≤ 256) ∧
      (if names.length ≤ 256 then ∃ table, ofNames names = .ok table ∧ Numbers names table
        else ofNames names = .error (.tooManyNames names.length)) ∧
      ofNamesChecked names = some ((ofNames names).map slots) ∧
      ∀ (table : OpcodeTable) (c : Code), table.slots[c.val]? = some (table.name c) := by
  refine ⟨isOk_ofNames_iff, ?_, ofNamesChecked_eq names, getElem?_slots⟩
  by_cases hle : names.length ≤ 256
  · obtain ⟨table, htable⟩ := isOk_ofNames_iff.2 hle
    rw [if_pos hle]
    exact ⟨table, htable, numbers_of_ofNames htable⟩
  · rw [if_neg hle]
    exact ofNames_of_lt (Nat.not_le.1 hle)

end OpcodeTable

end OpcodeCatalog
