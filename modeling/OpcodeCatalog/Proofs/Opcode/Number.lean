import Mathlib.Algebra.Group.Int.Defs
import OpcodeCatalog.Opcode.Number
import OpcodeCatalog.OpcodeTable

/-!
# Numbers on the way to a code

A number of any width stands for an instruction exactly if it is the code of that instruction.  Two
things might make another number look like a code: a wide number loses its upper bits when it is
brought into a register, and an unsigned register is read as a signed one.  The first is caught by
comparing the register with the number, and the second only makes large numbers negative, which no
code is.

Main definitions:

* `IntegerFormat.Holds` — the numbers of a format.

Main results:

* `Integer.toInt_ofInt` — a number that a format holds keeps its value there;
* `Opcode.ofInteger?_eq_some_iff` — **a number stands for an instruction exactly if it is its
  code**;
* `Opcode.ofInteger?_exact` — so the format of a number does not matter, and numbers of one byte
  stand for the instructions that have a name in the table.
-/

set_option autoImplicit false

namespace OpcodeCatalog

/-! ### The numbers of a format -/

/-- Whether the format has the number.  Half of the numbers of a signed format are negative. -/
def IntegerFormat.Holds (format : IntegerFormat) (v : Int) : Prop :=
  if format.signed then -(2 ^ format.width : Int) ≤ 2 * v ∧ 2 * v < 2 ^ format.width
  else 0 ≤ v ∧ v < 2 ^ format.width

namespace Integer

variable {format : IntegerFormat}

theorem toInt_of_signed (h : format.signed = true) (n : Integer format) :
    n.toInt = n.bits.toInt := if_pos h

theorem toInt_of_unsigned (h : format.signed = false) (n : Integer format) :
    n.toInt = n.bits.toNat := if_neg (by simp [h])

/-- A number that a format holds keeps its value there. -/
theorem toInt_ofInt {v : Int} (h : format.Holds v) : (ofInt format v).toInt = v := by
  unfold IntegerFormat.Holds at h
  cases hsigned : format.signed with
  | true =>
      rw [if_pos hsigned] at h
      obtain ⟨hlow, hhigh⟩ := h
      rw [toInt_of_signed hsigned, ofInt, BitVec.toInt_ofInt]
      apply Int.bmod_eq_of_le_mul_two <;> push_cast <;> omega
  | false =>
      rw [if_neg (by simp [hsigned])] at h
      obtain ⟨hlow, hhigh⟩ := h
      rw [toInt_of_unsigned hsigned, ofInt, BitVec.toNat_ofInt, Int.emod_eq_of_lt hlow (by
        push_cast
        exact hhigh), Int.toNat_of_nonneg hlow]

/-- The format has exactly the numbers in its range. -/
theorem exists_toInt_eq_iff {v : Int} :
    (∃ n : Integer format, n.toInt = v) ↔ format.Holds v := by
  constructor
  · rintro ⟨n, rfl⟩
    unfold IntegerFormat.Holds
    cases hsigned : format.signed with
    | true =>
        rw [if_pos rfl, toInt_of_signed hsigned]
        exact ⟨BitVec.le_two_mul_toInt, BitVec.two_mul_toInt_lt⟩
    | false =>
        rw [if_neg (by simp), toInt_of_unsigned hsigned]
        have hlt := n.bits.isLt
        exact ⟨by omega, by exact_mod_cast hlt⟩
  · intro h
    exact ⟨ofInt format v, toInt_ofInt h⟩

/-! ### Registers -/

/-- A register that is read as a signed number has a code as its value exactly if it has the code as
its value when it is read as an unsigned one. -/
theorem toInt_eq_code_iff (r : BitVec 64) (c : Code) : r.toInt = c.val ↔ r.toNat = c.val := by
  have hc := c.isLt
  have hr := r.isLt
  rw [BitVec.toInt_eq_toNat_cond]
  split <;> omega

/-- A small number is not changed when its upper bits are cut off. -/
theorem toInt_signExtend_of_eq_code {width : Nat} {x : BitVec width} {c : Code}
    (h : x.toInt = c.val) : (x.signExtend 64).toInt = x.toInt := by
  rcases Nat.le_total width 64 with hnarrow | hwide
  · exact BitVec.toInt_signExtend_of_le hnarrow
  · -- cutting off takes the remainder by the size of the register, and a code is its own remainder
    have hc := c.isLt
    rw [BitVec.toInt_signExtend, Nat.min_eq_left hwide, h]
    apply Int.bmod_eq_of_le_mul_two <;> omega

/-- **The register of a number holds a code exactly if the number is that code.** -/
theorem exists_register_iff (n : Integer format) (c : Code) :
    (∃ r, n.register? = some r ∧ r.toInt = c.val) ↔ n.toInt = c.val := by
  unfold register?
  cases hsigned : format.signed with
  | true =>
      rw [toInt_of_signed hsigned]
      constructor
      · rintro ⟨r, hr, hcode⟩
        simp only [if_true, Option.ite_none_right_eq_some, Option.some.injEq] at hr
        obtain ⟨hkept, rfl⟩ := hr
        rw [← hkept, hcode]
      · intro hcode
        have hkept := toInt_signExtend_of_eq_code hcode
        exact ⟨n.bits.signExtend 64, by simp [hkept], hkept.trans hcode⟩
  | false =>
      rw [toInt_of_unsigned hsigned]
      constructor
      · rintro ⟨r, hr, hcode⟩
        simp only [Bool.false_eq_true, if_false, Option.ite_none_right_eq_some,
          Option.some.injEq] at hr
        obtain ⟨hkept, rfl⟩ := hr
        rw [← hkept, (toInt_eq_code_iff _ c).1 hcode]
      · intro hcode
        have hc := c.isLt
        have hkept : (n.bits.setWidth 64).toNat = n.bits.toNat := by
          rw [BitVec.toNat_setWidth]
          omega
        refine ⟨n.bits.setWidth 64, by simp [hkept], (toInt_eq_code_iff _ c).2 ?_⟩
        omega

end Integer

namespace Opcode

/-! ### Instructions -/

theorem ofRegister?_eq_some_iff {r : BitVec 64} {op : Opcode} :
    ofRegister? r = some op ↔ r.toInt = op.code.val := by
  constructor
  · intro h
    have hfound := List.find?_some h
    simp only [beq_iff_eq] at hfound
    exact hfound.symm
  · intro h
    have hsome : (ofRegister? r).isSome = true :=
      List.find?_isSome.2 ⟨op, mem_all op, by simp [h]⟩
    obtain ⟨op', hop'⟩ := Option.isSome_iff_exists.1 hsome
    have hcode := List.find?_some hop'
    simp only [beq_iff_eq] at hcode
    have hsame : op'.code = op.code := Fin.ext (by omega)
    rw [hop', code_injective hsame]

/-- **A number stands for an instruction exactly if it is its code**, whatever its width and whether
it is signed or not. -/
theorem ofInteger?_eq_some_iff {format : IntegerFormat} (n : Integer format) (op : Opcode) :
    ofInteger? n = some op ↔ n.toInt = op.code.val := by
  rw [ofInteger?, Option.bind_eq_some_iff, ← n.exists_register_iff]
  simp only [ofRegister?_eq_some_iff]

/-- Numbers of the same value stand for the same instruction. -/
theorem ofInteger?_congr {format other : IntegerFormat} {n : Integer format} {n' : Integer other}
    (h : n.toInt = n'.toInt) : ofInteger? n = ofInteger? n' := by
  apply Option.ext
  intro op
  rw [ofInteger?_eq_some_iff, ofInteger?_eq_some_iff, h]

/-- A number that is a code stands for what the code stands for. -/
theorem ofInteger?_eq_ofCode? {format : IntegerFormat} {n : Integer format} {c : Code}
    (h : n.toInt = c.val) : ofInteger? n = ofCode? c := by
  apply Option.ext
  intro op
  rw [ofInteger?_eq_some_iff, ofCode?_eq_some_iff, h, Int.natCast_inj, Fin.val_inj, eq_comm]

/-! ### Names in the table -/

theorem head?_name_ne (op : Opcode) : op.name.head? ≠ some '<' := by
  have hall : ∀ op ∈ all, op.name.head? ≠ some '<' := by decide +kernel
  exact hall op (mem_all op)

/-- No instruction is named like a placeholder. -/
theorem name_ne_placeholder (op : Opcode) (c : Code) : op.name ≠ placeholder c := by
  intro h
  exact head?_name_ne op (h ▸ rfl)

/-- A code stands for no instruction exactly if the table has its placeholder. -/
theorem ofCode?_eq_none_iff {c : Code} :
    ofCode? c = none ↔ OpcodeTable.python.name c = placeholder c := by
  constructor
  · exact OpcodeTable.name_python_of_unused
  · intro hname
    cases hop : ofCode? c with
    | none => rfl
    | some op =>
        rw [← ofCode?_eq_some_iff.1 hop, OpcodeTable.name_python_code] at hname
        exact absurd hname (name_ne_placeholder op _)

/-- **Numbers of every format stand for instructions by their value alone.**  A format has all
numbers of its range, and a number of it stands for an instruction exactly if it is the code of that
instruction, so no other number wraps around onto a code.  Numbers of the same value agree, whatever
their formats are.  A number from 0 to 255 stands for what the code stands for, and the table has a
name of an instruction at that code exactly if the number stands for one, and else a placeholder. -/
theorem ofInteger?_exact (format : IntegerFormat) :
    (∀ v, (∃ n : Integer format, n.toInt = v) ↔ format.Holds v) ∧
      (∀ (n : Integer format) op, ofInteger? n = some op ↔ n.toInt = op.code.val) ∧
      (∀ (other : IntegerFormat) (n : Integer format) (n' : Integer other),
        n.toInt = n'.toInt → ofInteger? n = ofInteger? n') ∧
      ∀ (n : Integer format) (c : Code), n.toInt = c.val →
        ofInteger? n = ofCode? c ∧
        (∀ op, ofInteger? n = some op → OpcodeTable.python.name c = op.name) ∧
        ((∃ op, ofInteger? n = some op) ↔ ∃ op : Opcode, OpcodeTable.python.name c = op.name) ∧
        (ofInteger? n = none ↔ OpcodeTable.python.name c = placeholder c) := by
  refine ⟨fun v => Integer.exists_toInt_eq_iff, ofInteger?_eq_some_iff,
    fun other n n' => ofInteger?_congr, ?_⟩
  intro n c hvalue
  have hname : ∀ op, ofCode? c = some op → OpcodeTable.python.name c = op.name := by
    intro op hop
    rw [← ofCode?_eq_some_iff.1 hop, OpcodeTable.name_python_code]
  rw [ofInteger?_eq_ofCode? hvalue]
  refine ⟨rfl, hname, ?_, ofCode?_eq_none_iff⟩
  constructor
  · rintro ⟨op, hop⟩
    exact ⟨op, hname op hop⟩
  · rintro ⟨op, hop⟩
    rw [← Option.isSome_iff_exists, Option.isSome_iff_ne_none, ne_eq, ofCode?_eq_none_iff, hop]
    exact name_ne_placeholder op c

/-- Numbers that would look like the codes 1 and 90 if they were cut off, and 90 in the least and in
the greatest width. -/
theorem ofInteger?_exact_near_wrap :
    (∀ op, ofInteger? (.ofInt ⟨false, 128⟩ (2 ^ 64 + 1)) ≠ some op) ∧
      (∀ op, ofInteger? (.ofInt ⟨false, 64⟩ (2 ^ 64 - 166)) ≠ some op) ∧
      (Integer.ofInt ⟨true, 8⟩ 90).toInt = (Integer.ofInt ⟨false, 128⟩ 90).toInt ∧
      ofInteger? (.ofInt ⟨true, 8⟩ 90) = ofInteger? (.ofInt ⟨false, 128⟩ 90) ∧
      (Integer.ofInt ⟨true, 8⟩ 90).toInt = (90 : Code).val ∧
      OpcodeTable.python.name 90 = Opcode.storeName.name := by
  have hwide : (Integer.ofInt ⟨false, 128⟩ (2 ^ 64 + 1)).toInt = 2 ^ 64 + 1 := by decide
  have hlarge : (Integer.ofInt ⟨false, 64⟩ (2 ^ 64 - 166)).toInt = 2 ^ 64 - 166 := by decide
  have hsame : (Integer.ofInt ⟨true, 8⟩ 90).toInt = (Integer.ofInt ⟨false, 128⟩ 90).toInt := by
    decide
  have hcode : (Integer.ofInt ⟨true, 8⟩ 90).toInt = (90 : Code).val := by decide
  have hexact := ofInteger?_exact ⟨true, 8⟩
  refine ⟨?_, ?_, hsame, hexact.2.2.1 _ _ _ hsame, hcode, ?_⟩
  · intro op hop
    have hop := ((ofInteger?_exact ⟨false, 128⟩).2.1 _ op).1 hop
    have hlt := op.code.isLt
    omega
  · intro op hop
    have hop := ((ofInteger?_exact ⟨false, 64⟩).2.1 _ op).1 hop
    have hlt := op.code.isLt
    omega
  · exact (hexact.2.2.2 _ 90 hcode).2.1 .storeName ((hexact.2.1 _ _).2 hcode)

end Opcode

end OpcodeCatalog
