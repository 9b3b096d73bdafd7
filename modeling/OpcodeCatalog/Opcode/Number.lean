import OpcodeCatalog.Opcode

/-!
# Opcodes from machine numbers

A code may arrive as a number of any machine format.  It is brought into a register of 64 bits
first, and the register, read as a signed number, is compared with the codes.  A number that has no
register stands for no instruction, so nothing wraps around onto a code.

Main definitions:

* `IntegerFormat`, `Integer` — integers of a fixed width, signed or not;
* `Integer.register?` — the register of an integer;
* `Binary64` — floating-point numbers of 64 bits, as their bits;
* `Binary64.truncate?` — such a number without its fraction;
* `Opcode.ofInteger?`, `Opcode.ofBinary64?` — the instruction whose code a number is.
-/

set_option autoImplicit false

namespace OpcodeCatalog

/-- A format of integers: two's complement if signed, and a number of bits. -/
structure IntegerFormat where
  signed : Bool
  width : Nat
  deriving DecidableEq

/-- A number of the given format. -/
structure Integer (format : IntegerFormat) where
  bits : BitVec format.width

namespace Integer

variable {format : IntegerFormat}

/-- The number as an integer. -/
def toInt (n : Integer format) : Int :=
  if format.signed then n.bits.toInt else n.bits.toNat

/-- The number of this format that is `v` modulo the size of the format. -/
def ofInt (format : IntegerFormat) (v : Int) : Integer format := ⟨BitVec.ofInt format.width v⟩

/-- The number in 64 bits, extended by its sign, or by zeros if it has none.  A number that does not
keep its value has no register. -/
def register? (n : Integer format) : Option (BitVec 64) :=
  if format.signed then
    let r := n.bits.signExtend 64
    if r.toInt = n.bits.toInt then some r else none
  else
    let r := n.bits.setWidth 64
    if r.toNat = n.bits.toNat then some r else none

end Integer

/-- A floating-point number of 64 bits. -/
structure Binary64 where
  bits : BitVec 64

namespace Binary64

/-- Whether the number is below zero, or the negative zero. -/
def negative (x : Binary64) : Bool := x.bits.msb

/-- The field of the exponent. -/
def exponent (x : Binary64) : Nat := (x.bits.extractLsb' 52 11).toNat

/-- The field of the fraction. -/
def fraction (x : Binary64) : Nat := (x.bits.extractLsb' 0 52).toNat

/-- The absolute value without its fraction: the significand, shifted by the exponent.  Numbers
with the least exponent have no leading one in front of their fraction. -/
def magnitude (x : Binary64) : Nat :=
  let significand := if x.exponent = 0 then x.fraction else (1 <<< 52) + x.fraction
  let exponent := max x.exponent 1
  if 1075 ≤ exponent then significand <<< (exponent - 1075)
  else significand >>> (1075 - exponent)

/-- The number rounded toward zero, unless it is infinite or no number. -/
def truncate? (x : Binary64) : Option Int :=
  if x.exponent = 2047 then none
  else if x.negative then some (-(x.magnitude : Int))
  else some x.magnitude

/-- The number in 64 bits after truncation, if it keeps its value there as a signed or as an
unsigned number. -/
def register? (x : Binary64) : Option (BitVec 64) :=
  match x.truncate? with
  | none => none
  | some v =>
    let r := BitVec.ofInt 64 v
    if r.toInt = v ∨ (r.toNat : Int) = v then some r else none

end Binary64

namespace Opcode

/-- The instruction whose code the register holds, read as a signed number. -/
def ofRegister? (r : BitVec 64) : Option Opcode :=
  all.find? (fun op => (op.code.val : Int) == r.toInt)

/-- The instruction whose code is the integer. -/
def ofInteger? {format : IntegerFormat} (n : Integer format) : Option Opcode :=
  n.register?.bind ofRegister?

/-- The instruction whose code is the number without its fraction. -/
def ofBinary64? (x : Binary64) : Option Opcode := x.register?.bind ofRegister?

end Opcode

end OpcodeCatalog
