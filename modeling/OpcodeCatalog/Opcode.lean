import OpcodeCatalog.Text.Basic

/-!
# The opcodes of CPython 2.6

The instructions of the virtual machine of CPython 2.6, with the byte that stands for each in
compiled code and the name its disassembler gives it.  The codes are sparse: of the 256 bytes, 113
stand for an instruction.

Main definitions:

* `Code` — the 256 possible codes;
* `Opcode` — the instructions;
* `Opcode.code`, `Opcode.name` — the code and the name of an instruction;
* `Opcode.ofCode?` — the instruction that a code stands for;
* `Opcode.hasArgument` — whether an argument of 16 bits follows.
-/

set_option autoImplicit false

namespace OpcodeCatalog

/-- A byte in the place of an instruction. -/
abbrev Code := Fin 256

/-- The instructions, in the order of their codes. -/
inductive Opcode where
  | stopCode | popTop | rotTwo | rotThree | dupTop | rotFour | nop | unaryPositive | unaryNegative
  | unaryNot | unaryConvert | unaryInvert | listAppend | binaryPower | binaryMultiply
  | binaryDivide | binaryModulo | binaryAdd | binarySubtract | binarySubscr | binaryFloorDivide
  | binaryTrueDivide | inplaceFloorDivide | inplaceTrueDivide | slice0 | slice1 | slice2 | slice3
  | storeSlice0 | storeSlice1 | storeSlice2 | storeSlice3 | deleteSlice0 | deleteSlice1
  | deleteSlice2 | deleteSlice3 | storeMap | inplaceAdd | inplaceSubtract | inplaceMultiply
  | inplaceDivide | inplaceModulo | storeSubscr | deleteSubscr | binaryLshift | binaryRshift
  | binaryAnd | binaryXor | binaryOr | inplacePower | getIter | printExpr | printItem
  | printNewline | printItemTo | printNewlineTo | inplaceLshift | inplaceRshift | inplaceAnd
  | inplaceXor | inplaceOr | breakLoop | withCleanup | loadLocals | returnValue | importStar
  | execStmt | yieldValue | popBlock | endFinally | buildClass | storeName | deleteName
  | unpackSequence | forIter | storeAttr | deleteAttr | storeGlobal | deleteGlobal | dupTopx
  | loadConst | loadName | buildTuple | buildList | buildMap | loadAttr | compareOp | importName
  | importFrom | jumpForward | jumpIfFalse | jumpIfTrue | jumpAbsolute | loadGlobal | continueLoop
  | setupLoop | setupExcept | setupFinally | loadFast | storeFast | deleteFast | raiseVarargs
  | callFunction | makeFunction | buildSlice | makeClosure | loadClosure | loadDeref | storeDeref
  | callFunctionVar | callFunctionKw | callFunctionVarKw | extendedArg
  deriving DecidableEq

namespace Opcode

/-- How an instruction is written: its byte, and its name for a reader. -/
structure Spelling where
  code : Code
  name : String

/-- The spelling of every instruction.  A name with a sign, such as `SLICE+1`, tells the forms of
one instruction apart. -/
def spelling : Opcode → Spelling
  | .stopCode => ⟨0, "STOP_CODE"⟩
  | .popTop => ⟨1, "POP_TOP"⟩
  | .rotTwo => ⟨2, "ROT_TWO"⟩
  | .rotThree => ⟨3, "ROT_THREE"⟩
  | .dupTop => ⟨4, "DUP_TOP"⟩
  | .rotFour => ⟨5, "ROT_FOUR"⟩
  | .nop => ⟨9, "NOP"⟩
  | .unaryPositive => ⟨10, "UNARY_POSITIVE"⟩
  | .unaryNegative => ⟨11, "UNARY_NEGATIVE"⟩
  | .unaryNot => ⟨12, "UNARY_NOT"⟩
  | .unaryConvert => ⟨13, "UNARY_CONVERT"⟩
  | .unaryInvert => ⟨15, "UNARY_INVERT"⟩
  | .listAppend => ⟨18, "LIST_APPEND"⟩
  | .binaryPower => ⟨19, "BINARY_POWER"⟩
  | .binaryMultiply => ⟨20, "BINARY_MULTIPLY"⟩
  | .binaryDivide => ⟨21, "BINARY_DIVIDE"⟩
  | .binaryModulo => ⟨22, "BINARY_MODULO"⟩
  | .binaryAdd => ⟨23, "BINARY_ADD"⟩
  | .binarySubtract => ⟨24, "BINARY_SUBTRACT"⟩
  | .binarySubscr => ⟨25, "BINARY_SUBSCR"⟩
  | .binaryFloorDivide => ⟨26, "BINARY_FLOOR_DIVIDE"⟩
  | .binaryTrueDivide => ⟨27, "BINARY_TRUE_DIVIDE"⟩
  | .inplaceFloorDivide => ⟨28, "INPLACE_FLOOR_DIVIDE"⟩
  | .inplaceTrueDivide => ⟨29, "INPLACE_TRUE_DIVIDE"⟩
  | .slice0 => ⟨30, "SLICE+0"⟩
  | .slice1 => ⟨31, "SLICE+1"⟩
  | .slice2 => ⟨32, "SLICE+2"⟩
  | .slice3 => ⟨33, "SLICE+3"⟩
  | .storeSlice0 => ⟨40, "STORE_SLICE+0"⟩
  | .storeSlice1 => ⟨41, "STORE_SLICE+1"⟩
  | .storeSlice2 => ⟨42, "STORE_SLICE+2"⟩
  | .storeSlice3 => ⟨43, "STORE_SLICE+3"⟩
  | .deleteSlice0 => ⟨50, "DELETE_SLICE+0"⟩
  | .deleteSlice1 => ⟨51, "DELETE_SLICE+1"⟩
  | .deleteSlice2 => ⟨52, "DELETE_SLICE+2"⟩
  | .deleteSlice3 => ⟨53, "DELETE_SLICE+3"⟩
  | .storeMap => ⟨54, "STORE_MAP"⟩
  | .inplaceAdd => ⟨55, "INPLACE_ADD"⟩
  | .inplaceSubtract => ⟨56, "INPLACE_SUBTRACT"⟩
  | .inplaceMultiply => ⟨57, "INPLACE_MULTIPLY"⟩
  | .inplaceDivide => ⟨58, "INPLACE_DIVIDE"⟩
  | .inplaceModulo => ⟨59, "INPLACE_MODULO"⟩
  | .storeSubscr => ⟨60, "STORE_SUBSCR"⟩
  | .deleteSubscr => ⟨61, "DELETE_SUBSCR"⟩
  | .binaryLshift => ⟨62, "BINARY_LSHIFT"⟩
  | .binaryRshift => ⟨63, "BINARY_RSHIFT"⟩
  | .binaryAnd => ⟨64, "BINARY_AND"⟩
  | .binaryXor => ⟨65, "BINARY_XOR"⟩
  | .binaryOr => ⟨66, "BINARY_OR"⟩
  | .inplacePower => ⟨67, "INPLACE_POWER"⟩
  | .getIter => ⟨68, "GET_ITER"⟩
  | .printExpr => ⟨70, "PRINT_EXPR"⟩
  | .printItem => ⟨71, "PRINT_ITEM"⟩
  | .printNewline => ⟨72, "PRINT_NEWLINE"⟩
  | .printItemTo => ⟨73, "PRINT_ITEM_TO"⟩
  | .printNewlineTo => ⟨74, "PRINT_NEWLINE_TO"⟩
  | .inplaceLshift => ⟨75, "INPLACE_LSHIFT"⟩
  | .inplaceRshift => ⟨76, "INPLACE_RSHIFT"⟩
  | .inplaceAnd => ⟨77, "INPLACE_AND"⟩
  | .inplaceXor => ⟨78, "INPLACE_XOR"⟩
  | .inplaceOr => ⟨79, "INPLACE_OR"⟩
  | .breakLoop => ⟨80, "BREAK_LOOP"⟩
  | .withCleanup => ⟨81, "WITH_CLEANUP"⟩
  | .loadLocals => ⟨82, "LOAD_LOCALS"⟩
  | .returnValue => ⟨83, "RETURN_VALUE"⟩
  | .importStar => ⟨84, "IMPORT_STAR"⟩
  | .execStmt => ⟨85, "EXEC_STMT"⟩
  | .yieldValue => ⟨86, "YIELD_VALUE"⟩
  | .popBlock => ⟨87, "POP_BLOCK"⟩
  | .endFinally => ⟨88, "END_FINALLY"⟩
  | .buildClass => ⟨89, "BUILD_CLASS"⟩
  | .storeName => ⟨90, "STORE_NAME"⟩
  | .deleteName => ⟨91, "DELETE_NAME"⟩
  | .unpackSequence => ⟨92, "UNPACK_SEQUENCE"⟩
  | .forIter => ⟨93, "FOR_ITER"⟩
  | .storeAttr => ⟨95, "STORE_ATTR"⟩
  | .deleteAttr => ⟨96, "DELETE_ATTR"⟩
  | .storeGlobal => ⟨97, "STORE_GLOBAL"⟩
  | .deleteGlobal => ⟨98, "DELETE_GLOBAL"⟩
  | .dupTopx => ⟨99, "DUP_TOPX"⟩
  | .loadConst => ⟨100, "LOAD_CONST"⟩
  | .loadName => ⟨101, "LOAD_NAME"⟩
  | .buildTuple => ⟨102, "BUILD_TUPLE"⟩
  | .buildList => ⟨103, "BUILD_LIST"⟩
  | .buildMap => ⟨104, "BUILD_MAP"⟩
  | .loadAttr => ⟨105, "LOAD_ATTR"⟩
  | .compareOp => ⟨106, "COMPARE_OP"⟩
  | .importName => ⟨107, "IMPORT_NAME"⟩
  | .importFrom => ⟨108, "IMPORT_FROM"⟩
  | .jumpForward => ⟨110, "JUMP_FORWARD"⟩
  | .jumpIfFalse => ⟨111, "JUMP_IF_FALSE"⟩
  | .jumpIfTrue => ⟨112, "JUMP_IF_TRUE"⟩
  | .jumpAbsolute => ⟨113, "JUMP_ABSOLUTE"⟩
  | .loadGlobal => ⟨116, "LOAD_GLOBAL"⟩
  | .continueLoop => ⟨119, "CONTINUE_LOOP"⟩
  | .setupLoop => ⟨120, "SETUP_LOOP"⟩
  | .setupExcept => ⟨121, "SETUP_EXCEPT"⟩
  | .setupFinally => ⟨122, "SETUP_FINALLY"⟩
  | .loadFast => ⟨124, "LOAD_FAST"⟩
  | .storeFast => ⟨125, "STORE_FAST"⟩
  | .deleteFast => ⟨126, "DELETE_FAST"⟩
  | .raiseVarargs => ⟨130, "RAISE_VARARGS"⟩
  | .callFunction => ⟨131, "CALL_FUNCTION"⟩
  | .makeFunction => ⟨132, "MAKE_FUNCTION"⟩
  | .buildSlice => ⟨133, "BUILD_SLICE"⟩
  | .makeClosure => ⟨134, "MAKE_CLOSURE"⟩
  | .loadClosure => ⟨135, "LOAD_CLOSURE"⟩
  | .loadDeref => ⟨136, "LOAD_DEREF"⟩
  | .storeDeref => ⟨137, "STORE_DEREF"⟩
  | .callFunctionVar => ⟨140, "CALL_FUNCTION_VAR"⟩
  | .callFunctionKw => ⟨141, "CALL_FUNCTION_KW"⟩
  | .callFunctionVarKw => ⟨142, "CALL_FUNCTION_VAR_KW"⟩
  | .extendedArg => ⟨143, "EXTENDED_ARG"⟩

/-- The byte that stands for the instruction. -/
def code (op : Opcode) : Code := op.spelling.code

/-- The name of the instruction. -/
def name (op : Opcode) : Text := op.spelling.name.toList

/-- All instructions, by rising code. -/
def all : List Opcode :=
  [.stopCode, .popTop, .rotTwo, .rotThree, .dupTop, .rotFour, .nop, .unaryPositive,
   .unaryNegative, .unaryNot, .unaryConvert, .unaryInvert, .listAppend, .binaryPower,
   .binaryMultiply, .binaryDivide, .binaryModulo, .binaryAdd, .binarySubtract, .binarySubscr,
   .binaryFloorDivide, .binaryTrueDivide, .inplaceFloorDivide, .inplaceTrueDivide, .slice0,
   .slice1, .slice2, .slice3, .storeSlice0, .storeSlice1, .storeSlice2, .storeSlice3,
   .deleteSlice0, .deleteSlice1, .deleteSlice2, .deleteSlice3, .storeMap, .inplaceAdd,
   .inplaceSubtract, .inplaceMultiply, .inplaceDivide, .inplaceModulo, .storeSubscr,
   .deleteSubscr, .binaryLshift, .binaryRshift, .binaryAnd, .binaryXor, .binaryOr, .inplacePower,
   .getIter, .printExpr, .printItem, .printNewline, .printItemTo, .printNewlineTo, .inplaceLshift,
   .inplaceRshift, .inplaceAnd, .inplaceXor, .inplaceOr, .breakLoop, .withCleanup, .loadLocals,
   .returnValue, .importStar, .execStmt, .yieldValue, .popBlock, .endFinally, .buildClass,
   .storeName, .deleteName, .unpackSequence, .forIter, .storeAttr, .deleteAttr, .storeGlobal,
   .deleteGlobal, .dupTopx, .loadConst, .loadName, .buildTuple, .buildList, .buildMap, .loadAttr,
   .compareOp, .importName, .importFrom, .jumpForward, .jumpIfFalse, .jumpIfTrue, .jumpAbsolute,
   .loadGlobal, .continueLoop, .setupLoop, .setupExcept, .setupFinally, .loadFast, .storeFast,
   .deleteFast, .raiseVarargs, .callFunction, .makeFunction, .buildSlice, .makeClosure,
   .loadClosure, .loadDeref, .storeDeref, .callFunctionVar, .callFunctionKw, .callFunctionVarKw,
   .extendedArg]

/-- Instructions from this code on are followed by an argument. -/
def firstWithArgument : Code := 90

/-- Whether an argument of 16 bits follows the instruction. -/
def hasArgument (op : Opcode) : Bool := firstWithArgument ≤ op.code

/-- The instruction that a code stands for, if there is one. -/
def ofCode? (c : Code) : Option Opcode := all.find? (fun op => op.code == c)

/-! ### The list of all instructions -/

theorem mem_all (op : Opcode) : op ∈ all := by
  cases op <;> decide

/-- An instruction is found under its code. -/
theorem ofCode?_code (op : Opcode) : ofCode? op.code = some op := by
  cases op <;> decide

/-- A code stands for at most one instruction, and only for the one with that code. -/
theorem ofCode?_eq_some_iff {c : Code} {op : Opcode} : ofCode? c = some op ↔ op.code = c := by
  constructor
  · intro h
    simpa using List.find?_some h
  · rintro rfl
    exact ofCode?_code op

/-- No two instructions share a code. -/
theorem code_injective {op op' : Opcode} (h : op.code = op'.code) : op = op' := by
  have hop := ofCode?_code op
  rw [h, ofCode?_code op'] at hop
  exact (Option.some.inj hop).symm

end Opcode

end OpcodeCatalog
