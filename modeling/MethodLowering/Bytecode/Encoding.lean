import MethodLowering.Bytecode.Instruction
import MethodLowering.Bytecode.Opcode
import MethodLowering.Bytecode.SymbolTable

/-!
# Encoding of instructions

An instruction is written as one operation: an opcode with at most one operand, in the shortest form that holds the
operand. A writer appends the bytes and keeps the symbol table.

* `Op`, `Op.bytes` -- an operation and its bytes, operands with the high byte first;
* `Op.load`, `Op.store`, `Op.int`, `Op.invoke` -- the operation of a local slot, a constant, a call;
* `Writer` -- the bytes so far and the symbol table; `Writer.put` adds bytes, `Writer.write` an instruction,
  `Writer.writeAll` instructions up to the first fault;
* `CodeUnit.encode` -- the bytes of a unit, or its fault, with the table left behind.
-/

namespace MethodLowering

/-- What may be wrong with an instruction to be written. -/
inductive EncodeFault where
  /-- A constant needs more than 16 bits. -/
  | intOutOfRange (value : Int32)
  deriving DecidableEq, Repr

/-- The text of a fault. -/
def EncodeFault.message : EncodeFault → String
  | intOutOfRange value => s!"Int constant {value.toInt} out of sipush range"

/-! ## 1. Operations and their bytes -/

/-- The two bytes of a word, the high one first. -/
def wordBytes (word : UInt16) : List UInt8 :=
  [(word >>> 8).toUInt8, word.toUInt8]

/-- One operation of the byte code: an opcode, its raw operand if it has one, and whether the prefix for wide locals
stands in front. -/
structure Op where
  opcode : Opcode
  operand : Option UInt16 := none
  wide : Bool := false
  deriving DecidableEq, Repr

namespace Op

/-- The operand bytes behind an opcode. -/
def operandBytes (op : Op) : List UInt8 :=
  match op.operand with
  | none => []
  | some value => if op.wide ∨ op.opcode.operandSize = 2 then wordBytes value else [value.toUInt8]

/-- The bytes of an operation. -/
def bytes (op : Op) : List UInt8 :=
  (if op.wide then [Opcode.wide.toByte] else []) ++ op.opcode.toByte :: op.operandBytes

/-- An operation on a local slot: a short opcode for the slots 0 to 3, one operand byte up to slot 255, the wide form
above. -/
def onSlot (short0 short1 short2 short3 long : Opcode) (slot : UInt16) : Op :=
  match slot.toNat with
  | 0 => { opcode := short0 }
  | 1 => { opcode := short1 }
  | 2 => { opcode := short2 }
  | 3 => { opcode := short3 }
  | n => { opcode := long, operand := some slot, wide := decide (255 < n) }

/-- Pushes a local slot. -/
def load : UInt16 → Op :=
  onSlot .aload0 .aload1 .aload2 .aload3 .aload

/-- Pops into a local slot. -/
def store : UInt16 → Op :=
  onSlot .astore0 .astore1 .astore2 .astore3 .astore

/-- The opcode that pushes a small constant by itself. -/
def constantOpcode? : Int → Option Opcode
  | -1 => some .iconstM1
  | 0 => some .iconst0
  | 1 => some .iconst1
  | 2 => some .iconst2
  | 3 => some .iconst3
  | 4 => some .iconst4
  | 5 => some .iconst5
  | _ => none

/-- Pushes a constant in the fewest bytes; a constant beyond 16 bits has no such form. -/
def int (value : Int32) : Except EncodeFault Op :=
  let n := value.toInt
  match constantOpcode? n with
  | some opcode => .ok { opcode }
  | none =>
    if -128 ≤ n ∧ n ≤ 127 then
      .ok { opcode := .bipush, operand := some (UInt16.ofNat (n % 256).toNat) }
    else if -32768 ≤ n ∧ n ≤ 32767 then
      .ok { opcode := .sipush, operand := some (UInt16.ofNat (n % 65536).toNat) }
    else
      .error (.intOutOfRange value)

/-- Calls the method with an index of the symbol table. -/
def invoke (opcode : Opcode) (index : UInt16) : Op :=
  { opcode, operand := some index }

end Op

/-- **The operation of an instruction**, or its fault, with the table in which the method it calls has been interned. -/
def Instruction.op (table : SymbolTable) : Instruction → Except EncodeFault Op × SymbolTable
  | loadLocal slot => (.ok (.load slot), table)
  | storeLocal slot => (.ok (.store slot), table)
  | pushInt value => (Op.int value, table)
  | pushNull => (.ok { opcode := .aconstNull }, table)
  | arrayLoad => (.ok { opcode := .aaload }, table)
  | pop => (.ok { opcode := .pop }, table)
  | invokeSpecial method =>
    let (index, table) := table.intern method
    (.ok (.invoke .invokespecial index), table)
  | invokeStatic method =>
    let (index, table) := table.intern method
    (.ok (.invoke .invokestatic index), table)
  | invokeVirtual method =>
    let (index, table) := table.intern method
    (.ok (.invoke .invokevirtual index), table)
  | returnValue => (.ok { opcode := .areturn }, table)
  | returnVoid => (.ok { opcode := .returnVoid }, table)
  | nop => (.ok { opcode := .nop }, table)

/-! ## 2. The writer -/

/-- The bytes written so far and the methods they call. -/
structure Writer where
  bytes : Array UInt8 := #[]
  symbols : SymbolTable := {}

namespace Writer

/-- The number of bytes written. -/
def offset (writer : Writer) : Nat :=
  writer.bytes.size

/-- Appends bytes. -/
def put (writer : Writer) (bytes : List UInt8) : Writer :=
  { writer with bytes := writer.bytes ++ bytes }

/-- Appends an instruction, or gives the fault for which it cannot be written. -/
def write : Writer → Instruction → Writer × Option EncodeFault
  | ⟨bytes, symbols⟩, instruction =>
    match instruction.op symbols with
    | (.ok op, symbols) => (⟨bytes ++ op.bytes, symbols⟩, none)
    | (.error fault, symbols) => (⟨bytes, symbols⟩, some fault)

/-- Appends instructions in order, up to the first that cannot be written. -/
def writeAll : List Instruction → Writer → Writer × Option EncodeFault
  | [], writer => (writer, none)
  | instruction :: rest, writer =>
    match writer.write instruction with
    | (writer, none) => writeAll rest writer
    | (writer, some fault) => (writer, some fault)

end Writer

/-- **The bytes of a code unit**, with the symbol table behind it. A unit that cannot be written leaves in the table
what its instructions before the fault call. -/
def CodeUnit.encode (unit : CodeUnit) (symbols : SymbolTable) : Except EncodeFault (Array UInt8) × SymbolTable :=
  match Writer.writeAll unit.instructions { symbols } with
  | (writer, none) => (.ok writer.bytes, writer.symbols)
  | (writer, some fault) => (.error fault, writer.symbols)

end MethodLowering
