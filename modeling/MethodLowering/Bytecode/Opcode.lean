/-!
# Opcodes

The operations of the target machine that lowered code may contain, each with its byte, its mnemonic and the number of
operand bytes behind it.

* `Opcode.toByte`, `Opcode.ofByte?` -- the byte of an opcode and the opcode of a byte, inverse to each other
  (`Opcode.ofByte?_toByte`, `Opcode.toByte_of_ofByte?`);
* `Opcode.operandSize` -- how many bytes of operand follow;
* `Opcode.isTerminator` -- whether control flow ends here.
-/

namespace MethodLowering

/-- An operation of the target machine. -/
inductive Opcode where
  | nop
  | aconstNull
  | iconstM1
  | iconst0
  | iconst1
  | iconst2
  | iconst3
  | iconst4
  | iconst5
  | bipush
  | sipush
  | aload
  | aload0
  | aload1
  | aload2
  | aload3
  | aaload
  | astore
  | astore0
  | astore1
  | astore2
  | astore3
  | pop
  | areturn
  | returnVoid
  | invokevirtual
  | invokespecial
  | invokestatic
  | wide
  deriving DecidableEq, Repr

namespace Opcode

/-! ## 1. Opcodes and bytes -/

/-- The byte that stands for an opcode. -/
def toByte : Opcode → UInt8
  | nop => 0x00
  | aconstNull => 0x01
  | iconstM1 => 0x02
  | iconst0 => 0x03
  | iconst1 => 0x04
  | iconst2 => 0x05
  | iconst3 => 0x06
  | iconst4 => 0x07
  | iconst5 => 0x08
  | bipush => 0x10
  | sipush => 0x11
  | aload => 0x19
  | aload0 => 0x2A
  | aload1 => 0x2B
  | aload2 => 0x2C
  | aload3 => 0x2D
  | aaload => 0x32
  | astore => 0x3A
  | astore0 => 0x4B
  | astore1 => 0x4C
  | astore2 => 0x4D
  | astore3 => 0x4E
  | pop => 0x57
  | areturn => 0xB0
  | returnVoid => 0xB1
  | invokevirtual => 0xB6
  | invokespecial => 0xB7
  | invokestatic => 0xB8
  | wide => 0xC4

/-- Every opcode once, in the order of their bytes. -/
def all : List Opcode :=
  [nop, aconstNull, iconstM1, iconst0, iconst1, iconst2, iconst3, iconst4, iconst5, bipush, sipush, aload, aload0,
    aload1, aload2, aload3, aaload, astore, astore0, astore1, astore2, astore3, pop, areturn, returnVoid, invokevirtual,
    invokespecial, invokestatic, wide]

/-- The opcode that a byte stands for, if it stands for one. -/
def ofByte? (byte : UInt8) : Option Opcode :=
  all.find? fun op => op.toByte == byte

/-- The byte of an opcode reads back as that opcode. -/
theorem ofByte?_toByte (op : Opcode) : ofByte? op.toByte = some op := by
  cases op <;> rfl

/-- A byte that reads as an opcode is the byte of that opcode. -/
theorem toByte_of_ofByte? {byte : UInt8} {op : Opcode} (h : ofByte? byte = some op) : op.toByte = byte := by
  unfold ofByte? at h
  have hp := List.find?_some h
  exact eq_of_beq hp

/-! ## 2. What an opcode needs and does -/

/-- The number of operand bytes that follow an opcode; the prefix for wide locals counts as having none of its own. -/
def operandSize : Opcode → Nat
  | bipush | aload | astore => 1
  | sipush | invokevirtual | invokespecial | invokestatic => 2
  | _ => 0

/-- Whether an opcode ends control flow. -/
def isTerminator : Opcode → Bool
  | areturn | returnVoid => true
  | _ => false

/-- The name of an opcode in listings. -/
def mnemonic : Opcode → String
  | nop => "nop"
  | aconstNull => "aconst_null"
  | iconstM1 => "iconst_m1"
  | iconst0 => "iconst_0"
  | iconst1 => "iconst_1"
  | iconst2 => "iconst_2"
  | iconst3 => "iconst_3"
  | iconst4 => "iconst_4"
  | iconst5 => "iconst_5"
  | bipush => "bipush"
  | sipush => "sipush"
  | aload => "aload"
  | aload0 => "aload_0"
  | aload1 => "aload_1"
  | aload2 => "aload_2"
  | aload3 => "aload_3"
  | aaload => "aaload"
  | astore => "astore"
  | astore0 => "astore_0"
  | astore1 => "astore_1"
  | astore2 => "astore_2"
  | astore3 => "astore_3"
  | pop => "pop"
  | areturn => "areturn"
  | returnVoid => "return"
  | invokevirtual => "invokevirtual"
  | invokespecial => "invokespecial"
  | invokestatic => "invokestatic"
  | wide => "wide"

end Opcode

end MethodLowering
