import MethodLowering.Bytecode.Descriptor

/-!
# Instructions and code units

Instructions say what lowered code does; the encoding chooses between short and wide forms later.

* `Instruction` -- one operation, and `Instruction.stackEffect`, the words it takes and gives;
* `CodeUnit` -- the code of one method with the size of its frame, and `CodeUnit.maxStack`;
* `MethodRecord` -- a method ready to be exported.
-/

namespace MethodLowering

/-- One operation of lowered code. -/
inductive Instruction where
  /-- Pushes the reference in a local slot. -/
  | loadLocal (slot : UInt16)
  /-- Pops a reference into a local slot. -/
  | storeLocal (slot : UInt16)
  /-- Pushes a constant. -/
  | pushInt (value : Int32)
  /-- Pushes the null reference. -/
  | pushNull
  /-- Pops an index and an array, pushes the element. -/
  | arrayLoad
  /-- Drops the top of the stack. -/
  | pop
  /-- Calls a method of the receiver without dispatch: a constructor or a method of the superclass. -/
  | invokeSpecial (method : MethodRef)
  /-- Calls a method that has no receiver. -/
  | invokeStatic (method : MethodRef)
  /-- Calls a method of the receiver with dispatch. -/
  | invokeVirtual (method : MethodRef)
  /-- Returns the reference on top of the stack. -/
  | returnValue
  /-- Returns nothing. -/
  | returnVoid
  /-- Does nothing. -/
  | nop
  deriving DecidableEq, Repr

namespace Instruction

/-- Whether control flow ends here. -/
def isTerminator : Instruction → Bool
  | returnValue | returnVoid => true
  | _ => false

/-- The local slot read or written. -/
def localSlot? : Instruction → Option UInt16
  | loadLocal slot | storeLocal slot => some slot
  | _ => none

/-- The method called. -/
def callee? : Instruction → Option MethodRef
  | invokeSpecial method | invokeStatic method | invokeVirtual method => some method
  | _ => none

/-- Whether exactly this method is called. -/
def invokes (instruction : Instruction) (target : MethodRef) : Bool :=
  instruction.callee? == some target

/-- The operand-stack words taken and given. -/
def stackEffect : Instruction → Nat × Nat
  | loadLocal _ | pushInt _ | pushNull => (0, 1)
  | storeLocal _ | pop | returnValue => (1, 0)
  | arrayLoad => (2, 1)
  | invokeSpecial method | invokeVirtual method => (method.argumentWords + 1, method.returnWords)
  | invokeStatic method => (method.argumentWords, method.returnWords)
  | returnVoid | nop => (0, 0)

/-- The stack depth behind an instruction. A stack that is too short counts as empty. -/
def depthAfter (depth : Nat) (instruction : Instruction) : Nat :=
  depth - instruction.stackEffect.1 + instruction.stackEffect.2

end Instruction

/-- The code of one method and the number of local slots of its frame. -/
structure CodeUnit where
  maxLocals : UInt16 := 0
  instructions : List Instruction := []
  deriving DecidableEq, Repr

namespace CodeUnit

/-- The number of instructions. -/
def size (unit : CodeUnit) : Nat :=
  unit.instructions.length

/-- Whether there is no instruction. -/
def isEmpty (unit : CodeUnit) : Bool :=
  unit.instructions.isEmpty

/-- One step of the search for the peak: the depth behind an instruction, and the peak so far. -/
def peakStep (state : Nat × Nat) (instruction : Instruction) : Nat × Nat :=
  let depth := instruction.depthAfter state.1
  (depth, max state.2 depth)

/-- The greatest stack depth of a straight run from an empty stack. -/
def stackPeak (unit : CodeUnit) : Nat :=
  (unit.instructions.foldl peakStep (0, 0)).2

/-- The greatest stack depth as a 16-bit count; a greater one is given as the greatest count. -/
def maxStack (unit : CodeUnit) : UInt16 :=
  UInt16.ofNat (min unit.stackPeak 65535)

end CodeUnit

/-- A method ready to be exported. -/
structure MethodRecord where
  /-- Name of the exported method. -/
  name : String
  descriptor : String
  isStatic : Bool
  code : CodeUnit
  deriving DecidableEq, Repr

end MethodLowering
