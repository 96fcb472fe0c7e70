import MethodLowering.Bytecode.Instruction

/-!
# Verification of a code unit

A code unit is sound when it has code, every local slot it names lies in its frame, and its last instruction ends
control flow.

* `VerifyFault` -- what may be wrong, with its text `VerifyFault.message`;
* `CodeUnit.verify` -- the first fault: no code, then the first bad slot, then a run off the end.
-/

namespace MethodLowering

/-- What may be wrong with a code unit. -/
inductive VerifyFault where
  /-- There is no instruction. -/
  | emptyCode
  /-- The instruction at a position names a slot outside the frame. -/
  | invalidLocal (slot maxLocals : UInt16) (position : Nat)
  /-- The last instruction, at this position, lets control run on. -/
  | fallsOffEnd (position : Nat)
  deriving DecidableEq, Repr

/-- The text of a fault. -/
def VerifyFault.message : VerifyFault → String
  | emptyCode => "Method has no code"
  | invalidLocal slot maxLocals position =>
    s!"Invalid local variable reference: index {slot.toNat} (max {maxLocals.toNat}) at instruction {position}"
  | fallsOffEnd position => s!"Execution falls off end of method at instruction {position}"

namespace CodeUnit

/-- The fault of one instruction at a position: the slot it names is outside the frame. -/
def localFault? (maxLocals : UInt16) (instruction : Instruction) (position : Nat) : Option VerifyFault :=
  match instruction.localSlot? with
  | some slot => if slot < maxLocals then none else some (.invalidLocal slot maxLocals position)
  | none => none

/-- **Checks a code unit and gives its first fault.** -/
def verify (unit : CodeUnit) : Except VerifyFault Unit :=
  match unit.instructions.getLast? with
  | none => .error .emptyCode
  | some last =>
    match unit.instructions.zipIdx.findSome? fun (instruction, position) =>
        localFault? unit.maxLocals instruction position with
    | some fault => .error fault
    | none => if last.isTerminator then .ok () else .error (.fallsOffEnd (unit.size - 1))

end CodeUnit

end MethodLowering
