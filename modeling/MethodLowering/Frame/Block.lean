import MethodLowering.Bytecode.Instruction

/-!
# Bodies

The body of a callable as instructions, and how it ends.
-/

namespace MethodLowering

/-- The body of a callable. -/
structure Block where
  instructions : List Instruction := []
  deriving DecidableEq, Repr

namespace Block

/-- Appends an instruction. -/
def push (block : Block) (instruction : Instruction) : Block :=
  ⟨block.instructions ++ [instruction]⟩

/-- The number of instructions. -/
def size (block : Block) : Nat :=
  block.instructions.length

/-- Whether there is no instruction. -/
def isEmpty (block : Block) : Bool :=
  block.instructions.isEmpty

/-- Whether the body calls a method. -/
def calls (block : Block) (method : MethodRef) : Bool :=
  block.instructions.any (·.invokes method)

/-- Whether the body returns by itself at its end. -/
def returns (block : Block) : Bool :=
  block.instructions.getLast?.any Instruction.isTerminator

/-- **The instructions of a body, which returns null where it does not return by itself.** -/
def complete (block : Block) : List Instruction :=
  if block.returns then block.instructions else block.instructions ++ [.pushNull, .returnValue]

end Block

end MethodLowering
