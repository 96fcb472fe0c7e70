import MethodLowering.Callable.Kind
import MethodLowering.Frame.Block
import MethodLowering.Frame.ReturnShape
import MethodLowering.Frame.SlotTable

/-!
# Prologues

A method gets its arguments in containers. Its prologue moves the positional ones to the slots of the parameters, by
position; in a constructor it then calls the initializer of the superclass.

* `Prologue.move` -- one element of the container to a slot;
* `Prologue.unpack` -- the prologue of a callable;
* `Prologue.generate` -- the code unit of a callable: prologue and body, with the returns in shape.
-/

namespace MethodLowering

/-- What the prologue of a callable depends on. -/
structure Prologue where
  kind : CallableKind
  slots : SlotTable
  parameters : ParameterList

namespace Prologue

/-- Moves the element at an index of the container in one slot to another slot. -/
def move (container : UInt16) (index : Nat) (slot : UInt16) : List Instruction :=
  [.loadLocal container, .pushInt (Int32.ofNat index), .arrayLoad, .storeLocal slot]

/-- The slot of the receiver. -/
def receiverSlot (prologue : Prologue) : Except LoweringError UInt16 :=
  match prologue.slots.slot? .receiver with
  | some slot => .ok slot
  | none => .error (.internal .noReceiverSlot)

/-- Moves the first argument to the receiver, where there is one. -/
def unpackReceiver (prologue : Prologue) (container : UInt16) : Except LoweringError (List Instruction) := do
  if prologue.kind.hasReceiver then
    return move container 0 (← prologue.receiverSlot)
  else
    return []

/-- Moves the argument at a position to the slot of a parameter. The position must be a constant. -/
def unpackParameter (prologue : Prologue) (container : UInt16) (parameter : Parameter) (position : Nat) :
    Except LoweringError (List Instruction) :=
  match prologue.slots.slot? (.named parameter.name) with
  | none => .error (.internal (.noParameterSlot parameter.name))
  | some slot => if position < Nat.pow 2 31 then .ok (move container position slot) else .error .tooManyLocals

/-- Calls the initializer of the superclass on the receiver, in a constructor. -/
def initializeSuper (prologue : Prologue) (initializer : Option MethodRef) :
    Except LoweringError (List Instruction) := do
  if prologue.kind = .constructor then
    match initializer with
    | some method => return [.loadLocal (← prologue.receiverSlot), .invokeSpecial method]
    | none => throw (.internal .noInitializer)
  else
    return []

/-- **The prologue of a callable.** The arguments of an entry point stay where they are. -/
def unpack (prologue : Prologue) (initializer : Option MethodRef) : Except LoweringError (List Instruction) := do
  if prologue.kind = .entryPoint then
    return []
  let some container := prologue.slots.slot? .positionalArgs
    | throw (.internal .noContainerSlot)
  let receiver ← prologue.unpackReceiver container
  let parameters ← prologue.parameters.toList.zipIdx.mapM fun (parameter, position) =>
    prologue.unpackParameter container parameter position
  let super ← prologue.initializeSuper initializer
  return receiver ++ parameters.flatten ++ super

/-- **The code unit of a callable**: the prologue and the completed body, with all returns in shape. -/
def generate (prologue : Prologue) (body : Block) (shape : ReturnShape) (initializer : Option MethodRef) :
    Except LoweringError CodeUnit := do
  let setup ← prologue.unpack initializer
  return { maxLocals := prologue.slots.maxLocals, instructions := shape.apply (setup ++ body.complete) }

end Prologue

end MethodLowering
