import MethodLowering.Bytecode.Verification
import MethodLowering.Frame.SlotRole
import MethodLowering.Signature.Fault

/-!
# Errors of lowering

* `InternalFault` -- a step was handed what an earlier step should have excluded;
* `LoweringError` -- why a callable has no method, with its text `LoweringError.message`.
-/

namespace MethodLowering

/-- A step was handed what an earlier step should have excluded. -/
inductive InternalFault where
  /-- A role has a slot already. -/
  | slotReservedTwice (role : SlotRole)
  /-- The container of the positional arguments has no slot. -/
  | noContainerSlot
  /-- The receiver has no slot. -/
  | noReceiverSlot
  /-- A parameter has no slot. -/
  | noParameterSlot (name : String)
  /-- A constructor has no initializer of its superclass to call. -/
  | noInitializer
  /-- No worker brought the result of a callable. -/
  | unfinished
  deriving DecidableEq, Repr

/-- The text of an internal fault. -/
def InternalFault.message : InternalFault → String
  | slotReservedTwice role => s!"local slot for {role.describe} reserved twice"
  | noContainerSlot => "no local slot allocated for positional argument container"
  | noReceiverSlot => "no local slot allocated for receiver"
  | noParameterSlot name => s!"no local slot allocated for {name}"
  | noInitializer => "constructor prologue requires a superclass initializer"
  | unfinished => "worker stopped before finishing this callable"

/-- Why a callable has no method. -/
inductive LoweringError where
  /-- Its signature has a fault. -/
  | malformedSignature (fault : SignatureFault)
  /-- It is called on a receiver but has no parameter for it. -/
  | missingReceiver (name : String)
  /-- It is a constructor of a class without known superclass. -/
  | unresolvedSuperclass (className : String)
  /-- It has more locals than a frame holds. -/
  | tooManyLocals
  /-- Its code is not sound. -/
  | verification (fault : VerifyFault)
  /-- A step was handed what an earlier step should have excluded. -/
  | internal (fault : InternalFault)
  deriving DecidableEq, Repr

/-- The text of an error. -/
def LoweringError.message : LoweringError → String
  | malformedSignature fault => s!"Malformed signature: {fault.message}"
  | missingReceiver name => s!"Method {name} has no receiver parameter"
  | unresolvedSuperclass className => s!"Cannot resolve superclass initializer for class {className}"
  | tooManyLocals => "Too many local variables (max 65535)"
  | verification fault => s!"Bytecode verification failed: {fault.message}"
  | internal fault => s!"Internal compiler error: {fault.message}"

end MethodLowering
