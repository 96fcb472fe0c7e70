import Mathlib.Logic.Function.Basic
import MethodLowering.Proofs.ReturnShaping

/-!
# A machine for lowered code

Lowered code is straight: it runs from its first instruction on, until it returns, gets stuck or is at its end. What its
calls do is left to a host, so everything said here holds whatever they do.

* `Host` -- objects, the world they live in, the elements of arrays, and what a call does;
* `State`, `Ending` -- a frame in a world, and how code ends there;
* `Host.exec`, `Host.run` -- one instruction, and code; `Host.run_append`: code runs piece by piece;
* `Host.run_apply` -- **code in shape runs as the code did**, and hands back what the shape makes of its value;
* `Host.run_complete` -- a completed body runs as the body, and returns null where that is at its end.
-/

namespace MethodLowering

/-! ## 1. The machine -/

/-- A word in a local slot or on the operand stack. -/
inductive Word (Object : Type) where
  /-- The null reference. -/
  | null
  /-- A constant. -/
  | int (value : Int32)
  /-- Anything else, by its content: an object, or half of a wide value. -/
  | object (content : Object)
  deriving DecidableEq, Repr

/-- How a method is called. -/
inductive CallMode where
  | special
  | static
  | virtual
  deriving DecidableEq, Repr

/-- What lowered code runs on. -/
structure Host where
  /-- What words hold besides null and constants. -/
  Object : Type
  /-- Everything outside a frame. -/
  World : Type
  /-- The elements of an object that is an array. -/
  elements : World → Object → Option (List (Word Object))
  /-- What a call of a method on words leaves: the words it gives back, as many as its return type has, and the
  world. -/
  call : CallMode → (method : MethodRef) → List (Word Object) → World → Vector (Word Object) method.returnWords × World

/-- The local slots of a frame; a slot that nothing was stored in holds nothing. -/
abbrev Host.Locals (host : Host) : Type :=
  UInt16 → Option (Word host.Object)

/-- A frame in a world. -/
structure State (host : Host) where
  locals : host.Locals
  /-- The operand stack, its top first. -/
  stack : List (Word host.Object)
  world : host.World

/-- How code ends. -/
inductive Ending (host : Host) where
  /-- Control passes to what is behind the code. -/
  | passes (state : State host)
  /-- The frame is left, with a value or without. -/
  | returned (value : Option (Word host.Object)) (state : State host)
  /-- An instruction cannot be carried out in a state: a word is missing, or is not what the instruction needs. -/
  | stuck (state : State host)

/-- Goes on behind code where control passes. -/
def Ending.andThen {host : Host} (ending : Ending host) (next : State host → Ending host) : Ending host :=
  match ending with
  | passes state => next state
  | returned value state => returned value state
  | stuck state => stuck state

namespace Host

variable (host : Host)

/-- The element of an array at an index. -/
def element? (world : host.World) (array : host.Object) (index : Int32) : Option (Word host.Object) :=
  match index.toInt with
  | .ofNat position => (host.elements world array).bind (·[position]?)
  | .negSucc _ => none

/-- Calls a method on the words at the top of the stack. -/
def invoke (mode : CallMode) (method : MethodRef) (words : Nat) (state : State host) : Ending host :=
  if words ≤ state.stack.length then
    let (results, world) := host.call mode method (state.stack.take words) state.world
    .passes { state with stack := results.toList ++ state.stack.drop words, world }
  else
    .stuck state

/-- **Carries out one instruction.** -/
def exec (instruction : Instruction) (state : State host) : Ending host :=
  match instruction with
  | .loadLocal slot =>
    match state.locals slot with
    | some word => .passes { state with stack := word :: state.stack }
    | none => .stuck state
  | .storeLocal slot =>
    match state.stack with
    | word :: rest => .passes { state with locals := Function.update state.locals slot (some word), stack := rest }
    | [] => .stuck state
  | .pushInt value => .passes { state with stack := .int value :: state.stack }
  | .pushNull => .passes { state with stack := .null :: state.stack }
  | .arrayLoad =>
    match state.stack with
    | .int index :: .object array :: rest =>
      match host.element? state.world array index with
      | some word => .passes { state with stack := word :: rest }
      | none => .stuck state
    | _ => .stuck state
  | .pop =>
    match state.stack with
    | _ :: rest => .passes { state with stack := rest }
    | [] => .stuck state
  | .invokeSpecial method => host.invoke .special method (method.argumentWords + 1) state
  | .invokeStatic method => host.invoke .static method method.argumentWords state
  | .invokeVirtual method => host.invoke .virtual method (method.argumentWords + 1) state
  | .returnValue =>
    match state.stack with
    | word :: rest => .returned (some word) { state with stack := rest }
    | [] => .stuck state
  | .returnVoid => .returned none state
  | .nop => .passes state

/-- **Runs code.** -/
def run : List Instruction → State host → Ending host
  | [], state => .passes state
  | instruction :: rest, state => (host.exec instruction state).andThen (run rest)

end Host

/-! ## 2. Running piece by piece -/

variable {host : Host}

theorem Ending.andThen_assoc (ending : Ending host) (first second : State host → Ending host) :
    (ending.andThen first).andThen second = ending.andThen fun state => (first state).andThen second := by
  cases ending <;> rfl

/-- Nothing behind code matters where it does not pass control on. -/
theorem Ending.andThen_passes (ending : Ending host) : ending.andThen .passes = ending := by
  cases ending <;> rfl

namespace Host

@[simp] theorem run_nil (state : State host) : host.run [] state = .passes state := rfl

@[simp] theorem run_cons (instruction : Instruction) (rest : List Instruction) (state : State host) :
    host.run (instruction :: rest) state = (host.exec instruction state).andThen (host.run rest) := rfl

/-- **Code runs piece by piece.** -/
theorem run_append (first second : List Instruction) (state : State host) :
    host.run (first ++ second) state = (host.run first state).andThen (host.run second) := by
  induction first generalizing state with
  | nil => rfl
  | cons instruction rest ih =>
    rw [List.cons_append, run_cons, run_cons, Ending.andThen_assoc]
    exact congrArg _ (funext ih)

/-- Only a return leaves the frame. -/
theorem exec_ne_returned {instruction : Instruction} (h : ¬instruction.isTerminator) (state : State host)
    (value : Option (Word host.Object)) (after : State host) :
    host.exec instruction state ≠ .returned value after := by
  cases instruction <;> simp only [exec, invoke] <;> first | exact absurd rfl h | (repeat' split) <;> nofun

/-- Behind a return there is nothing. -/
theorem exec_ne_passes {instruction : Instruction} (h : instruction.isTerminator) (state after : State host) :
    host.exec instruction state ≠ .passes after := by
  cases instruction with
  | returnValue => simp only [exec]; split <;> nofun
  | returnVoid => nofun
  | _ => cases h

/-- Code whose last instruction is a return passes control to nothing. -/
theorem run_ne_passes {code : List Instruction} (h : code.getLast?.any Instruction.isTerminator)
    (state after : State host) : host.run code state ≠ .passes after := by
  obtain ⟨last, hlast, hterminator⟩ := (Option.any_eq_true _ _).mp h
  obtain ⟨front, rfl⟩ := List.getLast?_eq_some_iff.mp hlast
  rw [run_append]
  cases host.run front state with
  | passes middle =>
    show (host.exec last middle).andThen .passes ≠ _
    rw [Ending.andThen_passes]
    exact exec_ne_passes hterminator middle after
  | returned value middle => nofun
  | stuck middle => nofun

end Host

/-! ## 3. Returns in shape -/

/-- What a method of a shape hands back where its body returns a value, or nothing. -/
def ReturnShape.value {Object : Type} (shape : ReturnShape) (value : Option (Word Object)) : Option (Word Object) :=
  match shape with
  | noValue => none
  | boxed => some (value.getD .null)

namespace Ending

/-- The ending of a method of a shape, from that of its body. -/
def inShape (shape : ReturnShape) (ending : Ending host) : Ending host :=
  match ending with
  | returned value state => returned (shape.value value) state
  | passes state => passes state
  | stuck state => stuck state

/-- The ending of a body that returns null where it does not return by itself. -/
def completed (ending : Ending host) : Ending host :=
  match ending with
  | passes state => returned (some .null) state
  | returned value state => returned value state
  | stuck state => stuck state

theorem inShape_andThen (shape : ReturnShape) (ending : Ending host) (next : State host → Ending host) :
    (ending.andThen next).inShape shape = (ending.inShape shape).andThen fun state => (next state).inShape shape := by
  cases ending <;> rfl

end Ending

namespace Host

/-- What shaping makes of one instruction runs as that instruction did. -/
theorem run_image (shape : ReturnShape) (instruction : Instruction) (state : State host) :
    host.run (shape.image instruction) state = (host.exec instruction state).inShape shape := by
  by_cases h : instruction.isTerminator
  · cases instruction with
    | returnValue =>
      obtain ⟨locals, stack, world⟩ := state
      cases shape <;> cases stack <;> rfl
    | returnVoid => cases shape <;> rfl
    | _ => cases h
  · have himage : shape.image instruction = [instruction] := by
      cases instruction <;> first | rfl | exact absurd rfl h
    rw [himage, run_cons]
    cases hexec : host.exec instruction state with
    | returned value after => exact absurd hexec (exec_ne_returned h state value after)
    | passes after => rfl
    | stuck after => rfl

/-- **Code in shape runs as the code did.** -/
theorem run_apply (shape : ReturnShape) (code : List Instruction) (state : State host) :
    host.run (shape.apply code) state = (host.run code state).inShape shape := by
  induction code using shape.induction generalizing state with
  | nil => rfl
  | fused rest hshape =>
    subst hshape
    rw [ReturnShape.apply_fused]
    rfl
  | cons instruction rest hfuses ih =>
    rw [ReturnShape.apply_cons hfuses, run_append, run_image, run_cons, Ending.inShape_andThen]
    exact congrArg _ (funext ih)

/-- **A completed body runs as the body**, and returns null where that is at its end. -/
theorem run_complete (body : Block) (state : State host) :
    host.run body.complete state = (host.run body.instructions state).completed := by
  unfold Block.complete
  by_cases hreturns : body.returns
  · rw [if_pos hreturns]
    cases hrun : host.run body.instructions state with
    | passes after => exact absurd hrun (run_ne_passes hreturns state after)
    | returned value after => rfl
    | stuck after => rfl
  · rw [if_neg hreturns, run_append]
    cases host.run body.instructions state <;> rfl

end Host

end MethodLowering
