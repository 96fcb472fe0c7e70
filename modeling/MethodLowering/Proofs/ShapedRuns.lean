import MethodLowering.Proofs.Machine

/-!
# Runs of shaped code

Shaping rewrites returns wherever they stand, also behind the first one and behind code that gets stuck. This file
compares runs of any code with runs of the same code in shape: where they end, and what they call on the way.

* `Call`, `Host.call?`, `Host.calls` -- a call, the one an instruction makes, and those of a run;
* `Host.calls_append` -- the calls of code are those of its pieces, as far as control passes;
* `Host.calls_apply` -- shaped code calls what the code did;
* `Host.apply_preserves_runs` -- **shaping preserves the meaning of any code.**
-/

namespace MethodLowering

/-! ## 1. Calls -/

/-- A call of a method: how it is made, on which words, and in which world. -/
structure Call (host : Host) where
  mode : CallMode
  method : MethodRef
  words : List (Word host.Object)
  world : host.World

/-- What is called behind code, where control passes on. -/
def Ending.callsThen {host : Host} (ending : Ending host) (next : State host → List (Call host)) : List (Call host) :=
  match ending with
  | passes state => next state
  | returned _ _ | stuck _ => []

namespace Host

variable (host : Host)

/-- The call of a method on words at the top of the stack, if they are there. -/
def request? (mode : CallMode) (method : MethodRef) (words : Nat) (state : State host) : Option (Call host) :=
  if words ≤ state.stack.length then
    some { mode, method, words := state.stack.take words, world := state.world }
  else
    none

/-- The call that an instruction makes. -/
def call? (instruction : Instruction) (state : State host) : Option (Call host) :=
  match instruction with
  | .invokeSpecial method => host.request? .special method (method.argumentWords + 1) state
  | .invokeStatic method => host.request? .static method method.argumentWords state
  | .invokeVirtual method => host.request? .virtual method (method.argumentWords + 1) state
  | _ => none

/-- **The calls that code makes, in order.** -/
def calls : List Instruction → State host → List (Call host)
  | [], _ => []
  | instruction :: rest, state =>
    (host.call? instruction state).toList ++ (host.exec instruction state).callsThen (calls rest)

variable {host}

@[simp] theorem calls_nil (state : State host) : host.calls [] state = [] := rfl

@[simp] theorem calls_cons (instruction : Instruction) (rest : List Instruction) (state : State host) :
    host.calls (instruction :: rest) state =
      (host.call? instruction state).toList ++ (host.exec instruction state).callsThen (host.calls rest) := rfl

/-- **The calls of code are those of its pieces**, as far as control passes. -/
theorem calls_append (first second : List Instruction) (state : State host) :
    host.calls (first ++ second) state =
      host.calls first state ++ (host.run first state).callsThen (host.calls second) := by
  induction first generalizing state with
  | nil => rfl
  | cons instruction rest ih =>
    rw [List.cons_append, calls_cons, calls_cons, run_cons, List.append_assoc]
    congr 1
    cases host.exec instruction state with
    | passes next => exact ih next
    | returned value after => rfl
    | stuck after => rfl

/-! ## 2. Calls of shaped code -/

/-- What an instruction becomes calls what the instruction did: what is put around a return calls nothing. -/
theorem calls_image (shape : ReturnShape) (instruction : Instruction) (state : State host) :
    host.calls (shape.image instruction) state = (host.call? instruction state).toList := by
  have hpassed : ∀ ending : Ending host, ending.callsThen (host.calls []) = [] := by
    intro ending
    cases ending <;> rfl
  have hsingle : host.calls [instruction] state = (host.call? instruction state).toList := by
    rw [calls_cons, hpassed, List.append_nil]
  cases instruction with
  | returnValue =>
    cases shape with
    | noValue =>
      obtain ⟨locals, stack, world⟩ := state
      cases stack <;> rfl
    | boxed => exact hsingle
  | returnVoid =>
    cases shape with
    | noValue => exact hsingle
    | boxed => rfl
  | _ => exact hsingle

/-- Shaping changes what is returned and not whether control passes. -/
theorem callsThen_inShape (shape : ReturnShape) (ending : Ending host) (next : State host → List (Call host)) :
    (ending.inShape shape).callsThen next = ending.callsThen next := by
  cases ending <;> rfl

/-- **Shaped code calls what the code did.** -/
theorem calls_apply (shape : ReturnShape) (code : List Instruction) (state : State host) :
    host.calls (shape.apply code) state = host.calls code state := by
  induction code using shape.induction generalizing state with
  | nil => rfl
  | fused rest hshape =>
    -- behind either return nothing is called, so the rest does not matter
    subst hshape
    rw [ReturnShape.apply_fused]
    rfl
  | cons instruction rest hfuses ih =>
    have hrest : host.calls (shape.apply rest) = host.calls rest := funext ih
    rw [ReturnShape.apply_cons hfuses, calls_append, calls_image, run_image, callsThen_inShape, hrest, calls_cons]

/-! ## 3. Meaning -/

/-- **Shaping preserves the meaning of any code**, with returns anywhere, code behind them, or none: the same calls are
made, the same states are reached, and what is returned is nothing, or the value, or null in place of no value. -/
theorem apply_preserves_runs (host : Host) (shape : ReturnShape) (code : List Instruction) (state : State host) :
    host.calls (shape.apply code) state = host.calls code state ∧
    (∀ after, host.run (shape.apply code) state = .stuck after ↔ host.run code state = .stuck after) ∧
    (∀ after, host.run (shape.apply code) state = .passes after ↔ host.run code state = .passes after) ∧
    (∀ result after, host.run (ReturnShape.noValue.apply code) state = .returned result after ↔
      result = none ∧ ∃ value, host.run code state = .returned value after) ∧
    (∀ result after, host.run (ReturnShape.boxed.apply code) state = .returned result after ↔
      ∃ value, host.run code state = .returned value after ∧ result = some (value.getD .null)) := by
  refine ⟨calls_apply shape code state, ?_⟩
  simp only [run_apply]
  cases host.run code state with
  | passes middle => simp [Ending.inShape]
  | stuck middle => simp [Ending.inShape]
  | returned value middle =>
    simp only [Ending.inShape, ReturnShape.value, Ending.returned.injEq, reduceCtorEq, iff_self, implies_true, true_and]
    constructor
    · intro result after
      constructor
      · intro ⟨hresult, hafter⟩
        exact ⟨hresult.symm, value, rfl, hafter⟩
      · intro ⟨hresult, _, _, hafter⟩
        exact ⟨hresult.symm, hafter⟩
    · intro result after
      constructor
      · intro ⟨hresult, hafter⟩
        exact ⟨value, ⟨rfl, hafter⟩, hresult.symm⟩
      · intro ⟨returned, ⟨hvalue, hafter⟩, hresult⟩
        rw [hvalue, hresult]
        exact ⟨rfl, hafter⟩

end Host

end MethodLowering
