import MethodLowering.Proofs.DescriptorGrammar
import MethodLowering.Proofs.LoweringOutcome

/-!
# Descriptor and code agree on the return

The descriptor of a method is text, read back by a scan that knows nothing of how it was written. The returns of its
code are shaped elsewhere. Both come from the shape of the callable's return value, and this file shows that what the
scan reads is what the code does.

* `CallableKind.words_descriptor` -- the words that are read from the descriptor of a callable;
* `Callable.eq_exit_of_mem_code`, `Callable.returns_code_iff` -- code returns in the way of its shape, and in no other;
* `Callable.lower_descriptor_agrees` -- **a lowered method returns as its descriptor says.**
-/

namespace MethodLowering

/-! ## 1. The words of a descriptor -/

/-- The words of a return value in shape. -/
def ReturnShape.words : ReturnShape → Nat
  | noValue => 0
  | boxed => 1

/-- The type of a shape is read as its words. -/
theorem ReturnShape.returnTypeWords_token (shape : ReturnShape) (target : Target) :
    Descriptor.returnTypeWords (shape.token target).toList = shape.words := by
  cases shape with
  | noValue =>
    have htoken : (ReturnShape.noValue.token target).toList = ['V'] := by simp [token]
    rw [htoken]
    rfl
  | boxed =>
    have htoken : (ReturnShape.boxed.token target).toList = 'L' :: (target.objectClass.toList ++ [';']) := by
      simp [token, Target.objectDescriptor]
    rw [htoken]
    rfl

namespace CallableKind

/-- The words of the arguments of a kind, where the arguments of the process have some type. -/
def argumentWords (kind : CallableKind) (argv : FieldType) : Nat :=
  if kind = .entryPoint then argv.words else 2

/-- **The scan of a callable's argument types ends at their parenthesis**, whatever characters but a semicolon the class
names have. -/
theorem scanArguments_argumentTypes {target : Target} {argv : FieldType} (hobject : ';' ∉ target.objectClass.toList)
    (hkwargs : ';' ∉ target.kwargsClass.toList) (hargv : target.argvDescriptor = argv.text) (kind : CallableKind)
    (rest : List Char) :
    Descriptor.scanArguments .type ((kind.argumentTypes target).toList ++ ')' :: rest) =
      (kind.argumentWords argv, rest) := by
  -- the two containers: an array of boxed values, and the object of named arguments
  have hcontainers : Descriptor.scanArguments .type
      (("[" ++ target.objectDescriptor ++ "L" ++ target.kwargsClass ++ ";").toList ++ ')' :: rest) = (2, rest) := by
    have htext : ("[" ++ target.objectDescriptor ++ "L" ++ target.kwargsClass ++ ";").toList ++ ')' :: rest =
        '[' :: 'L' :: (target.objectClass.toList ++ ';' ::
          'L' :: (target.kwargsClass.toList ++ ';' :: ')' :: rest)) := by
      simp [Target.objectDescriptor]
    have hbracket : ∀ text, Descriptor.scanArguments .type ('[' :: text) = Descriptor.scanArguments .element text :=
      fun _ => rfl
    rw [htext, hbracket, Descriptor.scanArguments_object Descriptor.Scan.noConfusion hobject,
      Descriptor.scanArguments_object Descriptor.Scan.noConfusion hkwargs]
    rfl
  cases kind with
  | entryPoint =>
    show Descriptor.scanArguments .type (target.argvDescriptor.toList ++ ')' :: rest) = _
    rw [hargv, Descriptor.scanArguments_text]
    rfl
  | function => exact hcontainers
  | instanceMethod => exact hcontainers
  | constructor => exact hcontainers

/-- **The words that are read from the descriptor of a callable.** -/
theorem words_descriptor {target : Target} {argv : FieldType} (hobject : ';' ∉ target.objectClass.toList)
    (hkwargs : ';' ∉ target.kwargsClass.toList) (hargv : target.argvDescriptor = argv.text) (kind : CallableKind)
    (hint : Option TypeHint) :
    Descriptor.words (kind.descriptor hint target) = (kind.argumentWords argv, (kind.returnShape hint).words) := by
  rw [descriptor, Descriptor.words_of_scan (kind.scanArguments_argumentTypes hobject hkwargs hargv _),
    ReturnShape.returnTypeWords_token]

end CallableKind

/-! ## 2. The returns of code -/

namespace Callable

variable {callable : Callable} {scope : Scope} {target : Target}

/-- Code returns in the way of its shape only. -/
theorem eq_exit_of_mem_code {instruction : Instruction} (h : instruction ∈ (callable.code scope target).instructions)
    (hreturn : instruction.isTerminator) : instruction = callable.returnShape.exit := by
  rcases List.mem_append.mp h with h | h
  · exact absurd hreturn (Prologue.layout_plain h).1
  · exact ReturnShape.eq_exit_of_mem_apply h hreturn

/-- All returns of code are of one kind if and only if this is the kind of its shape. -/
theorem returns_code_iff {exit : Instruction} :
    (∀ instruction ∈ (callable.code scope target).instructions, instruction.isTerminator → instruction = exit) ↔
      callable.returnShape.exit = exit := by
  constructor
  · intro h
    exact h _ (List.mem_of_getLast? getLast?_code) callable.returnShape.isTerminator_exit
  · rintro rfl instruction hmem hreturn
    exact eq_exit_of_mem_code hmem hreturn

/-! ## 3. Agreement -/

/-- **A lowered method returns as its descriptor says.** Read back from the text, the arguments are two words, or those
of the arguments of the process, and the return value is no word or one: none if and only if all returns of the code
return nothing, one if and only if all of them return a value. The code ends in such a return. -/
theorem lower_descriptor_agrees {record : MethodRecord} (hlower : callable.lower scope target = .ok record)
    (hobject : ';' ∉ target.objectClass.toList) (hkwargs : ';' ∉ target.kwargsClass.toList) (argv : FieldType)
    (hargv : target.argvDescriptor = argv.text) (owner name : String) :
    let method : MethodRef := { owner, name, descriptor := record.descriptor }
    method.argumentWords = (if callable.kind = .entryPoint then argv.words else 2) ∧
    (method.returnWords = 0 ∨ method.returnWords = 1) ∧
    (method.returnWords = 0 ↔
      ∀ instruction ∈ record.code.instructions, instruction.isTerminator → instruction = .returnVoid) ∧
    (method.returnWords = 1 ↔
      ∀ instruction ∈ record.code.instructions, instruction.isTerminator → instruction = .returnValue) ∧
    record.code.instructions.getLast? = some (if method.returnWords = 0 then .returnVoid else .returnValue) := by
  intro method
  obtain ⟨_, _, _, rfl⟩ := lower_eq_ok_iff.mp hlower
  have hwords : Descriptor.words method.descriptor =
      (callable.kind.argumentWords argv, callable.returnShape.words) :=
    callable.kind.words_descriptor hobject hkwargs hargv callable.returns
  have harguments : method.argumentWords = callable.kind.argumentWords argv := congrArg Prod.fst hwords
  have hreturn : method.returnWords = callable.returnShape.words := congrArg Prod.snd hwords
  have hlast : (callable.record scope target).code.instructions.getLast? = some callable.returnShape.exit :=
    getLast?_code
  rw [hreturn, hlast]
  refine ⟨harguments, ?_, Iff.trans ?_ returns_code_iff.symm, Iff.trans ?_ returns_code_iff.symm, ?_⟩
  all_goals cases callable.returnShape <;> simp [ReturnShape.words, ReturnShape.exit]

/-- A function whose body returns in both ways, the second time where it is never reached. -/
def mixedReturns : Callable :=
  Callable.function "f" .empty none ⟨[.returnVoid, .pushNull, .returnValue]⟩

/-- Classes whose names look like the end of arguments, an array and a return of nothing. -/
def oddTarget : Target :=
  { objectClass := "a)V[J", kwargsClass := "(L)D", argvDescriptor := "[[J" }

/-- The odd names mislead no count, for a function and for an entry point. -/
theorem lower_descriptor_agrees_oddTarget :
    ∃ record main, mixedReturns.lower { moduleName := "m" } oddTarget = .ok record ∧
      (Callable.entryPoint mixedReturns.body).lower { moduleName := "m" } oddTarget = .ok main ∧
      record.descriptor = "([La)V[J;L(L)D;)La)V[J;" ∧
      record.code.instructions = [.pushNull, .returnValue, .pushNull, .returnValue] ∧
      MethodRef.argumentWords ⟨"m", "f", record.descriptor⟩ = 2 ∧
      MethodRef.returnWords ⟨"m", "f", record.descriptor⟩ = 1 ∧
      MethodRef.argumentWords ⟨"m", "main", main.descriptor⟩ = 1 ∧
      ∀ instruction ∈ main.code.instructions, instruction.isTerminator → instruction = .returnVoid := by
  have hlower : mixedReturns.lower { moduleName := "m" } oddTarget =
      .ok (mixedReturns.record { moduleName := "m" } oddTarget) := by
    rw [lower_eq]
    rfl
  have hmain : (Callable.entryPoint mixedReturns.body).lower { moduleName := "m" } oddTarget =
      .ok ((Callable.entryPoint mixedReturns.body).record { moduleName := "m" } oddTarget) := by
    rw [lower_eq]
    rfl
  have hargv : oddTarget.argvDescriptor = (FieldType.array (.array (.base .long))).text := by decide
  obtain ⟨harguments, _, _, hone, _⟩ :=
    lower_descriptor_agrees hlower (by decide) (by decide) _ hargv "m" "f"
  obtain ⟨hmainArguments, _, hzero, _, _⟩ :=
    lower_descriptor_agrees hmain (by decide) (by decide) _ hargv "m" "main"
  refine ⟨_, _, hlower, hmain, by decide, by decide, harguments, hone.mpr ?_, hmainArguments, hzero.mp ?_⟩
  · decide
  · decide

end Callable

end MethodLowering
