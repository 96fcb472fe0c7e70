import MethodLowering.Callable.Convention
import MethodLowering.Callable.Scope
import MethodLowering.Frame.Prologue

/-!
# Callables

A callable is made once it is found, and lowered to a method record.

* `Callable.function`, `Callable.instanceMethod`, `Callable.constructor`, `Callable.entryPoint` -- the callables of each
  kind;
* `Callable.allocateSlots` -- the frame of a callable;
* `Callable.lower` -- its method record, or why there is none.
-/

namespace MethodLowering

/-- A callable to be lowered. -/
structure Callable where
  name : String
  kind : CallableKind
  /-- The parameters that callers see, the receiver among them. -/
  declared : ParameterList
  /-- The parameters with slots of their own, without the receiver. -/
  visible : ParameterList
  /-- What is declared of the return value. -/
  returns : Option TypeHint
  isStatic : Bool
  body : Block
  deriving DecidableEq, Repr

namespace Callable

/-! ## 1. Making callables -/

/-- A function of a module. -/
def function (name : String) (parameters : ParameterList) (returns : Option TypeHint) (body : Block) : Callable :=
  { name, kind := .function, declared := parameters, visible := parameters, returns, isStatic := true, body }

/-- A callable whose first parameter is the receiver. -/
def withReceiver (name : String) (kind : CallableKind) (parameters : ParameterList) (returns : Option TypeHint)
    (body : Block) : Except LoweringError Callable :=
  match parameters.withoutReceiver? with
  | some visible => .ok { name, kind, declared := parameters, visible, returns, isStatic := false, body }
  | none => .error (.missingReceiver name)

/-- A method of an instance. -/
def instanceMethod (name : String) (parameters : ParameterList) (returns : Option TypeHint) (body : Block) :
    Except LoweringError Callable :=
  withReceiver name .instanceMethod parameters returns body

/-- A constructor of a class. -/
def constructor (parameters : ParameterList) (body : Block) : Except LoweringError Callable :=
  withReceiver "__init__" .constructor parameters (some .noValue) body

/-- The entry point of a program, which takes the arguments of the process. -/
def entryPoint (body : Block) : Callable :=
  let parameters := ParameterList.single "args" .argv
  { name := "__main__", kind := .entryPoint, declared := parameters, visible := parameters, returns := some .noValue,
    isStatic := true, body }

/-- Chooses whether a function or an instance method is static. Constructors never are, entry points always. -/
def withStatic (callable : Callable) (isStatic : Bool) : Callable :=
  match callable.kind with
  | .function | .instanceMethod => { callable with isStatic }
  | .constructor | .entryPoint => callable

/-! ## 2. Names and types -/

/-- The name of the method. -/
def targetName (callable : Callable) (target : Target) : String :=
  match callable.kind with
  | .function | .instanceMethod => callable.name
  | .constructor => target.constructorName
  | .entryPoint => target.entryPointName

/-- The shape of the return value. -/
def returnShape (callable : Callable) : ReturnShape :=
  callable.kind.returnShape callable.returns

/-- The descriptor of the method. -/
def descriptor (callable : Callable) (target : Target) : String :=
  callable.kind.descriptor callable.returns target

/-- The full name in a scope. -/
def qualifiedName (callable : Callable) (scope : Scope) : String :=
  scope.qualify callable.name

/-! ## 3. Lowering -/

/-- The frame of the method. -/
def allocateSlots (callable : Callable) : Except LoweringError SlotTable :=
  SlotTable.allocate callable.kind.hasReceiver callable.visible

/-- The initializer of the superclass, which a constructor has to call. -/
def superclassInitializer (callable : Callable) (scope : Scope) (target : Target) :
    Except LoweringError (Option MethodRef) :=
  if callable.kind = .constructor then
    match scope.superclass with
    | some owner =>
      .ok (some { owner, name := target.constructorName, descriptor := target.initializerDescriptor })
    | none => .error (.unresolvedSuperclass scope.fullName)
  else
    .ok none

/-- **The method record of a callable, or why there is none.** -/
def lower (callable : Callable) (scope : Scope) (target : Target) : Except LoweringError MethodRecord := do
  let slots ← callable.allocateSlots
  let initializer ← callable.superclassInitializer scope target
  let prologue : Prologue := { kind := callable.kind, slots, parameters := callable.visible }
  let code ← prologue.generate callable.body callable.returnShape initializer
  match code.verify with
  | .error fault => throw (.verification fault)
  | .ok () =>
    return { name := callable.targetName target, descriptor := callable.descriptor target
             isStatic := callable.isStatic, code }

end Callable

end MethodLowering
