/-!
# Targets

The names that lowered methods refer to: classes of the runtime, markers of the calling convention, and methods with a
fixed name.

* `Target` -- the names, each with the one it has unless another is chosen;
* `Target.validate` -- the first fault of a choice;
* `Target.workerCount` -- how many workers lower a batch.
-/

namespace MethodLowering

/-- The names that lowered methods refer to. -/
structure Target where
  /-- Class of boxed values. -/
  objectClass : String := "org/python/Object"
  /-- Class of the container of named arguments. -/
  kwargsClass : String := "java/util/Hashtable"
  /-- Type of the arguments of the process. -/
  argvDescriptor : String := "[Ljava/lang/String;"
  /-- Marker of functions and entry points. -/
  functionMarker : String := "org/python/Function"
  /-- Marker of instance methods. -/
  instanceMethodMarker : String := "org/python/InstanceMethod"
  /-- Marker of constructors. -/
  constructorMarker : String := "org/python/Constructor"
  /-- Name of constructors. -/
  constructorName : String := "<init>"
  /-- Type of the initializer of a superclass. -/
  initializerDescriptor : String := "()V"
  /-- Name of the entry point. -/
  entryPointName : String := "main"
  /-- Number of workers for a batch, where it is chosen. -/
  workers : Option Nat := none
  deriving DecidableEq, Repr

/-- What may be wrong with a target. -/
inductive TargetFault where
  /-- The name with a key is empty. -/
  | emptyName (key : String)
  /-- The initializer takes arguments. -/
  | initializerArguments (descriptor : String)
  /-- There is no worker. -/
  | noWorkers
  deriving DecidableEq, Repr

/-- The text of a fault. -/
def TargetFault.message : TargetFault → String
  | emptyName key => s!"Invalid target config: {key} cannot be empty"
  | initializerArguments descriptor =>
    s!"Invalid target config: initializer_descriptor must take no arguments, got {descriptor}"
  | noWorkers => "Invalid target config: workers must be at least 1"

namespace Target

/-- The names with their keys, in order. -/
def names (target : Target) : List (String × String) :=
  [("object_class", target.objectClass),
    ("kwargs_class", target.kwargsClass),
    ("argv_descriptor", target.argvDescriptor),
    ("function_marker", target.functionMarker),
    ("instance_method_marker", target.instanceMethodMarker),
    ("constructor_marker", target.constructorMarker),
    ("constructor_name", target.constructorName),
    ("initializer_descriptor", target.initializerDescriptor),
    ("entry_point_name", target.entryPointName)]

/-- **Checks a target and gives its first fault**: an empty name, an initializer with arguments, no workers. -/
def validate (target : Target) : Except TargetFault Unit :=
  match target.names.find? (·.2.isEmpty) with
  | some (key, _) => .error (.emptyName key)
  | none =>
    if ¬['(', ')'].isPrefixOf target.initializerDescriptor.toList then
      .error (.initializerArguments target.initializerDescriptor)
    else if target.workers = some 0 then
      .error .noWorkers
    else
      .ok ()

/-- The type of boxed values. -/
def objectDescriptor (target : Target) : String :=
  "L" ++ target.objectClass ++ ";"

/-- The number of workers for a number of jobs: as many as chosen, or as there are processors, but no more than jobs and
at least one. -/
def workerCount (target : Target) (processors jobs : Nat) : Nat :=
  max (min (target.workers.getD processors) jobs) 1

end Target

end MethodLowering
