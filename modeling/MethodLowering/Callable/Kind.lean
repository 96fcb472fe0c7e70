/-!
# Kinds of callables

A callable is a function of a module, a method of an instance, a constructor of a class, or the entry point of a
program.
-/

namespace MethodLowering

/-- The kinds of callables. -/
inductive CallableKind where
  | function
  | instanceMethod
  | constructor
  | entryPoint
  deriving DecidableEq, Repr

namespace CallableKind

/-- Whether the first parameter is the receiver. -/
def hasReceiver : CallableKind → Bool
  | instanceMethod | constructor => true
  | function | entryPoint => false

/-- Whether nothing is returned, whatever is declared. -/
def forcesVoid : CallableKind → Bool
  | constructor | entryPoint => true
  | function | instanceMethod => false

end CallableKind

end MethodLowering
