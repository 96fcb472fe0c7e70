import MethodLowering.Callable.Kind
import MethodLowering.Frame.ReturnShape
import MethodLowering.Signature.Parameter
import MethodLowering.Target.Basic

/-!
# The calling convention

All methods take the container of positional arguments and the container of named ones, and hand back nothing or one
boxed value; only entry points take the arguments of the process. Types of parameters have no part in it.

* `ReturnShape.declared`, `CallableKind.returnShape` -- the shape of a return value;
* `CallableKind.descriptor` -- the descriptor of a method;
* `CallableKind.marker` -- the class that wraps callables of a kind.
-/

namespace MethodLowering

namespace ReturnShape

/-- The shape that is declared: nothing only where that is said. -/
def declared (hint : Option TypeHint) : ReturnShape :=
  if hint = some .noValue then noValue else boxed

/-- The return type of a shape. -/
def token (shape : ReturnShape) (target : Target) : String :=
  match shape with
  | noValue => "V"
  | boxed => target.objectDescriptor

end ReturnShape

namespace CallableKind

/-- The shape of a callable's return value. -/
def returnShape (kind : CallableKind) (hint : Option TypeHint) : ReturnShape :=
  if kind.forcesVoid then .noValue else .declared hint

/-- The types of a method's arguments. -/
def argumentTypes (kind : CallableKind) (target : Target) : String :=
  match kind with
  | entryPoint => target.argvDescriptor
  | function | instanceMethod | constructor => "[" ++ target.objectDescriptor ++ "L" ++ target.kwargsClass ++ ";"

/-- **The descriptor of a callable's method.** -/
def descriptor (kind : CallableKind) (hint : Option TypeHint) (target : Target) : String :=
  "(" ++ kind.argumentTypes target ++ ")" ++ (kind.returnShape hint).token target

/-- The class that wraps callables of a kind. -/
def marker (kind : CallableKind) (target : Target) : String :=
  match kind with
  | function | entryPoint => target.functionMarker
  | instanceMethod => target.instanceMethodMarker
  | constructor => target.constructorMarker

end CallableKind

end MethodLowering
