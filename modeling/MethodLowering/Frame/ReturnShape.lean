import MethodLowering.Bytecode.Instruction

/-!
# Return shapes

A method hands back nothing, or one boxed value. The returns of a body are made to agree with the shape of its method.

* `ReturnShape` -- the two shapes;
* `ReturnShape.apply` -- code with all returns in a shape.
-/

namespace MethodLowering

/-- What a method hands back. -/
inductive ReturnShape where
  /-- Nothing. -/
  | noValue
  /-- One boxed value. -/
  | boxed
  deriving DecidableEq, Repr

namespace ReturnShape

/-- Appends code in a shape to code already done. Without a value, a return of null returns nothing, and any other
return of a value drops it first; with one, a return of nothing returns null. -/
def applyTo (shape : ReturnShape) : List Instruction → Array Instruction → Array Instruction
  | [], done => done
  | .pushNull :: .returnValue :: rest, done =>
    match shape with
    | noValue => applyTo shape rest (done.push .returnVoid)
    | boxed => applyTo shape rest ((done.push .pushNull).push .returnValue)
  | .returnValue :: rest, done =>
    match shape with
    | noValue => applyTo shape rest ((done.push .pop).push .returnVoid)
    | boxed => applyTo shape rest (done.push .returnValue)
  | .returnVoid :: rest, done =>
    match shape with
    | noValue => applyTo shape rest (done.push .returnVoid)
    | boxed => applyTo shape rest ((done.push .pushNull).push .returnValue)
  | instruction :: rest, done => applyTo shape rest (done.push instruction)

/-- **Code with all returns in a shape.** -/
def apply (shape : ReturnShape) (code : List Instruction) : List Instruction :=
  (applyTo shape code #[]).toList

end ReturnShape

end MethodLowering
