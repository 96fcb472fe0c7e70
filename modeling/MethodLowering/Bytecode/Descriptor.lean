/-!
# Method references and the words of a descriptor

A method is named by its owner class, its own name and its descriptor, `(argument types)return type`. A call moves
operand-stack words: one for each value, two for a `J` (long) or a `D` (double).

* `MethodRef` -- a reference to a method;
* `Descriptor.words` -- argument and return words of a descriptor; text that is no descriptor is counted as far as it
  goes, never refused;
* `MethodRef.argumentWords`, `MethodRef.returnWords` -- the two counts of a reference.
-/

namespace MethodLowering

/-- A method of a class, by name. -/
structure MethodRef where
  /-- Internal name of the class. -/
  owner : String
  /-- Name of the method. -/
  name : String
  /-- Argument and return types. -/
  descriptor : String
  deriving DecidableEq, Repr, Hashable

namespace Descriptor

/-! ## 1. Arguments -/

/-- Where a scan of argument types stands. -/
inductive Scan where
  /-- Before a type, or at the closing parenthesis. -/
  | type
  /-- Behind an opening bracket: the element type of an array. -/
  | element
  /-- Inside a class name, which ends at its semicolon. -/
  | className
  deriving DecidableEq, Repr

/-- The words of a type written as one character. A long or a double takes two unless it is the element of an array; any
other character counts one word for each byte of its encoding. -/
def typeWords (scan : Scan) (c : Char) : Nat :=
  if scan = .type ∧ (c = 'J' ∨ c = 'D') then 2 else c.utf8Size

/-- The words of the arguments from a point behind the opening parenthesis, and the text behind the closing one. A
parenthesis behind a bracket is an element type, so it closes nothing. -/
def scanArguments : Scan → List Char → Nat × List Char
  | _, [] => (0, [])
  | .className, c :: rest => scanArguments (if c = ';' then .type else .className) rest
  | scan, c :: rest =>
    if c = '[' then
      scanArguments .element rest
    else if c = ')' ∧ scan = .type then
      (0, rest)
    else if c = 'L' then
      let (words, behind) := scanArguments .className rest
      (1 + words, behind)
    else
      let (words, behind) := scanArguments .type rest
      (typeWords scan c + words, behind)

/-! ## 2. The return type, and both counts -/

/-- The words of a return type, by its first character. -/
def returnTypeWords : List Char → Nat
  | [] => 0
  | c :: _ => if c = 'V' then 0 else if c = 'J' ∨ c = 'D' then 2 else 1

/-- **The argument and return words of a descriptor**, counted from its first opening parenthesis. -/
def words (descriptor : String) : Nat × Nat :=
  let (arguments, behind) := scanArguments .type ((descriptor.toList.dropWhile (· ≠ '(')).drop 1)
  (arguments, returnTypeWords behind)

end Descriptor

namespace MethodRef

/-- Words that the declared arguments take off the operand stack, the receiver not counted. -/
def argumentWords (method : MethodRef) : Nat :=
  (Descriptor.words method.descriptor).1

/-- Words that the return value puts on the operand stack. -/
def returnWords (method : MethodRef) : Nat :=
  (Descriptor.words method.descriptor).2

end MethodRef

end MethodLowering
