import MethodLowering.Number.Double

/-!
# JSON values

* `Json` -- a JSON value, with the members of an object in written order;
* `Json.Number` -- whole numbers apart from all others, because a field may ask for a whole one.
-/

namespace MethodLowering

namespace Json

/-- A number: a whole one written without fraction and exponent, or any other. -/
inductive Number where
  | int (value : Int)
  | float (value : Double)
  deriving DecidableEq, Repr

end Json

/-- A JSON value. -/
inductive Json where
  | null
  | bool (value : Bool)
  | number (value : Json.Number)
  | string (value : String)
  | array (items : List Json)
  | object (members : List (String × Json))
  /-- Well-formed text that denotes no value: a number beyond the doubles, a string or an object with a key that holds
  half of a surrogate pair. It may stand where nobody looks. -/
  | unreadable
  deriving Repr, Inhabited

end MethodLowering
