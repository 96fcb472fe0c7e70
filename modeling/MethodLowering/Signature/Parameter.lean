import MethodLowering.Number.Double

/-!
# Parameters

A parameter of a callable: a name, the way it takes arguments, perhaps a hint and a default.

* `Constant`, `TypeHint` -- what a default and a hint may be;
* `Parameter`, `Parameter.Kind` -- a parameter and its kind;
* `Parameter.rank` -- its place in the order of declaration.
-/

namespace MethodLowering

/-- A constant that may be a default. -/
inductive Constant where
  /-- The constant that stands for the absence of a value. -/
  | none
  | bool (value : Bool)
  | int (value : Int64)
  | float (value : Double)
  | str (value : String)
  deriving DecidableEq, Repr

/-- What is declared of a parameter or of a return value. -/
inductive TypeHint where
  /-- There is no value. -/
  | noValue
  /-- The arguments of the process. -/
  | argv
  /-- Any other declaration, by its name. -/
  | named (name : String)
  deriving DecidableEq, Repr

namespace Parameter

/-- How a parameter takes arguments. -/
inductive Kind where
  /-- By position or by name. -/
  | positionalOrKeyword
  /-- All positional arguments that are left. -/
  | varPositional
  /-- By name only. -/
  | keywordOnly
  /-- All named arguments that are left. -/
  | varKeyword
  deriving DecidableEq, Repr

/-- The name of a kind. -/
def Kind.name : Kind → String
  | positionalOrKeyword => "PositionalOrKeyword"
  | varPositional => "VarPositional"
  | keywordOnly => "KeywordOnly"
  | varKeyword => "VarKeyword"

/-- Whether a kind takes all arguments that are left. -/
def Kind.isVariadic : Kind → Bool
  | varPositional | varKeyword => true
  | positionalOrKeyword | keywordOnly => false

end Parameter

/-- A parameter of a callable. -/
structure Parameter where
  name : String
  kind : Parameter.Kind
  hint : Option TypeHint := none
  default : Option Constant := none
  deriving DecidableEq, Repr

namespace Parameter

/-- A parameter that takes its argument by position or by name and must be given. -/
def positional (name : String) : Parameter :=
  { name, kind := .positionalOrKeyword }

/-- Whether the parameter may be left off. -/
def hasDefault (parameter : Parameter) : Bool :=
  parameter.default.isSome

/-- The place of a parameter in the order of declaration: positional, positional with default, the rest of these,
keyword-only, the rest of those. -/
def rank (parameter : Parameter) : Nat :=
  match parameter.kind with
  | .positionalOrKeyword => if parameter.hasDefault then 1 else 0
  | .varPositional => 2
  | .keywordOnly => 3
  | .varKeyword => 4

end Parameter

end MethodLowering
