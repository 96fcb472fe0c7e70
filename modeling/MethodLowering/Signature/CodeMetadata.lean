import MethodLowering.Bindings
import MethodLowering.Signature.ParameterList

/-!
# Code metadata and classification

The arity of a compiled callable is given by counts, names and flags. Classification turns them into a list of
parameters.

* `CodeMetadata` -- what is known of a callable;
* `CodeMetadata.namedCount`, `CodeMetadata.varKeywordIndex` -- where the names of parameters end;
* `CodeMetadata.classify` -- the parameters, or the first fault.
-/

namespace MethodLowering

/-! ## 1. Metadata -/

/-- What is known of a compiled callable. -/
structure CodeMetadata where
  /-- Number of positional parameters. -/
  positionalCount : Nat
  /-- Number of keyword-only parameters. -/
  keywordOnlyCount : Nat := 0
  /-- Names of the positional parameters, the keyword-only ones, the variadic ones, then of other locals. -/
  names : List String
  /-- Bits that say which variadic parameters there are. -/
  flags : UInt32 := 0
  /-- Hints of parameters by name, and of the return value under `return`. -/
  hints : Bindings TypeHint := {}
  /-- Defaults of the last positional parameters. -/
  defaults : List Constant := []
  /-- Defaults of keyword-only parameters. -/
  keywordDefaults : Bindings Constant := {}
  deriving DecidableEq, Repr

namespace CodeMetadata

/-- Counts and their sums are below this limit. -/
def countLimit : Nat := UInt64.size

/-- Whether a parameter takes the positional arguments left. -/
def hasVarPositional (code : CodeMetadata) : Bool :=
  code.flags &&& 4 != 0

/-- Whether a parameter takes the named arguments left. -/
def hasVarKeyword (code : CodeMetadata) : Bool :=
  code.flags &&& 8 != 0

/-- What is declared of the return value. -/
def returnHint? (code : CodeMetadata) : Option TypeHint :=
  code.hints.get? "return"

/-- The number of positional and keyword-only parameters. -/
def namedCount (code : CodeMetadata) : Except SignatureFault Nat :=
  if code.positionalCount + code.keywordOnlyCount < countLimit then
    .ok (code.positionalCount + code.keywordOnlyCount)
  else
    .error (.countOverflow code.positionalCount code.keywordOnlyCount)

/-- The index of the name of the parameter for the named arguments left. -/
def varKeywordIndex (code : CodeMetadata) : Except SignatureFault Nat := do
  let index := (← code.namedCount) + code.hasVarPositional.toNat
  if index < countLimit then .ok index else .error .indexOverflow

/-! ## 2. Classification -/

/-- The number of positional parameters without default. -/
def plainCount (code : CodeMetadata) : Except SignatureFault Nat :=
  if code.defaults.length ≤ code.positionalCount then
    .ok (code.positionalCount - code.defaults.length)
  else
    .error (.tooManyDefaults code.defaults.length code.positionalCount)

/-- The parameter with a name, a kind and perhaps a default, with the hint of its name. -/
def parameter (code : CodeMetadata) (kind : Parameter.Kind) (name : String) (default : Option Constant) : Parameter :=
  { name, kind, hint := code.hints.get? name, default }

/-- The variadic parameter of a kind, whose name stands at an index. -/
def variadic (code : CodeMetadata) (kind : Parameter.Kind) (index : Nat) : Except SignatureFault (List Parameter) :=
  match code.names[index]? with
  | some name => .ok [code.parameter kind name none]
  | none => .error (.missingName kind index code.names.length)

/-- The names of the positional parameters. -/
def positionalNames (code : CodeMetadata) : List String :=
  code.names.take code.positionalCount

/-- The names of the keyword-only parameters. -/
def keywordOnlyNames (code : CodeMetadata) : List String :=
  (code.names.drop code.positionalCount).take code.keywordOnlyCount

/-- A name with a keyword default that is no keyword-only parameter. -/
def strayDefault? (code : CodeMetadata) : Option String :=
  (code.keywordDefaults.entries.map (·.1)).find? fun name => !code.keywordOnlyNames.contains name

/-- The positional parameters, the last of which have the defaults. -/
def positionalParameters (code : CodeMetadata) (plain : Nat) : List Parameter :=
  let defaults := List.replicate plain none ++ code.defaults.map some
  List.zipWith (code.parameter .positionalOrKeyword) code.positionalNames defaults

/-- The keyword-only parameters. -/
def keywordOnlyParameters (code : CodeMetadata) : List Parameter :=
  code.keywordOnlyNames.map fun name => code.parameter .keywordOnly name (code.keywordDefaults.get? name)

/-- **The parameters of a callable, or the first fault of its metadata.** -/
def classify (code : CodeMetadata) : Except SignatureFault ParameterList := do
  let plain ← code.plainCount
  let named ← code.namedCount
  if code.names.length < named then
    throw (.tooFewNames code.positionalCount code.keywordOnlyCount code.names.length)
  if let some name := code.strayDefault? then
    throw (.strayDefault name)
  let varPositional ← if code.hasVarPositional then code.variadic .varPositional named else pure []
  let varKeyword ← if code.hasVarKeyword then code.variadic .varKeyword (← code.varKeywordIndex) else pure []
  ParameterList.ofList
    (code.positionalParameters plain ++ varPositional ++ code.keywordOnlyParameters ++ varKeyword)

end CodeMetadata

end MethodLowering
