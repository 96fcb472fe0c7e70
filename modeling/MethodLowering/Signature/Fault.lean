import MethodLowering.Signature.Parameter

/-!
# Faults of a signature

* `SignatureFault` -- what may be wrong with code metadata or with a list of parameters;
* `SignatureFault.message` -- its text.
-/

namespace MethodLowering

/-- What may be wrong with code metadata or with a list of parameters. -/
inductive SignatureFault where
  /-- There are more positional defaults than positional parameters. -/
  | tooManyDefaults (defaults positional : Nat)
  /-- The two counts have no sum among the counts. -/
  | countOverflow (positional keywordOnly : Nat)
  /-- There are fewer names than parameters. -/
  | tooFewNames (positional keywordOnly names : Nat)
  /-- A default is given for a name that no keyword-only parameter has. -/
  | strayDefault (name : String)
  /-- There is no name at the index that belongs to a variadic parameter. -/
  | missingName (kind : Parameter.Kind) (index names : Nat)
  /-- The index of the name of the parameter for named arguments is beyond the counts. -/
  | indexOverflow
  /-- Two parameters have one name. -/
  | duplicateName (name : String)
  /-- A parameter stands behind one that belongs behind it. -/
  | outOfOrder (name : String) (kind : Parameter.Kind)
  /-- A variadic kind occurs twice. -/
  | repeatedVariadic (kind : Parameter.Kind)
  /-- A variadic parameter has a default. -/
  | variadicDefault (name : String)
  deriving DecidableEq, Repr

namespace SignatureFault

/-- How a kind is spelled where a name of it is missing. -/
def spelling : Parameter.Kind → String
  | .varPositional => "*args"
  | .varKeyword => "**kwargs"
  | .positionalOrKeyword => "positional"
  | .keywordOnly => "keyword-only"

/-- The text of a fault. -/
def message : SignatureFault → String
  | tooManyDefaults defaults positional => s!"{defaults} positional defaults for {positional} positional parameters"
  | countOverflow positional keywordOnly => s!"parameter counts {positional} + {keywordOnly} overflow"
  | tooFewNames positional keywordOnly names =>
    s!"{positional} positional and {keywordOnly} keyword-only parameters but only {names} names"
  | strayDefault name => s!"keyword default for '{name}' which is not a keyword-only parameter"
  | missingName kind index names => s!"{spelling kind} name index {index} out of range ({names} names)"
  | indexOverflow => "**kwargs name index overflows"
  | duplicateName name => s!"duplicate parameter name '{name}'"
  | outOfOrder name kind => s!"parameter '{name}' ({kind.name}) is out of declaration order"
  | repeatedVariadic kind => s!"more than one {kind.name} parameter"
  | variadicDefault name => s!"variadic parameter '{name}' cannot have a default"

end SignatureFault

end MethodLowering
