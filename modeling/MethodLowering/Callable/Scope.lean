/-!
# Scopes

A callable belongs to a module, or to a class of one.
-/

namespace MethodLowering

/-- Where a callable belongs. -/
structure Scope where
  /-- Name of the module. -/
  moduleName : String
  /-- Name of the class, for the members of one. -/
  className : Option String := none
  /-- Superclass of the class, where it is known. -/
  superclass : Option String := none
  deriving DecidableEq, Repr

namespace Scope

/-- The full name of the scope itself. -/
def fullName (scope : Scope) : String :=
  match scope.className with
  | some name => scope.moduleName ++ "." ++ name
  | none => scope.moduleName

/-- The full name of a member. -/
def qualify (scope : Scope) (name : String) : String :=
  scope.fullName ++ "." ++ name

end Scope

end MethodLowering
