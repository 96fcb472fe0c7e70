import MethodLowering.Target.Basic
import MethodLowering.Toml.Parser

/-!
# Targets in TOML

A document chooses any of the names of a target and the number of workers; other keys mean nothing.

* `Target.ofToml?` -- the target of a document, unless a key has a value of the wrong type;
* `Target.parse` -- the valid target of a text.
-/

namespace MethodLowering

/-- Why a text is no target. -/
inductive TargetError where
  /-- It is no document, or a key has a value of the wrong type. -/
  | unreadable
  /-- The target it describes has a fault. -/
  | invalid (fault : TargetFault)
  deriving DecidableEq, Repr

namespace Target

/-- The name at a key, or another where the key is not bound. -/
def nameAt? (document : Bindings Toml) (key default : String) : Option String :=
  match document.get? key with
  | none => some default
  | some (.string value) => some value
  | some _ => none

/-- The number of workers, where it is chosen. -/
def workersOf? (document : Bindings Toml) : Option (Option Nat) :=
  match document.get? "workers" with
  | none => some none
  | some (.integer (.ofNat count)) => some (some count)
  | some _ => none

/-- The target of a document. -/
def ofToml? (document : Bindings Toml) : Option Target := do
  let standard : Target := {}
  return {
    objectClass := ← nameAt? document "object_class" standard.objectClass
    kwargsClass := ← nameAt? document "kwargs_class" standard.kwargsClass
    argvDescriptor := ← nameAt? document "argv_descriptor" standard.argvDescriptor
    functionMarker := ← nameAt? document "function_marker" standard.functionMarker
    instanceMethodMarker := ← nameAt? document "instance_method_marker" standard.instanceMethodMarker
    constructorMarker := ← nameAt? document "constructor_marker" standard.constructorMarker
    constructorName := ← nameAt? document "constructor_name" standard.constructorName
    initializerDescriptor := ← nameAt? document "initializer_descriptor" standard.initializerDescriptor
    entryPointName := ← nameAt? document "entry_point_name" standard.entryPointName
    workers := ← workersOf? document }

/-- **The valid target of a text.** -/
def parse (text : String) : Except TargetError Target :=
  match (Toml.parse? text).bind ofToml? with
  | none => .error .unreadable
  | some target =>
    match target.validate with
    | .ok () => .ok target
    | .error fault => .error (.invalid fault)

end Target

end MethodLowering
