import MethodLowering.Json.Form
import MethodLowering.Json.Parser
import MethodLowering.Signature.CodeMetadata

/-!
# Signatures in JSON

The JSON values of constants, hints and parameters, with their readers, and the reader of code metadata.

* `toJson`, `ofJson?` -- in the namespace of each type;
* `CodeMetadata.parse?` -- code metadata from JSON text.
-/

namespace MethodLowering

namespace Constant

/-- The JSON value of a constant. A double that is no number, or infinite, is written as null. -/
def toJson : Constant → Json
  | none => .null
  | bool value => .bool value
  | int value => .number (.int value.toInt)
  | float value => if value.isFinite then .number (.float value) else .null
  | str value => .string value

/-- The constant of a whole number: itself if it has 64 bits, else the nearest double. -/
def ofInt? (value : Int) : Option Constant :=
  if Int64.minValue.toInt ≤ value ∧ value ≤ Int64.maxValue.toInt then
    some (int (Int64.ofInt value))
  else
    (Double.nearest value.natAbs 1).map fun x => float (x.withSign (value < 0))

/-- The constant of a JSON value; arrays and objects are none. -/
def ofJson? : Json → Option Constant
  | .null => some none
  | .bool value => some (bool value)
  | .number (.int value) => ofInt? value
  | .number (.float value) => some (float value)
  | .string value => some (str value)
  | .array _ | .object _ | .unreadable => Option.none

end Constant

namespace TypeHint

/-- The JSON value of a hint. -/
def toJson : TypeHint → Json
  | noValue => .string "no_value"
  | argv => .string "argv"
  | named name => .variant "named" (.string name)

/-- The hint of a JSON value. -/
def ofJson? (json : Json) : Option TypeHint := do
  let (name, payload) ← json.variant?
  match name with
  | "no_value" => Json.unit? payload noValue
  | "argv" => Json.unit? payload argv
  | "named" => return named (← Json.required payload Json.string?)
  | _ => none

end TypeHint

namespace Parameter

/-- The kind of a JSON value, by its name. -/
def Kind.ofJson? (json : Json) : Option Kind := do
  let (name, payload) ← json.variant?
  let kind ← [positionalOrKeyword, varPositional, keywordOnly, varKeyword].find? (·.name == name)
  Json.unit? payload kind

/-- The JSON value of a parameter; what it does not have is left off. -/
def toJson (parameter : Parameter) : Json :=
  .object ([("name", .string parameter.name), ("kind", .string parameter.kind.name)]
    ++ (parameter.hint.map fun hint => ("annotation", hint.toJson)).toList
    ++ (parameter.default.map fun default => ("default", default.toJson)).toList)

/-- The parameter of a JSON value. A default of null is no default. -/
def ofJson? (json : Json) : Option Parameter := do
  let [name, kind, hint, default] ← json.fields? ["name", "kind", "annotation", "default"] | none
  return {
    name := ← Json.required name Json.string?
    kind := ← Json.required kind Kind.ofJson?
    hint := ← Json.nullable hint TypeHint.ofJson?
    default := ← Json.nullable default Constant.ofJson? }

end Parameter

/-- The bindings of an object; of a repeated name the last stays. -/
def Bindings.ofJson? {α : Type} (item? : Json → Option α) (json : Json) : Option (Bindings α) :=
  (json.object? item?).map ofList

namespace CodeMetadata

/-- The code metadata of a JSON value. -/
def ofJson? (json : Json) : Option CodeMetadata := do
  let [positionalCount, keywordOnlyCount, names, flags, hints, defaults, keywordDefaults] ← json.fields?
    ["arg_count", "kwonly_arg_count", "var_names", "flags", "annotations", "defaults", "kw_defaults"] | none
  return {
    positionalCount := ← Json.required positionalCount (Json.nat? countLimit)
    keywordOnlyCount := ← Json.withDefault 0 keywordOnlyCount (Json.nat? countLimit)
    names := ← Json.required names (Json.array? Json.string?)
    flags := UInt32.ofNat (← Json.withDefault 0 flags (Json.nat? UInt32.size))
    hints := ← Json.withDefault {} hints (Bindings.ofJson? TypeHint.ofJson?)
    defaults := ← Json.withDefault [] defaults (Json.array? Constant.ofJson?)
    keywordDefaults := ← Json.withDefault {} keywordDefaults (Bindings.ofJson? Constant.ofJson?) }

/-- **The code metadata of a JSON text.** -/
def parse? (text : String) : Option CodeMetadata :=
  (Json.parse? text).bind ofJson?

end CodeMetadata

end MethodLowering
