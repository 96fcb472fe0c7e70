import MethodLowering.Bytecode.Instruction
import MethodLowering.Json.Form

/-!
# Code in JSON

The JSON values of method references, instructions, code units and method records, with their readers.

* `toJson` -- the value of a datum, in the namespace of its type;
* `ofJson?` -- the datum of a value; it accepts all that `toJson` gives, and the other spellings of `Json.Form`.
-/

namespace MethodLowering

/-- A number of 16 bits in JSON. -/
def Json.ofUInt16 (value : UInt16) : Json :=
  number (.int value.toNat)

/-- The number of 16 bits of a JSON value. -/
def Json.uint16? (json : Json) : Option UInt16 :=
  (json.nat? UInt16.size).map UInt16.ofNat

namespace MethodRef

/-- The JSON value of a method reference. -/
def toJson (method : MethodRef) : Json :=
  .object [("class", .string method.owner), ("name", .string method.name), ("descriptor", .string method.descriptor)]

/-- The method reference of a JSON value. -/
def ofJson? (json : Json) : Option MethodRef := do
  let [owner, name, descriptor] ← json.fields? ["class", "name", "descriptor"] | none
  return {
    owner := ← Json.required owner Json.string?
    name := ← Json.required name Json.string?
    descriptor := ← Json.required descriptor Json.string? }

end MethodRef

namespace Instruction

/-- The JSON value of an instruction: a variant by its name. -/
def toJson : Instruction → Json
  | loadLocal slot => .variant "LoadLocal" (.ofUInt16 slot)
  | storeLocal slot => .variant "StoreLocal" (.ofUInt16 slot)
  | pushInt value => .variant "PushInt" (.number (.int value.toInt))
  | pushNull => .string "PushNull"
  | arrayLoad => .string "ArrayLoad"
  | pop => .string "Pop"
  | invokeSpecial method => .variant "InvokeSpecial" method.toJson
  | invokeStatic method => .variant "InvokeStatic" method.toJson
  | invokeVirtual method => .variant "InvokeVirtual" method.toJson
  | returnValue => .string "ReturnValue"
  | returnVoid => .string "ReturnVoid"
  | nop => .string "Nop"

/-- The instruction of a JSON value. -/
def ofJson? (json : Json) : Option Instruction := do
  let (name, payload) ← json.variant?
  match name with
  | "LoadLocal" => return loadLocal (← Json.required payload Json.uint16?)
  | "StoreLocal" => return storeLocal (← Json.required payload Json.uint16?)
  | "PushInt" =>
    let value ← Json.required payload (Json.int? Int32.minValue.toInt (Int32.maxValue.toInt + 1))
    return pushInt (Int32.ofInt value)
  | "PushNull" => Json.unit? payload pushNull
  | "ArrayLoad" => Json.unit? payload arrayLoad
  | "Pop" => Json.unit? payload pop
  | "InvokeSpecial" => return invokeSpecial (← Json.required payload MethodRef.ofJson?)
  | "InvokeStatic" => return invokeStatic (← Json.required payload MethodRef.ofJson?)
  | "InvokeVirtual" => return invokeVirtual (← Json.required payload MethodRef.ofJson?)
  | "ReturnValue" => Json.unit? payload returnValue
  | "ReturnVoid" => Json.unit? payload returnVoid
  | "Nop" => Json.unit? payload nop
  | _ => none

end Instruction

namespace CodeUnit

/-- The JSON value of a code unit. -/
def toJson (unit : CodeUnit) : Json :=
  .object [("max_locals", .ofUInt16 unit.maxLocals),
    ("instructions", .array (unit.instructions.map Instruction.toJson))]

/-- The code unit of a JSON value. -/
def ofJson? (json : Json) : Option CodeUnit := do
  let [maxLocals, instructions] ← json.fields? ["max_locals", "instructions"] | none
  return {
    maxLocals := ← Json.required maxLocals Json.uint16?
    instructions := ← Json.required instructions (Json.array? Instruction.ofJson?) }

end CodeUnit

namespace MethodRecord

/-- The JSON value of a method record. -/
def toJson (method : MethodRecord) : Json :=
  .object [("name", .string method.name), ("descriptor", .string method.descriptor),
    ("is_static", .bool method.isStatic), ("code", method.code.toJson)]

/-- The method record of a JSON value. -/
def ofJson? (json : Json) : Option MethodRecord := do
  let [name, descriptor, isStatic, code] ← json.fields? ["name", "descriptor", "is_static", "code"] | none
  return {
    name := ← Json.required name Json.string?
    descriptor := ← Json.required descriptor Json.string?
    isStatic := ← Json.required isStatic Json.bool?
    code := ← Json.required code CodeUnit.ofJson? }

end MethodRecord

end MethodLowering
