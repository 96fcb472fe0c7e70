import MethodLowering.Bytecode.Forms
import MethodLowering.Proofs.BindingTables
import MethodLowering.Proofs.JsonText

/-!
# Code that is read back

Method records are exported as JSON. A record is an object by the names of its fields, an instruction a variant by its
name, and numbers are read only within their range. This file shows that all of it is read back, as values and as text.

* `Json.fields?_present` -- the fields of a record are found by their names, also if some are left off;
* `Instruction.ofJson?_toJson`, `CodeUnit.ofJson?_toJson`, `MethodRecord.ofJson?_toJson` -- the values are read back;
* `MethodRecord.readable_toJson` -- and their texts too;
* `MethodRecord.survives_export` -- **what is read from the text of a method record is the record**, so that two
  different records never have the same text.
-/

namespace MethodLowering

/-! ## 1. Records and numbers -/

namespace Json

/-- **The fields of a record are found by their names**, also if some are left off. -/
theorem fields?_present (items : List (String × Option Json)) {names : List String}
    (hnames : items.map Prod.fst = names) (hdistinct : names.Nodup) :
    fields? names (.object (Bindings.present items).entries) = some (items.map Prod.snd) := by
  subst hnames
  have hcounts : (items.map Prod.fst).all
      (fun name => (Bindings.present items).entries.countP (·.1 == name) ≤ 1) = true := by
    rw [List.all_eq_true]
    exact fun name _ => decide_eq_true (Bindings.countP_present_le hdistinct name)
  have hvalues : (items.map Prod.fst).map (fun name => (Bindings.present items).entries.lookup name) =
      items.map Prod.snd := by
    rw [List.map_map]
    exact List.map_congr_left fun item hmem => Bindings.get?_present hdistinct hmem
  rw [fields?, if_pos hcounts, hvalues]

theorem variant?_variant (name : String) (payload : Json) :
    variant? (variant name payload) = some (name, some payload) :=
  rfl

theorem uint16?_ofUInt16 (value : UInt16) : uint16? (ofUInt16 value) = some value := by
  have hnat : nat? UInt16.size (ofUInt16 value) = some value.toNat := if_pos value.toNat_lt_size
  rw [uint16?, hnat, Option.map_some, UInt16.ofNat_toNat]

/-- A number of 32 bits is in the range that is read. -/
theorem int?_toInt (value : Int32) :
    int? Int32.minValue.toInt (Int32.maxValue.toInt + 1) (.number (.int value.toInt)) = some value.toInt :=
  if_pos ⟨value.minValue_le_toInt, Int.lt_add_one_iff.mpr value.toInt_le⟩

theorem readable_ofUInt16 (value : UInt16) : Readable (ofUInt16 value) := by
  have hlow : Int64.minValue.toInt ≤ 0 := by decide
  have hsize : UInt16.size ≤ UInt64.size := by decide
  have hvalue := value.toNat_lt_size
  exact .int (by omega) (by omega)

theorem readable_toInt (value : Int32) : Readable (.number (.int value.toInt)) := by
  have hlow : Int64.minValue.toInt ≤ Int32.minValue.toInt := by decide
  have hhigh : Int32.maxValue.toInt < UInt64.size := by decide
  exact .int (Int.le_trans hlow value.minValue_le_toInt) (Int.lt_of_le_of_lt value.toInt_le hhigh)

/-- A variant can be read if what it carries can. -/
theorem readable_variant {payload : Json} (name : String) (h : Readable payload) : Readable (variant name payload) := by
  refine .object fun member hmem => ?_
  rw [List.mem_singleton.mp hmem]
  exact h

end Json

/-! ## 2. Code -/

namespace MethodRef

theorem ofJson?_toJson (method : MethodRef) : ofJson? method.toJson = some method := by
  have hfields : method.toJson.fields? ["class", "name", "descriptor"] =
      some [some (.string method.owner), some (.string method.name), some (.string method.descriptor)] :=
    Json.fields?_present [("class", some (.string method.owner)), ("name", some (.string method.name)),
      ("descriptor", some (.string method.descriptor))] rfl (by decide)
  simp [ofJson?, hfields, Json.required, Json.string?]

theorem readable_toJson (method : MethodRef) : method.toJson.Readable := by
  refine .object ?_
  simp only [List.forall_mem_cons]
  exact ⟨.string _, .string _, .string _, by simp⟩

end MethodRef

namespace Instruction

/-- **An instruction is read back**, by the name of its variant. -/
theorem ofJson?_toJson (instruction : Instruction) : ofJson? instruction.toJson = some instruction := by
  cases instruction with
  | loadLocal slot | storeLocal slot =>
    simp [ofJson?, toJson, Json.variant?_variant, Json.required, Json.uint16?_ofUInt16]
  | pushInt value =>
    simp only [ofJson?, toJson, Json.variant?_variant, Json.required, Json.int?_toInt, Option.bind_eq_bind,
      Option.bind_some, Option.pure_def, Int32.ofInt_toInt]
  | pushNull | arrayLoad | pop | returnValue | returnVoid | nop => rfl
  | invokeSpecial method | invokeStatic method | invokeVirtual method =>
    simp [ofJson?, toJson, Json.variant?_variant, Json.required, method.ofJson?_toJson]

theorem readable_toJson (instruction : Instruction) : instruction.toJson.Readable := by
  cases instruction with
  | loadLocal slot | storeLocal slot => exact Json.readable_variant _ (Json.readable_ofUInt16 slot)
  | pushInt value => exact Json.readable_variant _ (Json.readable_toInt value)
  | pushNull | arrayLoad | pop | returnValue | returnVoid | nop => exact .string _
  | invokeSpecial method | invokeStatic method | invokeVirtual method =>
    exact Json.readable_variant _ method.readable_toJson

end Instruction

namespace CodeUnit

theorem ofJson?_toJson (unit : CodeUnit) : ofJson? unit.toJson = some unit := by
  have hfields : unit.toJson.fields? ["max_locals", "instructions"] =
      some [some (.ofUInt16 unit.maxLocals), some (.array (unit.instructions.map Instruction.toJson))] :=
    Json.fields?_present [("max_locals", some (.ofUInt16 unit.maxLocals)),
      ("instructions", some (.array (unit.instructions.map Instruction.toJson)))] rfl (by decide)
  have hinstructions : Json.array? Instruction.ofJson? (.array (unit.instructions.map Instruction.toJson)) =
      some unit.instructions := by
    have hread := mapM_map_eq_some fun instruction (_ : instruction ∈ unit.instructions) =>
      instruction.ofJson?_toJson
    rwa [List.map_id'] at hread
  simp [ofJson?, hfields, Json.required, Json.uint16?_ofUInt16, hinstructions]

theorem readable_toJson (unit : CodeUnit) : unit.toJson.Readable := by
  have hinstructions : ∀ item ∈ unit.instructions.map Instruction.toJson, item.Readable :=
    List.forall_mem_map.mpr fun instruction _ => instruction.readable_toJson
  refine .object ?_
  simp only [List.forall_mem_cons]
  exact ⟨Json.readable_ofUInt16 _, .array hinstructions, by simp⟩

end CodeUnit

namespace MethodRecord

theorem ofJson?_toJson (record : MethodRecord) : ofJson? record.toJson = some record := by
  have hfields : record.toJson.fields? ["name", "descriptor", "is_static", "code"] =
      some [some (.string record.name), some (.string record.descriptor), some (.bool record.isStatic),
        some record.code.toJson] :=
    Json.fields?_present [("name", some (.string record.name)), ("descriptor", some (.string record.descriptor)),
      ("is_static", some (.bool record.isStatic)), ("code", some record.code.toJson)] rfl (by decide)
  simp [ofJson?, hfields, Json.required, Json.string?, Json.bool?, record.code.ofJson?_toJson]

theorem readable_toJson (record : MethodRecord) : record.toJson.Readable := by
  refine .object ?_
  simp only [List.forall_mem_cons]
  exact ⟨.string _, .string _, .bool _, record.code.readable_toJson, by simp⟩

/-- **A method record survives its export.** Its JSON value is read back as the record, and so is the text of the value;
two records have the same text only if they are equal. -/
theorem survives_export (record other : MethodRecord) :
    ofJson? record.toJson = some record ∧
      (Json.parse? record.toJson.render).bind ofJson? = some record ∧
      (other.toJson.render = record.toJson.render ↔ other = record) := by
  have htext : ∀ record : MethodRecord, (Json.parse? record.toJson.render).bind ofJson? = some record := by
    intro record
    rw [Json.parse?_render record.readable_toJson, Option.bind_some, record.ofJson?_toJson]
  refine ⟨record.ofJson?_toJson, htext record, ?_⟩
  constructor
  · intro hsame
    have hother := htext other
    rw [hsame, htext record] at hother
    exact (Option.some.inj hother).symm
  · intro heq
    rw [heq]

end MethodRecord

end MethodLowering
