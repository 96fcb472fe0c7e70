import MethodLowering.Proofs.OpStream
import MethodLowering.Proofs.SymbolIndices

/-!
# Reading encoded code back

Units of code are encoded one after the other with one symbol table. Whatever is encoded can be read back with the
table that stands at the end of the run.

* `Op.lift`, `lift` -- the instruction that an operation means, given a symbol table;
* `Op.Encodes`, `Encoded` -- operations that mean their instructions in every later table;
* `Instruction.op_cases`, `CodeUnit.encode_cases` -- an instruction or a unit becomes such operations, or has a constant
  that no operation holds;
* `SymbolTable.encodeAll` -- the table behind a run of units, of which some may fail;
* `CodeUnit.decode_encode` -- **encoding over a whole run is lossless.**
-/

namespace MethodLowering

/-! ## 1. What an operation means -/

/-- The instruction that an operation means: slots from all forms of loads and stores, constants from opcodes and from
signed operands, calls by what the index stands for in the table. -/
def Op.lift (table : SymbolTable) (op : Op) : Option Instruction :=
  match op.opcode, op.operand with
  | .nop, none => some .nop
  | .aconstNull, none => some .pushNull
  | .iconstM1, none => some (.pushInt (-1))
  | .iconst0, none => some (.pushInt 0)
  | .iconst1, none => some (.pushInt 1)
  | .iconst2, none => some (.pushInt 2)
  | .iconst3, none => some (.pushInt 3)
  | .iconst4, none => some (.pushInt 4)
  | .iconst5, none => some (.pushInt 5)
  | .bipush, some value => some (.pushInt value.toUInt8.toInt8.toInt32)
  | .sipush, some value => some (.pushInt value.toInt16.toInt32)
  | .aload, some slot => some (.loadLocal slot)
  | .aload0, none => some (.loadLocal 0)
  | .aload1, none => some (.loadLocal 1)
  | .aload2, none => some (.loadLocal 2)
  | .aload3, none => some (.loadLocal 3)
  | .aaload, none => some .arrayLoad
  | .astore, some slot => some (.storeLocal slot)
  | .astore0, none => some (.storeLocal 0)
  | .astore1, none => some (.storeLocal 1)
  | .astore2, none => some (.storeLocal 2)
  | .astore3, none => some (.storeLocal 3)
  | .pop, none => some .pop
  | .areturn, none => some .returnValue
  | .returnVoid, none => some .returnVoid
  | .invokevirtual, some index => (table.method? index).map .invokeVirtual
  | .invokespecial, some index => (table.method? index).map .invokeSpecial
  | .invokestatic, some index => (table.method? index).map .invokeStatic
  | _, _ => none

/-- The instructions that operations mean, if all of them mean one. -/
def lift (table : SymbolTable) (ops : List LocatedOp) : Option (List Instruction) :=
  ops.mapM fun op => op.lift table

theorem lift_cons {table : SymbolTable} {op : LocatedOp} {ops : List LocatedOp} {instruction : Instruction}
    {instructions : List Instruction} (hop : op.lift table = some instruction)
    (hops : lift table ops = some instructions) : lift table (op :: ops) = some (instruction :: instructions) := by
  unfold lift at hops ⊢
  rw [List.mapM_cons, hops, hop]
  rfl

/-- **An operation that stands for an instruction**: it is of the instruction set, and with a table or any later one
that has no more references than there are indices, it means the instruction. -/
structure Op.Encodes (op : Op) (instruction : Instruction) (table : SymbolTable) : Prop where
  wellFormed : op.WellFormed
  lift_eq : ∀ later, table.Extends later → later.size ≤ 65535 → op.lift later = some instruction

/-! ## 2. The operation of an instruction -/

/-- The forms of an operation on a local slot: by itself, with an operand byte, wide. -/
theorem Op.onSlot_cases (short0 short1 short2 short3 long : Opcode) (slot : UInt16) :
    (slot = 0 ∧ onSlot short0 short1 short2 short3 long slot = { opcode := short0 }) ∨
    (slot = 1 ∧ onSlot short0 short1 short2 short3 long slot = { opcode := short1 }) ∨
    (slot = 2 ∧ onSlot short0 short1 short2 short3 long slot = { opcode := short2 }) ∨
    (slot = 3 ∧ onSlot short0 short1 short2 short3 long slot = { opcode := short3 }) ∨
    (slot.toNat < 256 ∧ onSlot short0 short1 short2 short3 long slot = { opcode := long, operand := some slot }) ∨
    (256 ≤ slot.toNat ∧
      onSlot short0 short1 short2 short3 long slot = { opcode := long, operand := some slot, wide := true }) := by
  unfold onSlot
  split
  · exact .inl ⟨UInt16.toNat_inj.mp ‹_›, rfl⟩
  · exact .inr (.inl ⟨UInt16.toNat_inj.mp ‹_›, rfl⟩)
  · exact .inr (.inr (.inl ⟨UInt16.toNat_inj.mp ‹_›, rfl⟩))
  · exact .inr (.inr (.inr (.inl ⟨UInt16.toNat_inj.mp ‹_›, rfl⟩)))
  · by_cases hwide : 255 < slot.toNat
    · exact .inr (.inr (.inr (.inr (.inr ⟨hwide, by rw [decide_eq_true hwide]⟩))))
    · exact .inr (.inr (.inr (.inr (.inl ⟨by omega, by rw [decide_eq_false hwide]⟩))))

theorem Op.encodes_onSlot {short0 short1 short2 short3 long : Opcode} {make : UInt16 → Instruction}
    {table : SymbolTable} (h0 : ({ opcode := short0 } : Op).Encodes (make 0) table)
    (h1 : ({ opcode := short1 } : Op).Encodes (make 1) table) (h2 : ({ opcode := short2 } : Op).Encodes (make 2) table)
    (h3 : ({ opcode := short3 } : Op).Encodes (make 3) table) (hlong : long = .aload ∨ long = .astore)
    (hlift : ∀ later slot wide, ({ opcode := long, operand := some slot, wide } : Op).lift later = some (make slot))
    (slot : UInt16) : (onSlot short0 short1 short2 short3 long slot).Encodes (make slot) table := by
  rcases onSlot_cases short0 short1 short2 short3 long slot with
    ⟨rfl, heq⟩ | ⟨rfl, heq⟩ | ⟨rfl, heq⟩ | ⟨rfl, heq⟩ | ⟨hbyte, heq⟩ | ⟨_, heq⟩
  · rwa [heq]
  · rwa [heq]
  · rwa [heq]
  · rwa [heq]
  · rw [heq]
    refine ⟨wellFormed_plain.mpr ?_, fun later _ _ => hlift later slot false⟩
    rcases hlong with rfl | rfl
    · exact ⟨by decide, Opcode.takes_byte rfl hbyte⟩
    · exact ⟨by decide, Opcode.takes_byte rfl hbyte⟩
  · rw [heq]
    exact ⟨wellFormed_wide.mpr ⟨hlong, rfl⟩, fun later _ _ => hlift later slot true⟩

theorem Op.encodes_load (table : SymbolTable) (slot : UInt16) : (Op.load slot).Encodes (.loadLocal slot) table :=
  encodes_onSlot ⟨by decide, fun _ _ _ => rfl⟩ ⟨by decide, fun _ _ _ => rfl⟩ ⟨by decide, fun _ _ _ => rfl⟩
    ⟨by decide, fun _ _ _ => rfl⟩ (.inl rfl) (fun _ _ _ => rfl) slot

theorem Op.encodes_store (table : SymbolTable) (slot : UInt16) : (Op.store slot).Encodes (.storeLocal slot) table :=
  encodes_onSlot ⟨by decide, fun _ _ _ => rfl⟩ ⟨by decide, fun _ _ _ => rfl⟩ ⟨by decide, fun _ _ _ => rfl⟩
    ⟨by decide, fun _ _ _ => rfl⟩ (.inr rfl) (fun _ _ _ => rfl) slot

/-- A signed number comes back from its remainder. -/
theorem bmod_toNat_emod {n : Int} {size : Nat} (hlow : -(size / 2 : Int) ≤ n) (hhigh : n < (size + 1) / 2) :
    ((n % size).toNat : Int).bmod size = n := by
  have hpos : (size : Int) ≠ 0 := by omega
  rw [Int.toNat_of_nonneg (Int.emod_nonneg n hpos), Int.emod_bmod]
  exact Int.bmod_eq_of_le hlow hhigh

theorem toInt_signedByte (value : UInt16) : value.toUInt8.toInt8.toInt32.toInt = (value.toNat : Int).bmod 256 := by
  rw [Int8.toInt_toInt32]
  show value.toUInt8.toBitVec.toInt = _
  rw [BitVec.toInt_eq_toNat_bmod]
  show (value.toUInt8.toNat : Int).bmod 256 = _
  rw [UInt16.toNat_toUInt8, Int.natCast_emod]
  exact Int.emod_bmod _ 256

theorem toInt_signedWord (value : UInt16) : value.toInt16.toInt32.toInt = (value.toNat : Int).bmod 65536 := by
  rw [Int16.toInt_toInt32]
  show value.toBitVec.toInt = _
  rw [BitVec.toInt_eq_toNat_bmod]
  rfl

theorem Op.encodes_bipush {value : Int32} (hlow : -128 ≤ value.toInt) (hhigh : value.toInt ≤ 127)
    (table : SymbolTable) :
    ({ opcode := .bipush, operand := some (UInt16.ofNat (value.toInt % 256).toNat) } : Op).Encodes
      (.pushInt value) table := by
  have htoNat : (UInt16.ofNat (value.toInt % 256).toNat).toNat = (value.toInt % 256).toNat :=
    UInt16.toNat_ofNat_of_lt' (show _ < 2 ^ 16 by omega)
  have hsigned : (UInt16.ofNat (value.toInt % 256).toNat).toUInt8.toInt8.toInt32 = value := by
    apply Int32.toInt_inj.mp
    rw [toInt_signedByte, htoNat]
    exact @bmod_toNat_emod value.toInt 256 (by omega) (by omega)
  refine ⟨wellFormed_plain.mpr ⟨by decide, Opcode.takes_byte rfl (by omega)⟩, fun _ _ _ => ?_⟩
  exact congrArg (fun value => some (Instruction.pushInt value)) hsigned

theorem Op.encodes_sipush {value : Int32} (hlow : -32768 ≤ value.toInt) (hhigh : value.toInt ≤ 32767)
    (table : SymbolTable) :
    ({ opcode := .sipush, operand := some (UInt16.ofNat (value.toInt % 65536).toNat) } : Op).Encodes
      (.pushInt value) table := by
  have htoNat : (UInt16.ofNat (value.toInt % 65536).toNat).toNat = (value.toInt % 65536).toNat :=
    UInt16.toNat_ofNat_of_lt' (show _ < 2 ^ 16 by omega)
  have hsigned : (UInt16.ofNat (value.toInt % 65536).toNat).toInt16.toInt32 = value := by
    apply Int32.toInt_inj.mp
    rw [toInt_signedWord, htoNat]
    exact @bmod_toNat_emod value.toInt 65536 (by omega) (by omega)
  refine ⟨wellFormed_plain.mpr ⟨by decide, Opcode.takes_word rfl _⟩, fun _ _ _ => ?_⟩
  exact congrArg (fun value => some (Instruction.pushInt value)) hsigned

/-- The opcode of a small constant means it. -/
theorem Op.constantOpcode?_spec {n : Int} {opcode : Opcode} (h : constantOpcode? n = some opcode) :
    (-1 ≤ n ∧ n ≤ 5) ∧ ({ opcode } : Op).WellFormed ∧
      ∀ table, ({ opcode } : Op).lift table = some (.pushInt (Int32.ofInt n)) := by
  unfold constantOpcode? at h
  split at h
  case h_8 => cases h
  all_goals
    cases h
    exact ⟨by decide, by decide, fun _ => rfl⟩

/-- Whether a constant fits in 16 bits. -/
def FitsWord (value : Int32) : Prop :=
  -32768 ≤ value.toInt ∧ value.toInt ≤ 32767

/-- A constant has an operation, which means it, exactly when it fits in 16 bits. -/
theorem Op.int_cases (value : Int32) :
    (FitsWord value ∧ ∃ op, Op.int value = .ok op ∧ ∀ table, op.Encodes (.pushInt value) table) ∨
      (¬FitsWord value ∧ Op.int value = .error (.intOutOfRange value)) := by
  unfold Op.int FitsWord
  dsimp only
  split
  · rename_i opcode hopcode
    obtain ⟨hrange, hop, hlift⟩ := constantOpcode?_spec hopcode
    refine .inl ⟨by omega, _, rfl, fun table => ⟨hop, fun later _ _ => ?_⟩⟩
    rw [hlift, Int32.ofInt_toInt]
  · split
    · rename_i hbyte
      exact .inl ⟨by omega, _, rfl, encodes_bipush hbyte.1 hbyte.2⟩
    · split
      · rename_i hword
        exact .inl ⟨hword, _, rfl, encodes_sipush hword.1 hword.2⟩
      · rename_i hword
        exact .inr ⟨hword, rfl⟩

/-- A call whose index has been handed out for its method means this call. -/
theorem Op.encodes_invoke {opcode : Opcode} {make : MethodRef → Instruction}
    (hopcode : opcode ≠ .wide) (hsize : opcode.operandSize = 2)
    (hlift : ∀ table index, (Op.invoke opcode index).lift table = (table.method? index).map make)
    {table : SymbolTable} (htable : table.Coherent) (method : MethodRef) :
    (Op.invoke opcode (table.intern method).1).Encodes (make method) (table.intern method).2 where
  wellFormed := wellFormed_plain.mpr ⟨hopcode, Opcode.takes_word hsize _⟩
  lift_eq later hlater hbound := by
    rw [hlift, htable.method?_intern method hlater hbound]
    rfl

/-- **What becomes of an instruction**: an operation that means it, or a fault for a constant beyond 16 bits. -/
theorem Instruction.op_cases {table : SymbolTable} (htable : table.Coherent) (instruction : Instruction) :
    ((∀ value, instruction = .pushInt value → FitsWord value) ∧
      ∃ op after, instruction.op table = (.ok op, after) ∧ op.Encodes instruction after) ∨
    ∃ value, instruction = .pushInt value ∧ ¬FitsWord value ∧
      instruction.op table = (.error (.intOutOfRange value), table) := by
  cases instruction with
  | loadLocal slot => exact .inl ⟨nofun, _, _, rfl, Op.encodes_load table slot⟩
  | storeLocal slot => exact .inl ⟨nofun, _, _, rfl, Op.encodes_store table slot⟩
  | pushInt value =>
    rcases Op.int_cases value with ⟨hshort, op, hop, hencodes⟩ | ⟨hlong, hfault⟩
    · refine .inl ⟨fun other hother => ?_, op, table, by rw [Instruction.op, hop], hencodes table⟩
      cases hother
      exact hshort
    · exact .inr ⟨value, rfl, hlong, by rw [Instruction.op, hfault]⟩
  | invokeSpecial method =>
    exact .inl ⟨nofun, _, _, rfl, Op.encodes_invoke (by decide) rfl (fun _ _ => rfl) htable method⟩
  | invokeStatic method =>
    exact .inl ⟨nofun, _, _, rfl, Op.encodes_invoke (by decide) rfl (fun _ _ => rfl) htable method⟩
  | invokeVirtual method =>
    exact .inl ⟨nofun, _, _, rfl, Op.encodes_invoke (by decide) rfl (fun _ _ => rfl) htable method⟩
  | _ => exact .inl ⟨nofun, _, _, rfl, by decide, fun _ _ _ => rfl⟩

/-! ## 3. The symbol table along a run -/

theorem Writer.write_ok {writer : Writer} {instruction : Instruction} {op : Op} {after : SymbolTable}
    (h : instruction.op writer.symbols = (.ok op, after)) :
    writer.write instruction = (⟨writer.bytes ++ op.bytes, after⟩, none) := by
  obtain ⟨bytes, symbols⟩ := writer
  rw [write, h]

theorem Writer.write_error {writer : Writer} {instruction : Instruction} {fault : EncodeFault} {after : SymbolTable}
    (h : instruction.op writer.symbols = (.error fault, after)) :
    writer.write instruction = (⟨writer.bytes, after⟩, some fault) := by
  obtain ⟨bytes, symbols⟩ := writer
  rw [write, h]

section Symbols

variable {P : SymbolTable → Prop} (hintern : ∀ table method, P table → P (SymbolTable.intern table method).2)
include hintern

/-- What interning keeps, the operation of an instruction keeps. -/
theorem Instruction.op_keeps {table : SymbolTable} (h : P table) (instruction : Instruction) :
    P (instruction.op table).2 := by
  cases instruction with
  | invokeSpecial method => exact hintern table method h
  | invokeStatic method => exact hintern table method h
  | invokeVirtual method => exact hintern table method h
  | _ => exact h

theorem Writer.write_keeps {writer : Writer} (h : P writer.symbols) (instruction : Instruction) :
    P (writer.write instruction).1.symbols := by
  have hkeeps := instruction.op_keeps hintern h
  rcases hop : instruction.op writer.symbols with ⟨fault | op, after⟩
  · rw [hop] at hkeeps
    rw [write_error hop]
    exact hkeeps
  · rw [hop] at hkeeps
    rw [write_ok hop]
    exact hkeeps

theorem Writer.writeAll_keeps {writer : Writer} (h : P writer.symbols) (instructions : List Instruction) :
    P (writeAll instructions writer).1.symbols := by
  induction instructions generalizing writer with
  | nil => exact h
  | cons instruction rest ih =>
    have hwrite := write_keeps hintern h instruction
    unfold writeAll
    split
    · rename_i heq
      rw [heq] at hwrite
      exact ih hwrite
    · rename_i heq
      rwa [heq] at hwrite

/-- What interning keeps, encoding a unit keeps, also when it fails. -/
theorem CodeUnit.encode_keeps {symbols : SymbolTable} (h : P symbols) (unit : CodeUnit) :
    P (unit.encode symbols).2 := by
  have hall := Writer.writeAll_keeps hintern (show P (Writer.mk #[] symbols).symbols from h) unit.instructions
  unfold encode
  split
  · rename_i heq
    rwa [heq] at hall
  · rename_i heq
    rwa [heq] at hall

end Symbols

/-- The symbol table behind a run of units, each of which is encoded with the table that the units before it leave. -/
def SymbolTable.encodeAll (table : SymbolTable) (units : List CodeUnit) : SymbolTable :=
  units.foldl (fun symbols unit => (unit.encode symbols).2) table

theorem SymbolTable.encodeAll_append_cons (table : SymbolTable) (before : List CodeUnit) (unit : CodeUnit)
    (after : List CodeUnit) :
    table.encodeAll (before ++ unit :: after) = (unit.encode (table.encodeAll before)).2.encodeAll after := by
  rw [encodeAll, List.foldl_append]
  rfl

/-- What interning keeps, a run keeps. -/
theorem SymbolTable.encodeAll_keeps {P : SymbolTable → Prop}
    (hintern : ∀ table method, P table → P (SymbolTable.intern table method).2) {table : SymbolTable} (h : P table)
    (units : List CodeUnit) : P (table.encodeAll units) := by
  induction units generalizing table with
  | nil => exact h
  | cons unit rest ih => exact ih (unit.encode_keeps hintern h)

theorem SymbolTable.coherent_encodeAll (units : List CodeUnit) : (empty.encodeAll units).Coherent :=
  encodeAll_keeps (fun _ method h => h.intern method) coherent_empty units

theorem SymbolTable.extends_encodeAll (table : SymbolTable) (units : List CodeUnit) :
    table.Extends (table.encodeAll units) :=
  encodeAll_keeps (fun symbols method h => h.trans (symbols.extends_intern method)) (.refl table) units

/-! ## 4. Encoding and decoding a unit -/

/-- **Operations one behind the other that stand for instructions**: with a table or any later one that has no more
references than there are indices, they mean them. -/
structure Encoded (start : Nat) (ops : List LocatedOp) (instructions : List Instruction) (table : SymbolTable) :
    Prop where
  laidOut : LaidOut start ops
  length_eq : ops.length = instructions.length
  lift_eq : ∀ later, table.Extends later → later.size ≤ 65535 → lift later ops = some instructions

theorem encoded_nil (start : Nat) (table : SymbolTable) : Encoded start [] [] table :=
  ⟨laidOut_nil start, rfl, fun _ _ _ => rfl⟩

theorem Encoded.cons {start : Nat} {op : Op} {ops : List LocatedOp} {instruction : Instruction}
    {instructions : List Instruction} {table after : SymbolTable} (hop : op.Encodes instruction table)
    (hafter : table.Extends after) (hops : Encoded (start + op.bytes.length) ops instructions after) :
    Encoded start ({ op with offset := start } :: ops) (instruction :: instructions) after where
  laidOut := laidOut_cons.mpr ⟨rfl, hop.wellFormed, hops.laidOut⟩
  length_eq := congrArg (· + 1) hops.length_eq
  lift_eq later hlater hsize :=
    lift_cons (hop.lift_eq later (hafter.trans hlater) hsize) (hops.lift_eq later hlater hsize)

namespace Writer

theorem extends_writeAll (writer : Writer) (instructions : List Instruction) :
    writer.symbols.Extends (writeAll instructions writer).1.symbols :=
  writeAll_keeps (fun table method h => h.trans (table.extends_intern method)) (.refl writer.symbols) instructions

/-- **What becomes of instructions**: the bytes of operations that stand for them, or a fault for a constant beyond 16
bits. -/
theorem writeAll_cases {writer : Writer} (hwriter : writer.symbols.Coherent) (instructions : List Instruction) :
    ((∀ value, .pushInt value ∈ instructions → FitsWord value) ∧
      ∃ after ops, writeAll instructions writer = (after, none) ∧
        after.bytes.toList = writer.bytes.toList ++ serialize ops ∧
        Encoded writer.bytes.size ops instructions after.symbols) ∨
    ∃ value after, .pushInt value ∈ instructions ∧ ¬FitsWord value ∧
      writeAll instructions writer = (after, some (.intOutOfRange value)) := by
  induction instructions generalizing writer with
  | nil => exact .inl ⟨nofun, writer, [], rfl, (List.append_nil _).symm, encoded_nil _ _⟩
  | cons instruction rest ih =>
    have hkeeps := instruction.op_keeps (P := SymbolTable.Coherent) (fun _ method h => h.intern method) hwriter
    rcases instruction.op_cases hwriter with ⟨hfits, op, symbols, hop, hencodes⟩ | ⟨value, rfl, hlong, hop⟩
    · rw [hop] at hkeeps
      rw [writeAll, write_ok hop]
      rcases ih (show (Writer.mk (writer.bytes ++ op.bytes) symbols).symbols.Coherent from hkeeps) with
        ⟨hrest, after, ops, hall, hbytes, hops⟩ | ⟨value, after, hmem, hlong, hall⟩
      · -- the operation means its instruction from the table behind it on, which the rest only extends
        have hextends := extends_writeAll ⟨writer.bytes ++ op.bytes, symbols⟩ rest
        rw [hall] at hextends
        have hstart : (writer.bytes ++ op.bytes).size = writer.bytes.size + op.bytes.length := by
          rw [← Array.length_toList, Array.toList_appendList, List.length_append, Array.length_toList]
        refine .inl ⟨?_, after, _, hall, ?_, .cons hencodes hextends (hstart ▸ hops)⟩
        · intro value hmem
          rcases List.mem_cons.mp hmem with heq | hmem
          · exact hfits value heq.symm
          · exact hrest value hmem
        · rw [hbytes, serialize_cons]
          simp
      · exact .inr ⟨value, after, List.mem_cons_of_mem _ hmem, hlong, hall⟩
    · refine .inr ⟨value, writer, List.mem_cons_self, hlong, ?_⟩
      rw [writeAll, write_error hop]

end Writer

/-- **What becomes of a unit**: the serialization of operations that stand for its instructions, or a fault for a
constant beyond 16 bits. -/
theorem CodeUnit.encode_cases {symbols : SymbolTable} (hsymbols : symbols.Coherent) (unit : CodeUnit) :
    ((∀ value, .pushInt value ∈ unit.instructions → FitsWord value) ∧
      ∃ bytes after ops, unit.encode symbols = (.ok bytes, after) ∧ bytes.toList = serialize ops ∧
        Encoded 0 ops unit.instructions after) ∨
    ∃ value after, .pushInt value ∈ unit.instructions ∧ ¬FitsWord value ∧
      unit.encode symbols = (.error (.intOutOfRange value), after) := by
  rcases Writer.writeAll_cases (show (Writer.mk #[] symbols).symbols.Coherent from hsymbols) unit.instructions with
    ⟨hfits, after, ops, hall, hbytes, hops⟩ | ⟨value, after, hmem, hlong, hall⟩
  · refine .inl ⟨hfits, after.bytes, after.symbols, ops, ?_, hbytes, hops⟩
    rw [encode, hall]
  · refine .inr ⟨value, after.symbols, hmem, hlong, ?_⟩
    rw [encode, hall]

/-- **Encoding over a whole run is lossless.** Take any units that are encoded in order with one table, which is empty
before the first of them; some may fail. If there are no more methods in the end than indices, a unit among them has
bytes exactly when its constants fit in 16 bits, and these bytes decode to one operation for each instruction, which
mean the instructions in the table at the end of the run. -/
theorem CodeUnit.decode_encode (before : List CodeUnit) (unit : CodeUnit) (after : List CodeUnit)
    (hsize : (SymbolTable.empty.encodeAll (before ++ unit :: after)).size ≤ 65535) :
    ((∃ bytes, (unit.encode (SymbolTable.empty.encodeAll before)).1 = .ok bytes) ↔
      ∀ value, .pushInt value ∈ unit.instructions → FitsWord value) ∧
    ∀ bytes, (unit.encode (SymbolTable.empty.encodeAll before)).1 = .ok bytes →
      ∃ ops, decode bytes.toList = .ok ops ∧ ops.size = unit.instructions.length ∧
        lift (SymbolTable.empty.encodeAll (before ++ unit :: after)) ops.toList = some unit.instructions := by
  rcases unit.encode_cases (SymbolTable.coherent_encodeAll before) with
    ⟨hfits, bytes, symbols, ops, hencode, hbytes, hops⟩ | ⟨value, symbols, hmem, hlong, hencode⟩
  · rw [SymbolTable.encodeAll_append_cons, hencode] at hsize ⊢
    refine ⟨⟨fun _ => hfits, fun _ => ⟨bytes, rfl⟩⟩, fun other hother => ?_⟩
    cases hother
    have hlift := hops.lift_eq _ (symbols.extends_encodeAll after) hsize
    exact ⟨ops.toArray, by rw [hbytes, decode_serialize hops.laidOut], hops.length_eq, hlift⟩
  · rw [hencode]
    refine ⟨⟨?_, fun hfits => absurd (hfits value hmem) hlong⟩, fun _ hother => ?_⟩
    · rintro ⟨_, hother⟩
      cases hother
    · cases hother

/-- A unit that fails behind a call, whose method stays in the table. -/
def failingUnit : CodeUnit where
  instructions := [.invokeStatic ⟨"demo/Host", "log", "(I)V"⟩, .pushInt 40000, .returnVoid]

/-- A unit that calls a new method and the one that the failing unit has left. -/
def callingUnit : CodeUnit where
  maxLocals := 301
  instructions :=
    [.loadLocal 300, .invokeVirtual ⟨"demo/Host", "run", "()V"⟩, .pushInt (-200),
      .invokeStatic ⟨"demo/Host", "log", "(I)V"⟩, .returnVoid]

theorem CodeUnit.decode_encode_callingUnit :
    (SymbolTable.empty.encodeAll [failingUnit, callingUnit]).size ≤ 65535 ∧
      (failingUnit.encode .empty).1 = .error (.intOutOfRange 40000) ∧
      (callingUnit.encode (SymbolTable.empty.encodeAll [failingUnit])).1 =
        .ok #[0xC4, 0x19, 0x01, 0x2C, 0xB6, 0x00, 0x02, 0x11, 0xFF, 0x38, 0xB8, 0x00, 0x01, 0xB1] ∧
      ∃ ops, decode [0xC4, 0x19, 0x01, 0x2C, 0xB6, 0x00, 0x02, 0x11, 0xFF, 0x38, 0xB8, 0x00, 0x01, 0xB1] = .ok ops ∧
        ops.size = 5 ∧
        lift (SymbolTable.empty.encodeAll [failingUnit, callingUnit]) ops.toList = some callingUnit.instructions := by
  have hlong : Op.int 40000 = .error (.intOutOfRange 40000) := rfl
  have hshort : Op.int (-200) = .ok { opcode := .sipush, operand := some 0xFF38 } := rfl
  have hfailing : failingUnit.encode .empty =
      (.error (.intOutOfRange 40000), SymbolTable.empty.push ⟨"demo/Host", "log", "(I)V"⟩) := by
    simp [failingUnit, encode, Writer.writeAll, Writer.write, Instruction.op, hlong, SymbolTable.intern,
      SymbolTable.get?, SymbolTable.empty, SymbolTable.push, SymbolTable.size]
  have hcalling : callingUnit.encode (SymbolTable.empty.push ⟨"demo/Host", "log", "(I)V"⟩) =
      (.ok #[0xC4, 0x19, 0x01, 0x2C, 0xB6, 0x00, 0x02, 0x11, 0xFF, 0x38, 0xB8, 0x00, 0x01, 0xB1],
        (SymbolTable.empty.push ⟨"demo/Host", "log", "(I)V"⟩).push ⟨"demo/Host", "run", "()V"⟩) := by
    simp [callingUnit, encode, Writer.writeAll, Writer.write, Instruction.op, hshort, SymbolTable.intern,
      SymbolTable.get?, SymbolTable.empty, SymbolTable.push, SymbolTable.size, Std.HashMap.getElem_insert]
    rfl
  have hsize : (SymbolTable.empty.encodeAll ([failingUnit] ++ callingUnit :: [])).size ≤ 65535 := by
    rw [SymbolTable.encodeAll_append_cons]
    show ((callingUnit.encode (failingUnit.encode .empty).2).2).size ≤ 65535
    rw [hfailing, hcalling]
    decide
  have hbytes : (callingUnit.encode (SymbolTable.empty.encodeAll [failingUnit])).1 =
      .ok #[0xC4, 0x19, 0x01, 0x2C, 0xB6, 0x00, 0x02, 0x11, 0xFF, 0x38, 0xB8, 0x00, 0x01, 0xB1] := by
    show (callingUnit.encode (failingUnit.encode .empty).2).1 = _
    rw [hfailing, hcalling]
  exact ⟨hsize, by rw [hfailing], hbytes, (decode_encode [failingUnit] callingUnit [] hsize).2 _ hbytes⟩

end MethodLowering
