import MethodLowering.Proofs.EncodingRoundTrip
import MethodLowering.Proofs.TableRuns

/-!
# What encoding does, and what is left where it fails

Instructions are written one behind the other, and what they call is interned on the way. A constant beyond 16 bits
stops this in the middle, with the symbol table as far as it has come.

* `Instruction.Fits` -- an instruction whose constant, if it has one, fits;
* `Writer.write_fault` -- an instruction that cannot be written changes nothing;
* `callees`, `writtenApart` -- what instructions call, and the bytes that each gives by itself;
* `Writer.writeAll_of_fits`, `Writer.writeAll_of_unfit` -- what becomes of a writer and its table, whatever they held;
* `CodeUnit.encode_ok_iff` -- code is encoded exactly if all of it fits;
* `CodeUnit.encode_effect` -- **the outcome of encoding, its bytes and the table behind it, for every unit and table.**
-/

namespace MethodLowering

/-! ## 1. One instruction -/

namespace Instruction

/-- An instruction whose constant, if it has one, fits in 16 bits. -/
def Fits (instruction : Instruction) : Prop :=
  ∀ value, instruction = .pushInt value → FitsWord value

theorem fits_or_unfit (instruction : Instruction) :
    instruction.Fits ∨ ∃ value, instruction = .pushInt value ∧ ¬FitsWord value := by
  cases instruction with
  | pushInt value =>
    rcases Op.int_cases value with ⟨hshort, _⟩ | ⟨hlong, _⟩
    · exact Or.inl fun other hother => Instruction.pushInt.inj hother ▸ hshort
    · exact Or.inr ⟨value, rfl, hlong⟩
  | _ => exact Or.inl nofun

/-- An instruction that fits has an operation, whatever methods are in the table. -/
theorem op_of_fits {instruction : Instruction} (h : instruction.Fits) (table : SymbolTable) :
    ∃ op after, instruction.op table = (.ok op, after) ∧ op.WellFormed := by
  have hinvoke {opcode : Opcode} (hopcode : opcode ≠ .wide) (hsize : opcode.operandSize = 2) (index : UInt16) :
      (Op.invoke opcode index).WellFormed := Op.wellFormed_plain.mpr ⟨hopcode, Opcode.takes_word hsize _⟩
  cases instruction with
  | loadLocal slot => exact ⟨_, _, rfl, (Op.encodes_load table slot).wellFormed⟩
  | storeLocal slot => exact ⟨_, _, rfl, (Op.encodes_store table slot).wellFormed⟩
  | pushInt value =>
    rcases Op.int_cases value with ⟨_, op, hop, hencodes⟩ | ⟨hlong, _⟩
    · exact ⟨op, table, by rw [Instruction.op, hop], (hencodes table).wellFormed⟩
    · exact absurd (h value rfl) hlong
  | invokeSpecial method => exact ⟨_, _, rfl, hinvoke (by decide) rfl _⟩
  | invokeStatic method => exact ⟨_, _, rfl, hinvoke (by decide) rfl _⟩
  | invokeVirtual method => exact ⟨_, _, rfl, hinvoke (by decide) rfl _⟩
  | _ => exact ⟨_, _, rfl, by decide⟩

theorem op_of_unfit {value : Int32} (h : ¬FitsWord value) (table : SymbolTable) :
    (Instruction.pushInt value).op table = (.error (.intOutOfRange value), table) := by
  rcases Op.int_cases value with ⟨hshort, _⟩ | ⟨_, hfault⟩
  · exact absurd hshort h
  · rw [op, hfault]

/-- An instruction that has an operation fits. -/
theorem fits_of_op {instruction : Instruction} {table after : SymbolTable} {op : Op}
    (h : instruction.op table = (.ok op, after)) : instruction.Fits := by
  rcases instruction.fits_or_unfit with hfits | ⟨value, rfl, hvalue⟩
  · exact hfits
  · rw [op_of_unfit hvalue] at h
    cases h

end Instruction

/-- **An instruction that cannot be written changes nothing**, neither the bytes nor the table. -/
theorem Writer.write_fault {writer : Writer} {instruction : Instruction} {fault : EncodeFault}
    (h : (writer.write instruction).2 = some fault) : (writer.write instruction).1 = writer := by
  rcases instruction.fits_or_unfit with hfits | ⟨value, rfl, hvalue⟩
  · obtain ⟨op, after, hop, _⟩ := Instruction.op_of_fits hfits writer.symbols
    rw [write_ok hop] at h
    cases h
  · rw [write_error (Instruction.op_of_unfit hvalue writer.symbols)]

/-! ## 2. Instructions one behind the other -/

/-- The methods that instructions call, in order. -/
def callees (instructions : List Instruction) : List MethodRef :=
  instructions.filterMap Instruction.callee?

/-- The bytes of instructions when each is written by a writer of its own, which has the table that the one before it
leaves. -/
def writtenApart : List Instruction → SymbolTable → List UInt8
  | [], _ => []
  | instruction :: rest, table =>
    let alone := ({ symbols := table } : Writer).write instruction
    alone.1.bytes.toList ++ writtenApart rest alone.1.symbols

/-- The operation of an instruction interns what it calls, and nothing else. -/
theorem internAll_callees_cons (instruction : Instruction) (rest : List Instruction) (table : SymbolTable) :
    SymbolTable.internAll (callees (instruction :: rest)) table =
      SymbolTable.internAll (callees rest) (instruction.op table).2 := by
  cases instruction <;> rfl

theorem writtenApart_cons {instruction : Instruction} {table after : SymbolTable} {op : Op}
    (h : instruction.op table = (.ok op, after)) (rest : List Instruction) :
    writtenApart (instruction :: rest) table = op.bytes ++ writtenApart rest after := by
  have hwrite : ({ symbols := table } : Writer).write instruction = (⟨#[] ++ op.bytes, after⟩, none) :=
    Writer.write_ok h
  rw [writtenApart, hwrite]
  simp

theorem forall_fits_iff {instructions : List Instruction} :
    (∀ instruction ∈ instructions, instruction.Fits) ↔ ∀ value, .pushInt value ∈ instructions → FitsWord value := by
  constructor
  · intro h value hmem
    exact h _ hmem value rfl
  · rintro h _ hmem value rfl
    exact h value hmem

/-- Where not all instructions fit, there is a first constant that does not. -/
theorem fits_or_firstUnfit (instructions : List Instruction) :
    (∀ instruction ∈ instructions, instruction.Fits) ∨
    ∃ front value back, instructions = front ++ .pushInt value :: back ∧
      (∀ instruction ∈ front, instruction.Fits) ∧ ¬FitsWord value := by
  rcases forall_or_first Instruction.Fits instructions with hall | ⟨front, instruction, back, heq, hfront, hunfit⟩
  · exact Or.inl hall
  · rcases instruction.fits_or_unfit with hfits | ⟨value, rfl, hvalue⟩
    · exact absurd hfits hunfit
    · exact Or.inr ⟨front, value, back, heq, hfront, hvalue⟩

/-- Instructions that fit give the bytes of operations one behind the other, one for each. -/
theorem exists_laidOut {instructions : List Instruction} (h : ∀ instruction ∈ instructions, instruction.Fits)
    (table : SymbolTable) (start : Nat) :
    ∃ ops, LaidOut start ops ∧ serialize ops = writtenApart instructions table ∧
      ops.length = instructions.length := by
  induction instructions generalizing table start with
  | nil => exact ⟨[], laidOut_nil start, rfl, rfl⟩
  | cons instruction rest ih =>
    obtain ⟨hfirst, hrest⟩ := List.forall_mem_cons.mp h
    obtain ⟨op, after, hop, hformed⟩ := Instruction.op_of_fits hfirst table
    obtain ⟨ops, hlaid, hbytes, hlength⟩ := ih hrest after (start + op.bytes.length)
    refine ⟨{ op with offset := start } :: ops, laidOut_cons.mpr ⟨rfl, hformed, hlaid⟩, ?_, congrArg (· + 1) hlength⟩
    rw [serialize_cons, hbytes, writtenApart_cons hop]

namespace Writer

/-- Writing goes on behind instructions that have been written. -/
theorem writeAll_append {first : List Instruction} {writer after : Writer} (h : writeAll first writer = (after, none))
    (second : List Instruction) : writeAll (first ++ second) writer = writeAll second after := by
  induction first generalizing writer with
  | nil =>
    cases h
    rfl
  | cons instruction rest ih =>
    rw [List.cons_append, writeAll]
    rw [writeAll] at h
    split at h
    · exact ih h
    · cases h

/-- **Instructions that fit are all written**: the bytes that each gives by itself go to the end, and the table has
interned what they call. -/
theorem writeAll_of_fits {instructions : List Instruction} (h : ∀ instruction ∈ instructions, instruction.Fits)
    (writer : Writer) :
    writeAll instructions writer =
      (⟨writer.bytes ++ writtenApart instructions writer.symbols,
        SymbolTable.internAll (callees instructions) writer.symbols⟩, none) := by
  induction instructions generalizing writer with
  | nil => simp [writeAll, writtenApart, callees, SymbolTable.internAll]
  | cons instruction rest ih =>
    obtain ⟨hfirst, hrest⟩ := List.forall_mem_cons.mp h
    obtain ⟨op, after, hop, _⟩ := Instruction.op_of_fits hfirst writer.symbols
    have hbytes : writer.bytes ++ (op.bytes ++ writtenApart rest after) =
        writer.bytes ++ op.bytes ++ writtenApart rest after := by
      apply Array.toList_inj.mp
      simp
    rw [writeAll, write_ok hop, internAll_callees_cons, hop, writtenApart_cons hop, hbytes]
    exact ih hrest ⟨writer.bytes ++ op.bytes, after⟩

/-- **Writing stops at the first constant that does not fit**, behind all that the instructions before it give. -/
theorem writeAll_of_unfit {front : List Instruction} (hfront : ∀ instruction ∈ front, instruction.Fits) {value : Int32}
    (hvalue : ¬FitsWord value) (back : List Instruction) (writer : Writer) :
    writeAll (front ++ .pushInt value :: back) writer =
      (⟨writer.bytes ++ writtenApart front writer.symbols, SymbolTable.internAll (callees front) writer.symbols⟩,
        some (.intOutOfRange value)) := by
  rw [writeAll_append (writeAll_of_fits hfront writer), writeAll, write_error (Instruction.op_of_unfit hvalue _)]

end Writer

/-! ## 3. Units -/

namespace CodeUnit

variable {unit : CodeUnit}

/-- Code that fits is encoded. -/
theorem encode_eq_of_fits (h : ∀ instruction ∈ unit.instructions, instruction.Fits) (symbols : SymbolTable) :
    unit.encode symbols =
      (.ok (writtenApart unit.instructions symbols).toArray,
        SymbolTable.internAll (callees unit.instructions) symbols) := by
  have hbytes : (#[] : Array UInt8) ++ writtenApart unit.instructions symbols =
      (writtenApart unit.instructions symbols).toArray := by
    apply Array.toList_inj.mp
    simp
  rw [← hbytes, encode, Writer.writeAll_of_fits h]

/-- Code that fits is encoded, and its bytes are read as one operation for each instruction. -/
theorem encode_of_fits (h : ∀ instruction ∈ unit.instructions, instruction.Fits) (symbols : SymbolTable) :
    ∃ bytes ops, (unit.encode symbols).1 = .ok bytes ∧ decode bytes.toList = .ok ops ∧
      ops.size = unit.instructions.length := by
  obtain ⟨ops, hlaid, hbytes, hlength⟩ := exists_laidOut h symbols 0
  refine ⟨_, ops.toArray, by rw [encode_eq_of_fits h], ?_, hlength⟩
  rw [← hbytes]
  exact decode_serialize hlaid

/-- Otherwise the fault names the first constant that does not fit, and the table has what is called before it. -/
theorem encode_of_unfit {front back : List Instruction} (hfront : ∀ instruction ∈ front, instruction.Fits)
    {value : Int32} (hvalue : ¬FitsWord value) (hunit : unit.instructions = front ++ .pushInt value :: back)
    (symbols : SymbolTable) :
    unit.encode symbols = (.error (.intOutOfRange value), SymbolTable.internAll (callees front) symbols) := by
  rw [encode, hunit, Writer.writeAll_of_unfit hfront hvalue back]

/-- **Code is encoded exactly if all of it fits.** -/
theorem encode_ok_iff (symbols : SymbolTable) :
    (∃ bytes, (unit.encode symbols).1 = .ok bytes) ↔ ∀ instruction ∈ unit.instructions, instruction.Fits := by
  constructor
  · rintro ⟨bytes, hbytes⟩
    rcases fits_or_firstUnfit unit.instructions with h | ⟨front, value, back, hunit, hfront, hvalue⟩
    · exact h
    · rw [encode_of_unfit hfront hvalue hunit] at hbytes
      cases hbytes
  · intro h
    rw [encode_eq_of_fits h]
    exact ⟨_, rfl⟩

/-- **The outcome of encoding, its bytes and the table behind it, for every unit and every table.** Encoding fails if
and only if there is a constant beyond 16 bits. Then the fault is the first such constant, and the table has interned,
in order, what is called before it and nothing else. Otherwise the table has interned all that is called, and the bytes
are those that each instruction gives by itself with the table that those before it leave. Wherever a writer stands, an
instruction that cannot be written leaves its bytes and its table as they are. -/
theorem encode_effect (unit : CodeUnit) (table : SymbolTable) :
    ((∃ fault, (unit.encode table).1 = .error fault) ↔
      ∃ value, .pushInt value ∈ unit.instructions ∧ ¬FitsWord value) ∧
    (∀ front value back, unit.instructions = front ++ .pushInt value :: back →
      (∀ other, .pushInt other ∈ front → FitsWord other) → ¬FitsWord value →
      unit.encode table = (.error (.intOutOfRange value), SymbolTable.internAll (callees front) table)) ∧
    ((∀ value, .pushInt value ∈ unit.instructions → FitsWord value) →
      ∃ bytes, unit.encode table = (.ok bytes, SymbolTable.internAll (callees unit.instructions) table) ∧
        bytes.toList = writtenApart unit.instructions table) ∧
    ∀ (writer : Writer) (instruction : Instruction) (fault : EncodeFault),
      (writer.write instruction).2 = some fault → (writer.write instruction).1 = writer := by
  refine ⟨⟨?_, ?_⟩, fun front value back hunit hfront hvalue => ?_, fun hfits => ?_,
    fun _ _ _ h => Writer.write_fault h⟩
  · rintro ⟨fault, hfault⟩
    rcases fits_or_firstUnfit unit.instructions with h | ⟨front, value, back, hunit, _, hvalue⟩
    · rw [encode_eq_of_fits h] at hfault
      cases hfault
    · refine ⟨value, ?_, hvalue⟩
      rw [hunit]
      exact List.mem_append_right _ List.mem_cons_self
  · rintro ⟨value, hmem, hvalue⟩
    rcases fits_or_firstUnfit unit.instructions with h | ⟨front, first, back, hunit, hfront, hfirst⟩
    · exact absurd (forall_fits_iff.mp h value hmem) hvalue
    · rw [encode_of_unfit hfront hfirst hunit]
      exact ⟨_, rfl⟩
  · exact encode_of_unfit (forall_fits_iff.mpr hfront) hvalue hunit table
  · exact ⟨_, encode_eq_of_fits (forall_fits_iff.mpr hfits) table, rfl⟩

/-- A unit fails behind a call, and the next one is encoded with the table that it leaves. -/
theorem encode_effect_failingUnit :
    let left := SymbolTable.internAll [⟨"demo/Host", "log", "(I)V"⟩] .empty
    failingUnit.encode .empty = (.error (.intOutOfRange 40000), left) ∧
    (∃ bytes, callingUnit.encode left =
        (.ok bytes, SymbolTable.internAll [⟨"demo/Host", "run", "()V"⟩, ⟨"demo/Host", "log", "(I)V"⟩] left) ∧
      bytes.toList = writtenApart callingUnit.instructions left) ∧
    ((Writer.mk #[0x2A] left).write (.pushInt 40000)).1 = Writer.mk #[0x2A] left := by
  intro left
  have hlong : ¬FitsWord 40000 := fun h => absurd h.2 (by decide)
  refine ⟨?_, ?_, ?_⟩
  · refine (encode_effect failingUnit .empty).2.1 [.invokeStatic ⟨"demo/Host", "log", "(I)V"⟩] 40000 [.returnVoid] rfl
      ?_ hlong
    simp
  · refine (encode_effect callingUnit left).2.2.1 fun value hmem => ?_
    obtain rfl : value = -200 := by simpa [callingUnit] using hmem
    exact ⟨by decide, by decide⟩
  · exact (encode_effect failingUnit left).2.2.2 _ _ (.intOutOfRange 40000) rfl

end CodeUnit

end MethodLowering
