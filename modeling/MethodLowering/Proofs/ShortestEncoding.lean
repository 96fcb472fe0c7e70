import MethodLowering.Proofs.EncodingEffects

/-!
# Encoding is the shortest form

An instruction can be written in several ways: a slot with or without the prefix for wide locals, a constant as an
opcode of its own, in a byte or in a word. Bytes that use any of them are read and encoded again, and what comes out is
the one shortest way to say the same.

* `Shortens` -- bytes that are given ones, or fewer;
* `Op.Resolves` -- an operation whose index, if it is a call, stands for a method of the table;
* `Op.shortens_onSlot`, `Op.shortens_byte`, `Op.shortens_word`, `SymbolTable.Coherent.intern_method?` -- slots,
  constants and calls by what is read from an operation;
* `Op.recodes` -- what any operation means is written no longer than it, and adds nothing to the table;
* `CodeUnit.encode_shortest` -- **encoding gives the shortest bytes of their meaning, and these are a normal form.**
-/

namespace MethodLowering

/-! ## 1. Fewer bytes -/

/-- Bytes that are the given ones, or fewer. -/
def Shortens (bytes data : List UInt8) : Prop :=
  bytes = data ∨ bytes.length < data.length

theorem Shortens.length_le {bytes data : List UInt8} (h : Shortens bytes data) : bytes.length ≤ data.length := by
  rcases h with rfl | hlt
  · exact Nat.le_refl _
  · exact Nat.le_of_lt hlt

theorem Shortens.eq_of_length_eq {bytes data : List UInt8} (h : Shortens bytes data)
    (hlength : bytes.length = data.length) : bytes = data := by
  rcases h with heq | hlt
  · exact heq
  · omega

theorem Shortens.append {first second front back : List UInt8} (hfirst : Shortens first front)
    (hsecond : Shortens second back) : Shortens (first ++ second) (front ++ back) := by
  have hfront := hfirst.length_le
  have hback := hsecond.length_le
  rcases hfirst with rfl | hlt
  · rcases hsecond with rfl | hlt
    · exact .inl rfl
    · exact .inr (by rw [List.length_append, List.length_append]; omega)
  · exact .inr (by rw [List.length_append, List.length_append]; omega)

namespace Op

theorem length_bytes_plain {opcode : Opcode} {operand : Option UInt16} (h : opcode.Takes operand) :
    ({ opcode, operand } : Op).bytes.length = opcode.operandSize + 1 := by
  rw [bytes_plain, List.length_cons, length_operandBytes h]

theorem length_bytes_alone (opcode : Opcode) : ({ opcode } : Op).bytes.length = 1 :=
  rfl

/-! ## 2. Slots -/

/-- **A slot is written no longer than by a long form that holds it.** -/
theorem shortens_onSlot (short0 short1 short2 short3 : Opcode) {long : Opcode} (hlong : long.operandSize = 1)
    {slot : UInt16} {wide : Bool} (h : wide = true ∨ slot.toNat < 256) :
    Shortens (onSlot short0 short1 short2 short3 long slot).bytes
      ({ opcode := long, operand := some slot, wide } : Op).bytes := by
  have hlength : ({ opcode := long, operand := some slot, wide } : Op).bytes.length = if wide then 4 else 2 := by
    cases wide <;> simp [bytes, operandBytes, hlong, wordBytes]
  have hshort (short : Opcode) :
      Shortens ({ opcode := short } : Op).bytes ({ opcode := long, operand := some slot, wide } : Op).bytes := by
    refine .inr ?_
    rw [hlength, length_bytes_alone]
    cases wide <;> decide
  rcases onSlot_cases short0 short1 short2 short3 long slot with
    ⟨_, heq⟩ | ⟨_, heq⟩ | ⟨_, heq⟩ | ⟨_, heq⟩ | ⟨hbyte, heq⟩ | ⟨hword, heq⟩
  · exact heq ▸ hshort short0
  · exact heq ▸ hshort short1
  · exact heq ▸ hshort short2
  · exact heq ▸ hshort short3
  · rw [heq]
    cases wide with
    | false => exact .inl rfl
    | true =>
      refine .inr ?_
      rw [hlength, length_bytes_plain (Opcode.takes_byte hlong hbyte), hlong]
      decide
  · -- a slot that needs the prefix has no form without it
    obtain rfl : wide = true := h.resolve_right (by omega)
    rw [heq]
    exact .inl rfl

/-! ## 3. Constants -/

/-- The forms of a constant: an opcode of its own, a byte, a word, or none. -/
theorem int_forms (value : Int32) :
    (∃ opcode, Op.int value = .ok { opcode }) ∨
    ((-128 ≤ value.toInt ∧ value.toInt ≤ 127) ∧
      Op.int value = .ok { opcode := .bipush, operand := some (UInt16.ofNat (value.toInt % 256).toNat) }) ∨
    (¬(-128 ≤ value.toInt ∧ value.toInt ≤ 127) ∧ FitsWord value ∧
      Op.int value = .ok { opcode := .sipush, operand := some (UInt16.ofNat (value.toInt % 65536).toNat) }) ∨
    ¬FitsWord value := by
  unfold Op.int FitsWord
  dsimp only
  split
  · exact .inl ⟨_, rfl⟩
  · by_cases hbyte : -128 ≤ value.toInt ∧ value.toInt ≤ 127
    · exact .inr (.inl ⟨hbyte, if_pos hbyte⟩)
    · by_cases hword : -32768 ≤ value.toInt ∧ value.toInt ≤ 32767
      · exact .inr (.inr (.inl ⟨hbyte, hword, by rw [if_neg hbyte, if_pos hword]⟩))
      · exact .inr (.inr (.inr hword))

/-- An operand is the remainder of the number that it stands for with its sign. -/
theorem ofNat_bmod_emod {size : Nat} {value : UInt16} (h : value.toNat < size) :
    UInt16.ofNat ((value.toNat : Int).bmod size % size).toNat = value := by
  rw [Int.bmod_emod, Int.emod_eq_of_lt (by omega) (by omega), Int.toNat_natCast, UInt16.ofNat_toNat]

/-- **The constant in a byte is written no longer than that.** -/
theorem shortens_byte (b : UInt8) :
    ∃ best, Op.int b.toUInt16.toUInt8.toInt8.toInt32 = .ok best ∧
      Shortens best.bytes ({ opcode := .bipush, operand := some b.toUInt16 } : Op).bytes := by
  have hlt : b.toUInt16.toNat < 256 := by
    rw [UInt8.toNat_toUInt16]
    exact b.toNat_lt
  have hvalue := toInt_signedByte b.toUInt16
  have hlow := @Int.le_bmod (b.toUInt16.toNat : Int) 256 (by decide)
  have hhigh := @Int.bmod_lt (b.toUInt16.toNat : Int) 256 (by decide)
  rcases int_forms b.toUInt16.toUInt8.toInt8.toInt32 with ⟨opcode, heq⟩ | ⟨_, heq⟩ | ⟨hbyte, _⟩ | hword
  · refine ⟨_, heq, .inr ?_⟩
    rw [length_bytes_alone, length_bytes_plain (Opcode.takes_byte rfl hlt)]
    decide
  · refine ⟨_, heq, .inl ?_⟩
    rw [hvalue]
    exact congrArg (fun operand => ({ opcode := .bipush, operand := some operand } : Op).bytes) (ofNat_bmod_emod hlt)
  · omega
  · unfold FitsWord at hword
    omega

/-- **The constant in a word is written no longer than that.** -/
theorem shortens_word (word : UInt16) :
    ∃ best, Op.int word.toInt16.toInt32 = .ok best ∧
      Shortens best.bytes ({ opcode := .sipush, operand := some word } : Op).bytes := by
  have hlt : word.toNat < 65536 := word.toNat_lt
  have hvalue := toInt_signedWord word
  have hlow := @Int.le_bmod (word.toNat : Int) 65536 (by decide)
  have hhigh := @Int.bmod_lt (word.toNat : Int) 65536 (by decide)
  have hlength : ({ opcode := .sipush, operand := some word } : Op).bytes.length = 3 :=
    length_bytes_plain (Opcode.takes_word rfl word)
  rcases int_forms word.toInt16.toInt32 with ⟨opcode, heq⟩ | ⟨_, heq⟩ | ⟨_, _, heq⟩ | hword
  · refine ⟨_, heq, .inr ?_⟩
    rw [length_bytes_alone, hlength]
    decide
  · refine ⟨_, heq, .inr ?_⟩
    rw [length_bytes_plain (Opcode.takes_byte rfl ?_), hlength]
    · decide
    · rw [UInt16.toNat_ofNat_of_lt' (show _ < 2 ^ 16 by omega)]
      omega
  · refine ⟨_, heq, .inl ?_⟩
    rw [hvalue]
    exact congrArg (fun operand => ({ opcode := .sipush, operand := some operand } : Op).bytes) (ofNat_bmod_emod hlt)
  · unfold FitsWord at hword
    omega

end Op

/-! ## 4. Calls -/

/-- Whether an opcode calls a method. -/
def Opcode.isInvoke : Opcode → Bool
  | invokevirtual | invokespecial | invokestatic => true
  | _ => false

/-- An operation whose index, if it is a call, stands for a method of the table. -/
def Op.Resolves (op : Op) (table : SymbolTable) : Prop :=
  op.opcode.isInvoke → ∀ index, op.operand = some index → 1 ≤ index.toNat ∧ index.toNat ≤ table.size

namespace SymbolTable

variable {table : SymbolTable}

theorem exists_method? {index : UInt16} (hlow : 1 ≤ index.toNat) (hhigh : index.toNat ≤ table.size) :
    ∃ method, table.method? index = some method := by
  have hne : index ≠ 0 := by
    rintro rfl
    cases hlow
  have hlt : index.toNat - 1 < table.methods.size := Nat.lt_of_lt_of_le (by omega) hhigh
  exact ⟨_, by rw [method?, if_neg hne, Array.getElem?_eq_getElem hlt]⟩

/-- **A method that an index stands for is interned with this index**, and the table stays as it is. -/
theorem Coherent.intern_method? (h : table.Coherent) {index : UInt16} {method : MethodRef}
    (hmethod : table.method? index = some method) : table.intern method = (index, table) := by
  unfold method? at hmethod
  split at hmethod
  · cases hmethod
  · rename_i hne
    have hpos : 0 < index.toNat := Nat.pos_of_ne_zero fun hzero => hne (UInt16.toNat_inj.mp hzero)
    have hget := h.get?_of_place hmethod
    rw [Nat.sub_add_cancel hpos, UInt16.ofNat_toNat] at hget
    rw [SymbolTable.intern, hget]

end SymbolTable

/-! ## 5. Any operation, and operations one behind the other -/

/-- An operation that means an instruction, for which an operation is written that shortens it and adds nothing to the
table. -/
def Op.Recodes (op : Op) (table : SymbolTable) : Prop :=
  ∃ instruction best, op.lift table = some instruction ∧ instruction.op table = (.ok best, table) ∧
    Shortens best.bytes op.bytes

variable {table : SymbolTable}

theorem Op.recodes_load {slot : UInt16} {wide : Bool} (h : wide = true ∨ slot.toNat < 256) :
    ({ opcode := .aload, operand := some slot, wide } : Op).Recodes table :=
  ⟨.loadLocal slot, .load slot, rfl, rfl, shortens_onSlot _ _ _ _ rfl h⟩

theorem Op.recodes_store {slot : UInt16} {wide : Bool} (h : wide = true ∨ slot.toNat < 256) :
    ({ opcode := .astore, operand := some slot, wide } : Op).Recodes table :=
  ⟨.storeLocal slot, .store slot, rfl, rfl, shortens_onSlot _ _ _ _ rfl h⟩

theorem Op.recodes_int {op : Op} {value : Int32} (hlift : op.lift table = some (.pushInt value))
    (h : ∃ best, Op.int value = .ok best ∧ Shortens best.bytes op.bytes) : op.Recodes table := by
  obtain ⟨best, hbest, hshort⟩ := h
  exact ⟨_, best, hlift, by rw [Instruction.op, hbest], hshort⟩

theorem Op.recodes_invoke (htable : table.Coherent) {opcode : Opcode} {make : MethodRef → Instruction} {index : UInt16}
    (hlift : ∀ index, (Op.invoke opcode index).lift table = (table.method? index).map make)
    (hop : ∀ method, (make method).op table = (.ok (.invoke opcode (table.intern method).1), (table.intern method).2))
    (h : 1 ≤ index.toNat ∧ index.toNat ≤ table.size) : (Op.invoke opcode index).Recodes table := by
  obtain ⟨method, hmethod⟩ := SymbolTable.exists_method? h.1 h.2
  refine ⟨make method, .invoke opcode index, by rw [hlift, hmethod]; rfl, ?_, .inl rfl⟩
  rw [hop, htable.intern_method? hmethod]

/-- **What any operation means is written no longer than it.** -/
theorem Op.recodes (htable : table.Coherent) {op : Op} (hop : op.WellFormed) (hresolves : op.Resolves table) :
    op.Recodes table := by
  obtain ⟨opcode, operand, wide⟩ := op
  cases wide with
  | true =>
    obtain ⟨hopcode, hsome⟩ := wellFormed_wide.mp hop
    obtain ⟨slot, rfl⟩ := Option.isSome_iff_exists.mp hsome
    rcases hopcode with rfl | rfl
    · exact recodes_load (.inl rfl)
    · exact recodes_store (.inl rfl)
  | false =>
    obtain ⟨hwide, htakes⟩ := wellFormed_plain.mp hop
    rcases Opcode.takes_iff.mp htakes with ⟨hsize, rfl⟩ | ⟨hsize, b, rfl⟩ | ⟨hsize, word, rfl⟩
    · -- without an operand, an operation is the one of its instruction
      cases opcode with
      | wide => exact absurd rfl hwide
      | bipush | aload | astore | sipush | invokevirtual | invokespecial | invokestatic => cases hsize
      | _ => exact ⟨_, _, rfl, rfl, .inl rfl⟩
    · have hbyte : b.toUInt16.toNat < 256 := by
        rw [UInt8.toNat_toUInt16]
        exact b.toNat_lt
      cases opcode with
      | bipush => exact recodes_int rfl (shortens_byte b)
      | aload => exact recodes_load (.inr hbyte)
      | astore => exact recodes_store (.inr hbyte)
      | _ => cases hsize
    · cases opcode with
      | sipush => exact recodes_int rfl (shortens_word word)
      | invokevirtual => exact recodes_invoke htable (fun _ => rfl) (fun _ => rfl) (hresolves rfl word rfl)
      | invokespecial => exact recodes_invoke htable (fun _ => rfl) (fun _ => rfl) (hresolves rfl word rfl)
      | invokestatic => exact recodes_invoke htable (fun _ => rfl) (fun _ => rfl) (hresolves rfl word rfl)
      | _ => cases hsize

/-- **What operations mean is written no longer than they are**, and adds nothing to the table. -/
theorem exists_recoding (htable : table.Coherent) {ops : List LocatedOp}
    (h : ∀ op ∈ ops, op.WellFormed ∧ op.Resolves table) :
    ∃ instructions, lift table ops = some instructions ∧ (∀ instruction ∈ instructions, instruction.Fits) ∧
      SymbolTable.internAll (callees instructions) table = table ∧
      Shortens (writtenApart instructions table) (serialize ops) := by
  induction ops with
  | nil => exact ⟨[], rfl, nofun, rfl, .inl rfl⟩
  | cons op ops ih =>
    obtain ⟨⟨hformed, hresolves⟩, hrest⟩ := List.forall_mem_cons.mp h
    obtain ⟨instruction, best, hlift, hop, hshort⟩ := Op.recodes htable hformed hresolves
    obtain ⟨instructions, hlifts, hfits, hcallees, hshorts⟩ := ih hrest
    refine ⟨instruction :: instructions, lift_cons hlift hlifts,
      List.forall_mem_cons.mpr ⟨Instruction.fits_of_op hop, hfits⟩, ?_, ?_⟩
    · rw [internAll_callees_cons, hop]
      exact hcallees
    · rw [writtenApart_cons hop, serialize_cons]
      exact hshort.append hshorts

/-- **Encoding gives the shortest bytes of their meaning, and these are a normal form.** Take any table that has been
filled by interning and has no more methods than indices, and any bytes that decode and whose calls have indices of the
table. They mean instructions. Encoding these with the table succeeds and leaves the table as it is; the bytes are no
more than the given ones, and as many only if they are the same. They decode and mean these instructions again, so that
they are encoded as themselves. -/
theorem CodeUnit.encode_shortest (calls : List MethodRef) (data : List UInt8) (ops : Array LocatedOp)
    (maxLocals : UInt16) (hsize : (SymbolTable.internAll calls .empty).size ≤ 65535) (hdecode : decode data = .ok ops)
    (hcalls : ∀ op ∈ ops, op.opcode.isInvoke → ∀ index, op.operand = some index →
      1 ≤ index.toNat ∧ index.toNat ≤ (SymbolTable.internAll calls .empty).size) :
    let table := SymbolTable.internAll calls .empty
    ∃ instructions bytes, lift table ops.toList = some instructions ∧
      (CodeUnit.mk maxLocals instructions).encode table = (.ok bytes, table) ∧
      bytes.size ≤ data.length ∧ (bytes.size = data.length → bytes.toList = data) ∧
      ∃ again, decode bytes.toList = .ok again ∧ lift table again.toList = some instructions ∧
        ∀ other, lift table again.toList = some other →
          (CodeUnit.mk maxLocals other).encode table = (.ok bytes, table) := by
  intro table
  have htable : table.Coherent := SymbolTable.coherent_empty.internAll calls
  obtain ⟨hlaid, rfl⟩ := laidOut_of_decode hdecode
  have hops : ∀ op ∈ ops.toList, op.WellFormed ∧ op.Resolves table := fun op hmem =>
    ⟨hlaid.wellFormed op hmem, hcalls op (Array.mem_toList_iff.mp hmem)⟩
  obtain ⟨instructions, hlift, hfits, hcallees, hshort⟩ := exists_recoding htable hops
  have hencode : (CodeUnit.mk maxLocals instructions).encode table =
      (.ok (writtenApart instructions table).toArray, table) := by
    rw [encode_eq_of_fits hfits, hcallees]
  -- what is encoded with a coherent table is read back with the table behind it, which is this one
  obtain ⟨_, bytes, after, again, hbytes, hserial, hagain⟩ | ⟨_, _, _, _, hfault⟩ :=
    (CodeUnit.mk maxLocals instructions).encode_cases htable
  · rw [hencode] at hbytes
    cases hbytes
    have hmeans := hagain.lift_eq table (.refl table) hsize
    refine ⟨instructions, _, hlift, hencode, hshort.length_le, hshort.eq_of_length_eq, again.toArray, ?_, hmeans,
      fun other hother => ?_⟩
    · rw [hserial, decode_serialize hagain.laidOut]
    · cases hmeans.symm.trans hother
      exact hencode
  · rw [hencode] at hfault
    cases hfault

/-- A wide load of slot 2, the constants 3 in a byte and -1 in a word, a load of slot 0 with an operand, a call, a
return: all but the last two are longer than needed. -/
def redundantBytes : List UInt8 :=
  [0xC4, 0x19, 0x00, 0x02, 0x10, 0x03, 0x11, 0xFF, 0xFF, 0x19, 0x00, 0xB8, 0x00, 0x01, 0xB1]

/-- The operations in these bytes. -/
def redundantOps : Array LocatedOp :=
  #[{ opcode := .aload, operand := some 2, wide := true, offset := 0 },
    { opcode := .bipush, operand := some 3, offset := 4 }, { opcode := .sipush, operand := some 0xFFFF, offset := 6 },
    { opcode := .aload, operand := some 0, offset := 9 }, { opcode := .invokestatic, operand := some 1, offset := 11 },
    { opcode := .returnVoid, offset := 14 }]

theorem CodeUnit.encode_shortest_redundantBytes :
    let table := SymbolTable.internAll [⟨"demo/Host", "log", "(I)V"⟩] .empty
    table.size = 1 ∧ decode redundantBytes = .ok redundantOps ∧ ∃ instructions bytes,
      lift table redundantOps.toList = some instructions ∧
      (CodeUnit.mk 3 instructions).encode table = (.ok bytes, table) ∧ bytes.size ≤ 15 ∧
      ∃ again, decode bytes.toList = .ok again ∧ lift table again.toList = some instructions := by
  intro table
  have hsize : table.size = 1 := by
    have hmethods := SymbolTable.coherent_empty.toList_methods_internAll [⟨"demo/Host", "log", "(I)V"⟩]
    exact congrArg List.length hmethods
  have hops : decode redundantBytes = .ok redundantOps := rfl
  have hcalls : ∀ op ∈ redundantOps, op.opcode.isInvoke → ∀ index, op.operand = some index →
      1 ≤ index.toNat ∧ index.toNat ≤ table.size := by
    intro op hmem hinvoke index hindex
    simp only [redundantOps, List.mem_toArray, List.mem_cons, List.not_mem_nil, or_false] at hmem
    rcases hmem with rfl | rfl | rfl | rfl | rfl | rfl
    case inr.inr.inr.inr.inl =>
      cases hindex
      rw [hsize]
      decide
    all_goals cases hinvoke
  obtain ⟨instructions, bytes, hlift, hencode, hle, _, again, hagain, hmeans, _⟩ :=
    encode_shortest [⟨"demo/Host", "log", "(I)V"⟩] redundantBytes redundantOps 3 (by rw [hsize]; decide) hops hcalls
  exact ⟨hsize, hops, instructions, bytes, hlift, hencode, hle, again, hagain, hmeans⟩

end MethodLowering
