import MethodLowering.Bytecode.Decoding

/-!
# The byte language of operations

Decoding is described from both sides: which byte sequences are operations one behind the other, and what is wrong with
all others.

* `Op.WellFormed` -- an operation of the instruction set: its opcode goes with its prefix and its operand;
* `LaidOut`, `serialize` -- operations at the offsets where their bytes stand, and these bytes;
* `Defect` -- bytes at which no operation starts, and the fault to be found there;
* `op_or_defect` -- bytes start with a well-formed operation or have a defect;
* `Reader.run_op`, `Reader.run_op_defect` -- reading one operation finds the one or the other;
* `Reader.ops_cases`, `Reader.ops_serialize` -- the same for all that is ahead;
* `decode_exact` -- **decoding accepts the serializations of laid out operations, each as what it is, and no other
  bytes; what it refuses is laid out up to a defect.**
-/

namespace MethodLowering

/-! ## 1. Words -/

theorem toNat_word (high low : UInt8) :
    (high.toUInt16 <<< 8 ||| low.toUInt16).toNat = high.toNat * 256 + low.toNat := by
  have hhigh := high.toNat_lt
  have hlow := low.toNat_lt
  have hfits : high.toNat <<< 8 < 2 ^ 16 := by
    rw [Nat.shiftLeft_eq]
    omega
  rw [UInt16.toNat_or, UInt16.toNat_shiftLeft, UInt8.toNat_toUInt16, UInt8.toNat_toUInt16,
    show (8 : UInt16).toNat % 16 = 8 from rfl, Nat.mod_eq_of_lt hfits, ← Nat.shiftLeft_add_eq_or_of_lt hlow,
    Nat.shiftLeft_eq]

theorem toNat_highByte (word : UInt16) : (word >>> 8).toUInt8.toNat = word.toNat / 256 := by
  have hword := word.toNat_lt
  rw [UInt16.toNat_toUInt8, UInt16.toNat_shiftRight, show (8 : UInt16).toNat % 16 = 8 from rfl,
    Nat.shiftRight_eq_div_pow]
  omega

theorem length_wordBytes (word : UInt16) : (wordBytes word).length = 2 :=
  rfl

/-- The bytes of the word that two bytes make are these bytes. -/
theorem wordBytes_word (high low : UInt8) : wordBytes (high.toUInt16 <<< 8 ||| low.toUInt16) = [high, low] := by
  have hlow := low.toNat_lt
  have hword := toNat_word high low
  have hhighByte : ((high.toUInt16 <<< 8 ||| low.toUInt16) >>> 8).toUInt8 = high := by
    apply UInt8.toNat_inj.mp
    rw [toNat_highByte, hword]
    omega
  have hlowByte : (high.toUInt16 <<< 8 ||| low.toUInt16).toUInt8 = low := by
    apply UInt8.toNat_inj.mp
    rw [UInt16.toNat_toUInt8, hword]
    omega
  rw [wordBytes, hhighByte, hlowByte]

/-- The word that the bytes of a word make is this word. -/
theorem word_wordBytes (word : UInt16) : (word >>> 8).toUInt8.toUInt16 <<< 8 ||| word.toUInt8.toUInt16 = word := by
  apply UInt16.toNat_inj.mp
  rw [toNat_word, toNat_highByte, UInt16.toNat_toUInt8]
  omega

/-! ## 2. Operations of the instruction set -/

/-- Whether an opcode without prefix goes with an operand: it has one if it has operand bytes, and one that they
hold. -/
def Opcode.Takes (opcode : Opcode) (operand : Option UInt16) : Prop :=
  (operand.isSome ↔ 0 < opcode.operandSize) ∧ (opcode.operandSize = 1 → ∀ value ∈ operand, value.toNat < 256)

/-- **An operation of the instruction set.** Behind the prefix for wide locals stands a load or a store of any slot;
otherwise the operand is what the opcode takes, and the prefix is no operation by itself. -/
def Op.WellFormed (op : Op) : Prop :=
  if op.wide then (op.opcode = .aload ∨ op.opcode = .astore) ∧ op.operand.isSome
  else op.opcode ≠ .wide ∧ op.opcode.Takes op.operand

instance (opcode : Opcode) (operand : Option UInt16) : Decidable (opcode.Takes operand) :=
  inferInstanceAs (Decidable ((operand.isSome ↔ 0 < opcode.operandSize) ∧
    (opcode.operandSize = 1 → ∀ value ∈ operand, value.toNat < 256)))

instance (op : Op) : Decidable op.WellFormed :=
  inferInstanceAs (Decidable (if op.wide then (op.opcode = .aload ∨ op.opcode = .astore) ∧ op.operand.isSome
    else op.opcode ≠ .wide ∧ op.opcode.Takes op.operand))

theorem Opcode.operandSize_cases (opcode : Opcode) :
    opcode.operandSize = 0 ∨ opcode.operandSize = 1 ∨ opcode.operandSize = 2 := by
  cases opcode <;> decide

/-- The operands that an opcode takes, by its number of operand bytes. -/
theorem Opcode.takes_iff {opcode : Opcode} {operand : Option UInt16} :
    opcode.Takes operand ↔
      (opcode.operandSize = 0 ∧ operand = none) ∨
      (opcode.operandSize = 1 ∧ ∃ b : UInt8, operand = some b.toUInt16) ∨
      (opcode.operandSize = 2 ∧ ∃ word, operand = some word) := by
  unfold Opcode.Takes
  rcases opcode.operandSize_cases with hsize | hsize | hsize
  · simp [hsize]
  · cases operand with
    | none => simp [hsize]
    | some word =>
      have hbyte : word.toNat < 256 ↔ ∃ b : UInt8, word = b.toUInt16 := by
        refine ⟨fun hlt => ⟨word.toUInt8, UInt16.toNat_inj.mp ?_⟩, ?_⟩
        · rw [UInt8.toNat_toUInt16, UInt16.toNat_toUInt8]
          omega
        · rintro ⟨b, rfl⟩
          rw [UInt8.toNat_toUInt16]
          exact b.toNat_lt
      simpa [hsize] using hbyte
  · cases operand with
    | none => simp [hsize]
    | some word => simp [hsize]

theorem Opcode.takes_byte {opcode : Opcode} (hsize : opcode.operandSize = 1) {value : UInt16}
    (hvalue : value.toNat < 256) : opcode.Takes (some value) := by
  refine ⟨by simp [hsize], fun _ other hother => ?_⟩
  cases hother
  exact hvalue

theorem Opcode.takes_word {opcode : Opcode} (hsize : opcode.operandSize = 2) (value : UInt16) :
    opcode.Takes (some value) :=
  Opcode.takes_iff.mpr (.inr (.inr ⟨hsize, value, rfl⟩))

namespace Op

theorem wellFormed_wide {opcode : Opcode} {operand : Option UInt16} :
    ({ opcode, operand, wide := true } : Op).WellFormed ↔
      (opcode = .aload ∨ opcode = .astore) ∧ operand.isSome := by
  simp [WellFormed]

theorem wellFormed_plain {opcode : Opcode} {operand : Option UInt16} :
    ({ opcode, operand } : Op).WellFormed ↔ opcode ≠ .wide ∧ opcode.Takes operand := by
  simp [WellFormed]

theorem bytes_wide (opcode : Opcode) (word : UInt16) :
    ({ opcode, operand := some word, wide := true } : Op).bytes =
      Opcode.wide.toByte :: opcode.toByte :: wordBytes word := by
  simp [bytes, operandBytes]

theorem bytes_plain (opcode : Opcode) (operand : Option UInt16) :
    ({ opcode, operand } : Op).bytes = opcode.toByte :: ({ opcode, operand } : Op).operandBytes :=
  rfl

theorem operandBytes_byte {opcode : Opcode} (hsize : opcode.operandSize = 1) (b : UInt8) :
    ({ opcode, operand := some b.toUInt16 } : Op).operandBytes = [b] := by
  simp [operandBytes, hsize]

theorem operandBytes_word {opcode : Opcode} (hsize : opcode.operandSize = 2) (word : UInt16) :
    ({ opcode, operand := some word } : Op).operandBytes = wordBytes word := by
  simp [operandBytes, hsize]

theorem length_operandBytes {opcode : Opcode} {operand : Option UInt16} (h : opcode.Takes operand) :
    ({ opcode, operand } : Op).operandBytes.length = opcode.operandSize := by
  rcases Opcode.takes_iff.mp h with ⟨hsize, rfl⟩ | ⟨hsize, b, rfl⟩ | ⟨hsize, word, rfl⟩
  · rw [hsize]
    rfl
  · rw [operandBytes_byte hsize, hsize]
    rfl
  · rw [operandBytes_word hsize, hsize]
    rfl

theorem length_bytes_pos (op : Op) : 0 < op.bytes.length := by
  rw [bytes, List.length_append, List.length_cons]
  omega

end Op

/-! ## 3. Reading one operation -/

namespace Reader

/-- An action behind another one runs where that has come to, unless that fails. -/
theorem run_bind {α β : Type} (reader : Reader) (action : Read α) (next : α → Read β) :
    reader.run (action >>= next) =
      match reader.run action with
      | (.ok value, after) => after.run (next value)
      | (.error fault, after) => (.error fault, after) := by
  show (match action reader with | (result, after) => (ExceptT.bindCont next result : StateM Reader _) after) = _
  unfold Reader.run
  rcases action reader with ⟨_ | value, after⟩
  · rfl
  · rfl

theorem run_position (reader : Reader) : reader.run Read.position = (.ok reader.position, reader) :=
  rfl

theorem run_byte (b : UInt8) (rest : List UInt8) (position : Nat) :
    (Reader.mk (b :: rest) position).run Read.byte = (.ok b, ⟨rest, position + 1⟩) :=
  rfl

theorem run_word (word : UInt16) (rest : List UInt8) (position : Nat) :
    (Reader.mk (wordBytes word ++ rest) position).run Read.word = (.ok word, ⟨rest, position + 2⟩) := by
  show (Except.ok ((word >>> 8).toUInt8.toUInt16 <<< 8 ||| word.toUInt8.toUInt16), Reader.mk rest (position + 2)) = _
  rw [word_wordBytes]

theorem run_word_cut {rest : List UInt8} (h : rest.length < 2) (position : Nat) :
    (Reader.mk rest position).run Read.word =
      (.error (.unexpectedEnd (position + rest.length)), ⟨[], position + rest.length⟩) := by
  match rest, h with
  | [], _ => rfl
  | [_], _ => rfl

/-- An operand that the opcode takes is read from its bytes. -/
theorem run_operand {opcode : Opcode} {operand : Option UInt16} (h : opcode.Takes operand) (rest : List UInt8)
    (position : Nat) :
    (Reader.mk (({ opcode, operand } : Op).operandBytes ++ rest) position).run (Read.operand opcode) =
      (.ok operand, ⟨rest, position + opcode.operandSize⟩) := by
  unfold Read.operand
  rcases Opcode.takes_iff.mp h with ⟨hsize, rfl⟩ | ⟨hsize, b, rfl⟩ | ⟨hsize, word, rfl⟩
  · rw [hsize]
    rfl
  · rw [Op.operandBytes_byte hsize, hsize]
    rfl
  · rw [Op.operandBytes_word hsize, hsize]
    show Reader.run _ (Read.word >>= fun word => pure (some word)) = _
    rw [run_bind, run_word]
    rfl

theorem run_operand_cut {opcode : Opcode} {rest : List UInt8} (h : rest.length < opcode.operandSize) (position : Nat) :
    (Reader.mk rest position).run (Read.operand opcode) =
      (.error (.unexpectedEnd (position + rest.length)), ⟨[], position + rest.length⟩) := by
  unfold Read.operand
  rcases opcode.operandSize_cases with hsize | hsize | hsize
  · rw [hsize] at h
    omega
  · rw [hsize] at h ⊢
    obtain rfl : rest = [] := List.length_eq_zero_iff.mp (by omega)
    rfl
  · rw [hsize] at h ⊢
    show Reader.run _ (Read.word >>= fun word => pure (some word)) = _
    rw [run_bind, run_word_cut h]

theorem run_op_plain {opcode : Opcode} (hwide : opcode ≠ .wide) (rest : List UInt8) (position : Nat) :
    (Reader.mk (opcode.toByte :: rest) position).run Read.op =
      (Reader.mk rest (position + 1)).run
        (Read.operand opcode >>= fun operand => pure { opcode, operand, offset := position }) := by
  cases opcode with
  | wide => exact absurd rfl hwide
  | _ => rfl

theorem run_op_wide {opcode : Opcode} (h : opcode = .aload ∨ opcode = .astore) (rest : List UInt8) (position : Nat) :
    (Reader.mk (Opcode.wide.toByte :: opcode.toByte :: rest) position).run Read.op =
      (Reader.mk rest (position + 2)).run
        (Read.word >>= fun word => pure { opcode, operand := some word, wide := true, offset := position }) := by
  rcases h with rfl | rfl
  · rfl
  · rfl

theorem run_op_noOpcode {b : UInt8} (h : Opcode.ofByte? b = none) (rest : List UInt8) (position : Nat) :
    (Reader.mk (b :: rest) position).run Read.op = (.error (.invalidOpcode b position), ⟨rest, position + 1⟩) := by
  simp only [Read.op, run_bind, run_position, run_byte, h]
  rfl

theorem run_wideOpcode_refused {b : UInt8} (hload : Opcode.ofByte? b ≠ some .aload)
    (hstore : Opcode.ofByte? b ≠ some .astore) (rest : List UInt8) (position : Nat) :
    (Reader.mk (b :: rest) position).run Read.wideOpcode =
      (.error (.invalidOpcode b position), ⟨rest, position + 1⟩) := by
  simp only [Read.wideOpcode, run_bind, run_position, run_byte]
  cases hopcode : Opcode.ofByte? b with
  | none => rfl
  | some opcode =>
    cases opcode with
    | aload => exact absurd hopcode hload
    | astore => exact absurd hopcode hstore
    | _ => rfl

theorem run_op_refused {b : UInt8} (hload : Opcode.ofByte? b ≠ some .aload) (hstore : Opcode.ofByte? b ≠ some .astore)
    (rest : List UInt8) (position : Nat) :
    (Reader.mk (Opcode.wide.toByte :: b :: rest) position).run Read.op =
      (.error (.invalidOpcode b (position + 1)), ⟨rest, position + 2⟩) := by
  show Reader.run ⟨b :: rest, position + 1⟩ (Read.wideOpcode >>= _) = _
  rw [run_bind, run_wideOpcode_refused hload hstore]

/-- **A well-formed operation is read from its bytes**, whatever follows them. -/
theorem run_op {op : Op} (h : op.WellFormed) (rest : List UInt8) (position : Nat) :
    (Reader.mk (op.bytes ++ rest) position).run Read.op =
      (.ok { op with offset := position }, ⟨rest, position + op.bytes.length⟩) := by
  obtain ⟨opcode, operand, wide⟩ := op
  cases wide with
  | true =>
    obtain ⟨hopcode, hsome⟩ := Op.wellFormed_wide.mp h
    obtain ⟨word, rfl⟩ := Option.isSome_iff_exists.mp hsome
    rw [Op.bytes_wide, List.cons_append, List.cons_append, run_op_wide hopcode, run_bind, run_word]
    rfl
  | false =>
    obtain ⟨hwide, htakes⟩ := Op.wellFormed_plain.mp h
    have hlength := Op.length_operandBytes htakes
    rw [Op.bytes_plain, List.cons_append, run_op_plain hwide, run_bind, run_operand htakes, List.length_cons, hlength,
      Nat.add_assoc, Nat.add_comm 1]
    rfl

/-- **A well-formed operation that lacks bytes is read up to the end**, and the fault names it. -/
theorem run_op_cut {op : Op} (h : op.WellFormed) {bytes : List UInt8} (hstarts : bytes <+: op.bytes)
    (hlacks : bytes.length < op.bytes.length) (position : Nat) :
    (Reader.mk bytes position).run Read.op =
      (.error (.unexpectedEnd (position + bytes.length)), ⟨[], position + bytes.length⟩) := by
  obtain ⟨opcode, operand, wide⟩ := op
  cases wide with
  | true =>
    obtain ⟨hopcode, hsome⟩ := Op.wellFormed_wide.mp h
    obtain ⟨word, rfl⟩ := Option.isSome_iff_exists.mp hsome
    rw [Op.bytes_wide] at hstarts hlacks
    match bytes with
    | [] => rfl
    | [first] =>
      obtain ⟨rfl, -⟩ := List.cons_prefix_cons.mp hstarts
      rfl
    | first :: second :: bytes =>
      obtain ⟨rfl, hbehind⟩ := List.cons_prefix_cons.mp hstarts
      obtain ⟨rfl, -⟩ := List.cons_prefix_cons.mp hbehind
      rw [List.length_cons, List.length_cons, List.length_cons, List.length_cons, length_wordBytes] at hlacks
      have hshort : bytes.length < 2 := by omega
      rw [run_op_wide hopcode, run_bind, run_word_cut hshort, List.length_cons, List.length_cons, Nat.add_assoc,
        Nat.add_comm 2]
  | false =>
    obtain ⟨hwide, htakes⟩ := Op.wellFormed_plain.mp h
    rw [Op.bytes_plain] at hstarts hlacks
    cases bytes with
    | nil => rfl
    | cons first bytes =>
      obtain ⟨rfl, -⟩ := List.cons_prefix_cons.mp hstarts
      rw [List.length_cons, List.length_cons, Op.length_operandBytes htakes] at hlacks
      have hshort : bytes.length < opcode.operandSize := by omega
      rw [run_op_plain hwide, run_bind, run_operand_cut hshort, List.length_cons, Nat.add_assoc, Nat.add_comm 1]

end Reader

/-- **Bytes at which no operation starts**, with the fault that is found there: an operation that lacks some of its
bytes, a byte that is no opcode, or an opcode that does not stand behind the prefix for wide locals. -/
inductive Defect (start : Nat) : List UInt8 → DecodeFault → Prop where
  | truncated {op : Op} {bytes : List UInt8} (hop : op.WellFormed) (hbytes : bytes ≠ []) (hstarts : bytes <+: op.bytes)
      (hlacks : bytes.length < op.bytes.length) : Defect start bytes (.unexpectedEnd (start + bytes.length))
  | noOpcode {b : UInt8} (h : Opcode.ofByte? b = none) (rest : List UInt8) :
      Defect start (b :: rest) (.invalidOpcode b start)
  | refused {b : UInt8} (hload : Opcode.ofByte? b ≠ some .aload) (hstore : Opcode.ofByte? b ≠ some .astore)
      (rest : List UInt8) : Defect start (Opcode.wide.toByte :: b :: rest) (.invalidOpcode b (start + 1))

/-- Bytes start with a word, or a word starts with them. -/
theorem word_or_cut : ∀ bytes : List UInt8,
    ∃ word, (∃ rest, bytes = wordBytes word ++ rest) ∨ bytes.length < 2 ∧ bytes <+: wordBytes word
  | [] => ⟨0, .inr ⟨by decide, List.nil_prefix⟩⟩
  | [high] => by
    refine ⟨high.toUInt16 <<< 8 ||| (0 : UInt8).toUInt16, .inr ⟨by simp, ?_⟩⟩
    rw [wordBytes_word]
    exact ⟨[0], rfl⟩
  | high :: low :: rest => by
    refine ⟨high.toUInt16 <<< 8 ||| low.toUInt16, .inl ⟨rest, ?_⟩⟩
    rw [wordBytes_word]
    rfl

/-- Bytes start with an operand that an opcode takes, or such an operand starts with them. -/
theorem Opcode.operand_or_cut (opcode : Opcode) (bytes : List UInt8) :
    ∃ operand, opcode.Takes operand ∧
      ((∃ rest, bytes = ({ opcode, operand } : Op).operandBytes ++ rest) ∨
        bytes.length < opcode.operandSize ∧ bytes <+: ({ opcode, operand } : Op).operandBytes) := by
  rcases opcode.operandSize_cases with hsize | hsize | hsize
  · exact ⟨none, Opcode.takes_iff.mpr (.inl ⟨hsize, rfl⟩), .inl ⟨bytes, rfl⟩⟩
  · have htakes (b : UInt8) : opcode.Takes (some b.toUInt16) :=
      Opcode.takes_byte hsize (by rw [UInt8.toNat_toUInt16]; exact b.toNat_lt)
    cases bytes with
    | nil => exact ⟨_, htakes 0, .inr ⟨by rw [hsize]; decide, List.nil_prefix⟩⟩
    | cons b rest =>
      refine ⟨_, htakes b, .inl ⟨rest, ?_⟩⟩
      rw [Op.operandBytes_byte hsize]
      rfl
  · obtain ⟨word, hword⟩ := word_or_cut bytes
    refine ⟨some word, Opcode.takes_word hsize word, ?_⟩
    rw [Op.operandBytes_word hsize, hsize]
    exact hword

/-- Behind an opcode other than the prefix, an operation is complete or truncated. -/
theorem plainOp_or_defect {opcode : Opcode} (hwide : opcode ≠ .wide) (bytes : List UInt8) (start : Nat) :
    (∃ op : Op, ∃ rest, op.WellFormed ∧ opcode.toByte :: bytes = op.bytes ++ rest) ∨
      ∃ fault, Defect start (opcode.toByte :: bytes) fault := by
  obtain ⟨operand, htakes, hcomplete | ⟨hshort, hstarts⟩⟩ := opcode.operand_or_cut bytes
  · obtain ⟨rest, rfl⟩ := hcomplete
    exact .inl ⟨{ opcode, operand }, rest, Op.wellFormed_plain.mpr ⟨hwide, htakes⟩, rfl⟩
  · have hlength := Op.length_operandBytes htakes
    refine .inr ⟨_, .truncated (Op.wellFormed_plain.mpr ⟨hwide, htakes⟩) (List.cons_ne_nil _ _) ?_ ?_⟩
    · rw [Op.bytes_plain]
      exact List.cons_prefix_cons.mpr ⟨rfl, hstarts⟩
    · rw [Op.bytes_plain, List.length_cons, List.length_cons, hlength]
      omega

/-- Behind the prefix for wide locals, an operation is complete or truncated, or its opcode does not belong there. -/
theorem wideOp_or_defect (bytes : List UInt8) (start : Nat) :
    (∃ op : Op, ∃ rest, op.WellFormed ∧ Opcode.wide.toByte :: bytes = op.bytes ++ rest) ∨
      ∃ fault, Defect start (Opcode.wide.toByte :: bytes) fault := by
  cases bytes with
  | nil =>
    have hop : ({ opcode := .aload, operand := some 0, wide := true } : Op).WellFormed :=
      Op.wellFormed_wide.mpr ⟨.inl rfl, rfl⟩
    exact .inr ⟨_, .truncated hop (List.cons_ne_nil _ _) ⟨[Opcode.aload.toByte, 0, 0], rfl⟩ (by decide)⟩
  | cons b bytes =>
    by_cases hlocal : ∃ opcode : Opcode, (opcode = .aload ∨ opcode = .astore) ∧ opcode.toByte = b
    · obtain ⟨opcode, hopcode, rfl⟩ := hlocal
      obtain ⟨word, hword⟩ := word_or_cut bytes
      have hop : ({ opcode, operand := some word, wide := true } : Op).WellFormed :=
        Op.wellFormed_wide.mpr ⟨hopcode, rfl⟩
      rcases hword with ⟨rest, rfl⟩ | ⟨hshort, hstarts⟩
      · refine .inl ⟨_, rest, hop, ?_⟩
        rw [Op.bytes_wide]
        rfl
      · refine .inr ⟨_, .truncated hop (List.cons_ne_nil _ _) ?_ ?_⟩
        · rw [Op.bytes_wide]
          exact List.cons_prefix_cons.mpr ⟨rfl, List.cons_prefix_cons.mpr ⟨rfl, hstarts⟩⟩
        · rw [Op.bytes_wide]
          exact Nat.add_lt_add_right hshort 2
    · have hload : Opcode.ofByte? b ≠ some .aload := fun h =>
        hlocal ⟨.aload, .inl rfl, Opcode.toByte_of_ofByte? h⟩
      have hstore : Opcode.ofByte? b ≠ some .astore := fun h =>
        hlocal ⟨.astore, .inr rfl, Opcode.toByte_of_ofByte? h⟩
      exact .inr ⟨_, .refused hload hstore bytes⟩

/-- **Bytes start with a well-formed operation, or have a defect.** -/
theorem op_or_defect {bytes : List UInt8} (h : bytes ≠ []) (start : Nat) :
    (∃ op : Op, ∃ rest, op.WellFormed ∧ bytes = op.bytes ++ rest) ∨ ∃ fault, Defect start bytes fault := by
  obtain ⟨b, bytes, rfl⟩ := List.exists_cons_of_ne_nil h
  cases hopcode : Opcode.ofByte? b with
  | none => exact .inr ⟨_, .noOpcode hopcode bytes⟩
  | some opcode =>
    obtain rfl := Opcode.toByte_of_ofByte? hopcode
    -- the prefix reads as an opcode like others, but what follows it is no operand
    by_cases hwide : opcode = .wide
    · subst hwide
      exact wideOp_or_defect bytes start
    · exact plainOp_or_defect hwide bytes start

/-- Reading an operation finds the defect that bytes have. -/
theorem Reader.run_op_defect {bytes : List UInt8} {position : Nat} {fault : DecodeFault}
    (h : Defect position bytes fault) : ∃ after, (Reader.mk bytes position).run Read.op = (.error fault, after) := by
  cases h with
  | truncated hop _ hstarts hlacks => exact ⟨_, run_op_cut hop hstarts hlacks position⟩
  | noOpcode h rest => exact ⟨_, run_op_noOpcode h rest position⟩
  | refused hload hstore rest => exact ⟨_, run_op_refused hload hstore rest position⟩

/-! ## 4. Operations one behind the other -/

/-- The bytes of operations, one behind the other. -/
def serialize (ops : List LocatedOp) : List UInt8 :=
  ops.flatMap fun op => op.bytes

/-- **Operations one behind the other**: all are of the instruction set, and the offset of each counts the bytes from
which the first starts and those of the operations before it. -/
structure LaidOut (start : Nat) (ops : List LocatedOp) : Prop where
  wellFormed : ∀ op ∈ ops, op.WellFormed
  offset : ∀ before op after, ops = before ++ op :: after → op.offset = start + (serialize before).length

@[simp]
theorem serialize_nil : serialize [] = [] :=
  rfl

@[simp]
theorem serialize_cons (op : LocatedOp) (ops : List LocatedOp) : serialize (op :: ops) = op.bytes ++ serialize ops :=
  List.flatMap_cons

theorem laidOut_nil (start : Nat) : LaidOut start [] :=
  ⟨nofun, fun before op after h => absurd h (by simp)⟩

theorem laidOut_cons {start : Nat} {op : LocatedOp} {ops : List LocatedOp} :
    LaidOut start (op :: ops) ↔
      op.offset = start ∧ op.WellFormed ∧ LaidOut (start + op.bytes.length) ops := by
  refine ⟨fun h => ⟨h.offset [] op ops rfl, h.wellFormed op List.mem_cons_self, ?_, ?_⟩,
    fun ⟨hoffset, hop, h⟩ => ⟨?_, ?_⟩⟩
  · exact fun other hmem => h.wellFormed other (List.mem_cons_of_mem op hmem)
  · intro before other after heq
    have hother := h.offset (op :: before) other after (by rw [heq]; rfl)
    rw [hother, serialize_cons, List.length_append, Nat.add_assoc]
  · intro other hmem
    rcases List.mem_cons.mp hmem with rfl | hmem
    · exact hop
    · exact h.wellFormed other hmem
  · intro before other after heq
    cases before with
    | nil =>
      obtain ⟨rfl, -⟩ := List.cons.inj heq
      exact hoffset
    | cons first before =>
      obtain ⟨rfl, hrest⟩ := List.cons.inj heq
      rw [h.offset before other after hrest, serialize_cons, List.length_append, Nat.add_assoc]

namespace Reader

theorem hasMore_iff {reader : Reader} : reader.hasMore = true ↔ reader.rest ≠ [] := by
  simp [hasMore]

theorem ops_nil (fuel position : Nat) (done : Array LocatedOp) : Reader.ops fuel ⟨[], position⟩ done = .ok done := by
  cases fuel with
  | zero => rfl
  | succ fuel => rfl

/-- A step over a well-formed operation. -/
theorem ops_op {op : Op} (h : op.WellFormed) (fuel : Nat) (rest : List UInt8) (position : Nat)
    (done : Array LocatedOp) :
    Reader.ops (fuel + 1) ⟨op.bytes ++ rest, position⟩ done =
      Reader.ops fuel ⟨rest, position + op.bytes.length⟩ (done.push { op with offset := position }) := by
  have hmore : (Reader.mk (op.bytes ++ rest) position).hasMore = true :=
    hasMore_iff.mpr (List.append_ne_nil_of_left_ne_nil (List.ne_nil_of_length_pos op.length_bytes_pos) rest)
  rw [Reader.ops, if_pos hmore, run_op h]

/-- A step into a defect. -/
theorem ops_fault {bytes : List UInt8} {position : Nat} {fault : DecodeFault} {after : Reader} (hbytes : bytes ≠ [])
    (h : (Reader.mk bytes position).run Read.op = (.error fault, after)) (fuel : Nat) (done : Array LocatedOp) :
    Reader.ops (fuel + 1) ⟨bytes, position⟩ done = .error fault := by
  rw [Reader.ops, if_pos (hasMore_iff.mpr hbytes), h]

/-- **Operations one behind the other are read from their serialization**, each at its offset. -/
theorem ops_serialize {ops : List LocatedOp} {position : Nat} (h : LaidOut position ops) {fuel : Nat}
    (hfuel : (serialize ops).length ≤ fuel) (done : Array LocatedOp) :
    Reader.ops fuel ⟨serialize ops, position⟩ done = .ok (done ++ ops.toArray) := by
  induction ops generalizing position fuel done with
  | nil =>
    rw [serialize_nil, ops_nil, Array.append_empty]
  | cons op ops ih =>
    obtain ⟨rfl, hop, hrest⟩ := laidOut_cons.mp h
    have hpos := op.length_bytes_pos
    rw [serialize_cons, List.length_append] at hfuel
    -- every operation has a byte, so the fuel for the bytes is enough for the operations
    obtain ⟨fuel, rfl⟩ : ∃ less, fuel = less + 1 := ⟨fuel - 1, by omega⟩
    rw [serialize_cons, ops_op hop, ih hrest (by omega)]
    simp

/-- **Any bytes are operations one behind the other up to a defect**, which is what reading fails with, or to the
end. -/
theorem ops_cases {fuel : Nat} {bytes : List UInt8} (hfuel : bytes.length ≤ fuel) (position : Nat)
    (done : Array LocatedOp) :
    ∃ ops rest, LaidOut position ops ∧ bytes = serialize ops ++ rest ∧
      (rest = [] ∨ ∃ fault, Defect (position + (serialize ops).length) rest fault ∧
        Reader.ops fuel ⟨bytes, position⟩ done = .error fault) := by
  induction fuel generalizing bytes position done with
  | zero =>
    have hnil : bytes = [] := List.length_eq_zero_iff.mp (by omega)
    exact ⟨[], [], laidOut_nil position, hnil, .inl rfl⟩
  | succ fuel ih =>
    by_cases hnil : bytes = []
    · exact ⟨[], [], laidOut_nil position, hnil, .inl rfl⟩
    rcases op_or_defect hnil position with ⟨op, bytes, hop, rfl⟩ | ⟨fault, hdefect⟩
    · have hpos := op.length_bytes_pos
      rw [List.length_append] at hfuel
      have hless : bytes.length ≤ fuel := by omega
      obtain ⟨ops, rest, hlaid, rfl, hend⟩ :=
        ih hless (position + op.bytes.length) (done.push { op with offset := position })
      refine ⟨{ op with offset := position } :: ops, rest, laidOut_cons.mpr ⟨rfl, hop, hlaid⟩, ?_, ?_⟩
      · rw [serialize_cons, List.append_assoc]
      · rw [ops_op hop, serialize_cons, List.length_append, ← Nat.add_assoc]
        exact hend
    · obtain ⟨after, hrun⟩ := run_op_defect hdefect
      exact ⟨[], bytes, laidOut_nil position, rfl, .inr ⟨fault, hdefect, ops_fault hnil hrun fuel done⟩⟩

end Reader

/-! ## 5. Decoding -/

theorem decode_serialize {ops : List LocatedOp} (h : LaidOut 0 ops) : decode (serialize ops) = .ok ops.toArray := by
  have hops := Reader.ops_serialize h (Nat.le_refl _) #[]
  rwa [Array.empty_append] at hops

/-- Any bytes are operations one behind the other up to a defect, which is what decoding fails with, or to the end. -/
theorem decode_cases (data : List UInt8) :
    ∃ ops rest, LaidOut 0 ops ∧ data = serialize ops ++ rest ∧
      (rest = [] ∨ ∃ fault, Defect (serialize ops).length rest fault ∧ decode data = .error fault) := by
  have hcases := Reader.ops_cases (Nat.le_refl data.length) 0 #[]
  simp only [Nat.zero_add] at hcases
  exact hcases

/-- What decoding gives is laid out from offset 0, and serializes to the bytes. -/
theorem laidOut_of_decode {data : List UInt8} {ops : Array LocatedOp} (h : decode data = .ok ops) :
    LaidOut 0 ops.toList ∧ serialize ops.toList = data := by
  obtain ⟨read, rest, hlaid, rfl, rfl | ⟨fault, _, hfault⟩⟩ := decode_cases data
  · rw [List.append_nil, decode_serialize hlaid] at h
    cases h
    exact ⟨hlaid, (List.append_nil _).symm⟩
  · rw [hfault] at h
    cases h

theorem Defect.ne_nil {start : Nat} {bytes : List UInt8} {fault : DecodeFault} (h : Defect start bytes fault) :
    bytes ≠ [] := by
  cases h with
  | truncated _ hbytes => exact hbytes
  | noOpcode => exact List.cons_ne_nil _ _
  | refused => exact List.cons_ne_nil _ _

/-- The fault of a defect names the end of the bytes, or a byte and its place. -/
theorem Defect.fault_cases {before rest : List UInt8} {fault : DecodeFault} (h : Defect before.length rest fault) :
    fault = .unexpectedEnd (before ++ rest).length ∨
      ∃ b offset, fault = .invalidOpcode b offset ∧ (before ++ rest)[offset]? = some b := by
  cases h with
  | truncated => exact .inl (by rw [List.length_append])
  | @noOpcode b _ rest =>
    refine .inr ⟨b, before.length, rfl, ?_⟩
    rw [List.getElem?_append_right (Nat.le_refl _), Nat.sub_self]
    rfl
  | @refused b _ _ rest =>
    refine .inr ⟨b, before.length + 1, rfl, ?_⟩
    rw [List.getElem?_append_right (Nat.le_add_right _ 1), Nat.add_sub_cancel_left]
    rfl

/-- **Decoding accepts exactly the byte language of the instruction set, and loses nothing.** It gives operations if
and only if they are laid out from offset 0 and serialize to the bytes. When bytes serialize no such operations, there
is an offset up to which they decode; behind it they have a defect, whose fault is given. That fault is the end of the
bytes, or a byte that stands at the offset it names. -/
theorem decode_exact (data : List UInt8) :
    (∀ ops, decode data = .ok ops ↔ LaidOut 0 ops.toList ∧ serialize ops.toList = data) ∧
      ((¬∃ ops, LaidOut 0 ops ∧ serialize ops = data) →
        ∃ start fault, decode data = .error fault ∧ start < data.length ∧
          (∃ before, decode (data.take start) = .ok before) ∧ Defect start (data.drop start) fault ∧
          (fault = .unexpectedEnd data.length ∨
            ∃ b offset, fault = .invalidOpcode b offset ∧ data[offset]? = some b)) := by
  obtain ⟨ops, rest, hlaid, rfl, hend⟩ := decode_cases data
  refine ⟨fun other => ⟨fun hdecode => ?_, fun ⟨hother, heq⟩ => ?_⟩, fun hnone => ?_⟩
  · rcases hend with rfl | ⟨fault, -, hfault⟩
    · rw [List.append_nil, decode_serialize hlaid] at hdecode
      cases hdecode
      exact ⟨hlaid, (List.append_nil _).symm⟩
    · rw [hfault] at hdecode
      cases hdecode
  · rw [← heq, decode_serialize hother]
  · rcases hend with rfl | ⟨fault, hdefect, hfault⟩
    · exact absurd ⟨ops, hlaid, (List.append_nil _).symm⟩ hnone
    · have hpos := List.length_pos_iff.mpr hdefect.ne_nil
      refine ⟨(serialize ops).length, fault, hfault, ?_, ⟨ops.toArray, ?_⟩, ?_, hdefect.fault_cases⟩
      · rw [List.length_append]
        omega
      · rw [List.take_left, decode_serialize hlaid]
      · rwa [List.drop_left]

/-- A load of slot 0, and behind it a wide load that lacks the low byte of its slot. -/
theorem decode_exact_cutWideLoad :
    (¬∃ ops, LaidOut 0 ops ∧ serialize ops = [0x2A, 0xC4, 0x19, 0x01]) ∧
      ∃ start fault, decode [0x2A, 0xC4, 0x19, 0x01] = .error fault ∧ start < 4 ∧
        (∃ before, decode ([0x2A, 0xC4, 0x19, 0x01].take start) = .ok before) ∧
        Defect start ([0x2A, 0xC4, 0x19, 0x01].drop start) fault ∧
        (fault = .unexpectedEnd 4 ∨
          ∃ b offset, fault = .invalidOpcode b offset ∧ ([0x2A, 0xC4, 0x19, 0x01] : List UInt8)[offset]? = some b) := by
  obtain ⟨haccepts, hrefuses⟩ := decode_exact [0x2A, 0xC4, 0x19, 0x01]
  have hfault : decode [0x2A, 0xC4, 0x19, 0x01] = .error (.unexpectedEnd 4) := by rfl
  have hnone : ¬∃ ops, LaidOut 0 ops ∧ serialize ops = [0x2A, 0xC4, 0x19, 0x01] := by
    rintro ⟨ops, hlaid, heq⟩
    have hdecode := (haccepts ops.toArray).mpr ⟨hlaid, heq⟩
    rw [hfault] at hdecode
    cases hdecode
  exact ⟨hnone, hrefuses hnone⟩

end MethodLowering
