import MethodLowering.Proofs.OpStream

/-!
# Reading past faults

A reader does not go back when a call fails. It stands behind the bytes that the call has looked at, which may be in the
middle of an operation, and further calls go on from there.

* `ReadCall` -- the calls of a reader, each with the type of what it gives, and the bytes that this takes up;
* `ReadCall.Outcome` -- what a call comes to with given bytes ahead, wherever they are cut from;
* `Reader.run_iff_outcome` -- **a call comes to this and to nothing else**;
* `Reader.On` -- a reader on data: what it has ahead are the last bytes of the data, as many as its position leaves;
* `Reader.Faithful` -- what a call does on the data, in offsets of the data;
* `Reader.behind`, `Reader.On.behind`, `Reader.length_rest_behind` -- calls one after the other, whatever they come to:
  what they keep, and how fast they use up the bytes;
* `Reader.behind_faithful` -- **whatever has been called before, the reader is on the data, the next call is faithful to
  it, and the bytes are used up after at most as many calls**.
-/

namespace MethodLowering

/-! ## 1. Calls -/

/-- A call of a reader. -/
inductive ReadCall where
  | byte
  | word
  | op
  deriving DecidableEq, Repr

namespace ReadCall

/-- What a call gives. -/
abbrev Item : ReadCall → Type
  | byte => UInt8
  | word => UInt16
  | op => LocatedOp

/-- The action of a call. -/
def action : (call : ReadCall) → Read call.Item
  | byte => Read.byte
  | word => Read.word
  | op => Read.op

/-- The bytes of what a call gives; an operation behind the prefix for wide locals has it among its bytes. -/
def bytes : (call : ReadCall) → call.Item → List UInt8
  | byte, item => [item]
  | word, item => wordBytes item
  | op, item => item.bytes

/-- What a call can give at an offset: any byte, any word, and the operations of the instruction set, which name the
offset. -/
def Admits (start : Nat) : (call : ReadCall) → call.Item → Prop
  | byte, _ => True
  | word, _ => True
  | op, item => item.offset = start ∧ item.WellFormed

/-- **What a call comes to**, and the bytes that are then ahead. It gives what has its bytes ahead. It fails with the
end of the bytes if they all belong to something that has more of them. Only a call for an operation fails otherwise:
with the byte ahead if that is no opcode, and with the byte behind the prefix for wide locals if that is no load or
store. -/
def Outcome (call : ReadCall) (start : Nat) (ahead : List UInt8) :
    Except DecodeFault call.Item → List UInt8 → Prop
  | .ok item, left => call.Admits start item ∧ ahead = call.bytes item ++ left
  | .error (.unexpectedEnd offset), left =>
    offset = start + ahead.length ∧ left = [] ∧
      ∃ item, call.Admits start item ∧ ahead <+: call.bytes item ∧ ahead.length < (call.bytes item).length
  | .error (.invalidOpcode b offset), left =>
    call = .op ∧
      (offset = start ∧ ahead = b :: left ∧ Opcode.ofByte? b = none ∨
        offset = start + 1 ∧ ahead = Opcode.wide.toByte :: b :: left ∧
          Opcode.ofByte? b ≠ some .aload ∧ Opcode.ofByte? b ≠ some .astore)

/-- Where a call leaves a reader: behind the bytes of what it gives, at the end that it meets, or behind the byte that
it refuses. -/
def stop (call : ReadCall) (start : Nat) : Except DecodeFault call.Item → Nat
  | .ok item => start + (call.bytes item).length
  | .error (.unexpectedEnd offset) => offset
  | .error (.invalidOpcode _ offset) => offset + 1

theorem length_bytes_pos (call : ReadCall) (item : call.Item) : 0 < (call.bytes item).length := by
  cases call with
  | byte => exact Nat.zero_lt_one
  | word => exact Nat.zero_lt_two
  | op => exact item.length_bytes_pos

/-- There is an outcome for any bytes at any offset. -/
theorem exists_outcome (call : ReadCall) (start : Nat) (ahead : List UInt8) :
    ∃ result left, call.Outcome start ahead result left := by
  cases call with
  | byte =>
    cases ahead with
    | nil => exact ⟨.error (.unexpectedEnd start), [], rfl, rfl, 0, trivial, List.nil_prefix, Nat.zero_lt_one⟩
    | cons b left => exact ⟨.ok b, left, trivial, rfl⟩
  | word =>
    obtain ⟨word, ⟨left, hahead⟩ | ⟨hshort, hstarts⟩⟩ := word_or_cut ahead
    · exact ⟨.ok word, left, trivial, hahead⟩
    · exact ⟨.error (.unexpectedEnd (start + ahead.length)), [], rfl, rfl, word, trivial, hstarts, hshort⟩
  | op =>
    by_cases hnil : ahead = []
    · subst hnil
      have hnop : ({ opcode := .nop } : Op).WellFormed := by decide
      exact ⟨.error (.unexpectedEnd start), [], rfl, rfl, { opcode := .nop, offset := start }, ⟨rfl, hnop⟩,
        List.nil_prefix, Nat.zero_lt_one⟩
    rcases op_or_defect hnil start with ⟨op, left, hop, hahead⟩ | ⟨fault, hdefect⟩
    · exact ⟨.ok { op with offset := start }, left, ⟨rfl, hop⟩, hahead⟩
    · cases hdefect with
      | @truncated op _ hop _ hstarts hlacks =>
        exact ⟨.error (.unexpectedEnd (start + ahead.length)), [], rfl, rfl, { op with offset := start }, ⟨rfl, hop⟩,
          hstarts, hlacks⟩
      | @noOpcode b hnone left => exact ⟨.error (.invalidOpcode b start), left, rfl, .inl ⟨rfl, rfl, hnone⟩⟩
      | @refused b hload hstore left =>
        exact ⟨.error (.invalidOpcode b (start + 1)), left, rfl, .inr ⟨rfl, rfl, hload, hstore⟩⟩

namespace Outcome

variable {call : ReadCall} {start : Nat} {ahead left : List UInt8} {result : Except DecodeFault call.Item}

/-- **A call uses up bytes from the front**, up to where it stops; some at least, if there are any. -/
theorem exists_used (h : call.Outcome start ahead result left) :
    ∃ used, ahead = used ++ left ∧ call.stop start result = start + used.length ∧ (used = [] → ahead = []) := by
  cases result with
  | ok item =>
    obtain ⟨-, rfl⟩ := h
    exact ⟨call.bytes item, rfl, rfl, fun h => absurd h (List.ne_nil_of_length_pos (call.length_bytes_pos item))⟩
  | error fault =>
    cases fault with
    | unexpectedEnd offset =>
      obtain ⟨rfl, rfl, -⟩ := h
      exact ⟨ahead, (List.append_nil ahead).symm, rfl, id⟩
    | invalidOpcode b offset =>
      obtain ⟨-, ⟨rfl, rfl, -⟩ | ⟨rfl, rfl, -⟩⟩ := h
      · exact ⟨[b], rfl, rfl, fun h => absurd h (List.cons_ne_nil _ _)⟩
      · exact ⟨[Opcode.wide.toByte, b], rfl, rfl, fun h => absurd h (List.cons_ne_nil _ _)⟩

theorem length_left (h : call.Outcome start ahead result left) : left.length ≤ ahead.length - 1 := by
  obtain ⟨used, rfl, -, hused⟩ := h.exists_used
  rw [List.length_append]
  cases used with
  | nil =>
    have hnil : left = [] := hused rfl
    rw [hnil]
    exact Nat.zero_le _
  | cons b used =>
    rw [List.length_cons]
    omega

end Outcome

end ReadCall

/-! ## 2. One call of a reader -/

namespace Reader

theorem run_of_outcome {call : ReadCall} {start : Nat} {ahead left : List UInt8}
    {result : Except DecodeFault call.Item} (h : call.Outcome start ahead result left) :
    (Reader.mk ahead start).run call.action = (result, ⟨left, call.stop start result⟩) := by
  cases result with
  | ok item =>
    obtain ⟨hadmits, rfl⟩ := h
    cases call with
    | byte => rfl
    | word => exact run_word item left start
    | op =>
      obtain ⟨rfl, hop⟩ := hadmits
      exact run_op hop left item.offset
  | error fault =>
    cases fault with
    | unexpectedEnd offset =>
      obtain ⟨rfl, rfl, item, hadmits, hstarts, hlacks⟩ := h
      cases call with
      | byte =>
        obtain rfl : ahead = [] := List.length_eq_zero_iff.mp (Nat.lt_one_iff.mp hlacks)
        rfl
      | word => exact run_word_cut hlacks start
      | op => exact run_op_cut hadmits.2 hstarts hlacks start
    | invalidOpcode b offset =>
      obtain ⟨rfl, ⟨rfl, rfl, hnone⟩ | ⟨rfl, rfl, hload, hstore⟩⟩ := h
      · exact run_op_noOpcode hnone left _
      · exact run_op_refused hload hstore left start

/-- **A call comes to its outcome and to nothing else.** -/
theorem run_iff_outcome {reader next : Reader} {call : ReadCall} {result : Except DecodeFault call.Item} :
    reader.run call.action = (result, next) ↔
      call.Outcome reader.position reader.rest result next.rest ∧
        next.position = call.stop reader.position result := by
  constructor
  · intro hrun
    -- every place has an outcome, and the call runs to it
    obtain ⟨other, left, houtcome⟩ := call.exists_outcome reader.position reader.rest
    obtain ⟨rfl, rfl⟩ := Prod.mk.inj (hrun.symm.trans (run_of_outcome houtcome))
    exact ⟨houtcome, rfl⟩
  · rintro ⟨houtcome, hposition⟩
    obtain ⟨left, position⟩ := next
    obtain rfl : position = call.stop reader.position result := hposition
    exact run_of_outcome houtcome

/-- **A reader on data**: ahead are the last bytes of the data, and the position counts the others. -/
structure On (data : List UInt8) (reader : Reader) : Prop where
  rest : reader.rest <:+ data
  position : reader.position + reader.rest.length = data.length

theorem on_start (data : List UInt8) : On data { rest := data } :=
  ⟨List.suffix_refl data, Nat.zero_add data.length⟩

namespace On

variable {data : List UInt8} {reader : Reader}

theorem position_le (h : On data reader) : reader.position ≤ data.length := by
  have hposition := h.position
  omega

theorem hasMore_iff_lt (h : On data reader) : reader.hasMore = true ↔ reader.position < data.length := by
  have hposition := h.position
  rw [hasMore_iff, ← List.length_pos_iff]
  omega

theorem rest_eq_drop (h : On data reader) : reader.rest = data.drop reader.position := by
  have hposition := h.position
  have hrest := List.suffix_iff_eq_drop.mp h.rest
  rwa [show data.length - reader.rest.length = reader.position by omega] at hrest

theorem rest_eq_cons_iff (h : On data reader) {b : UInt8} :
    (∃ left, reader.rest = b :: left) ↔ data[reader.position]? = some b := by
  rw [← List.head?_eq_some_iff, h.rest_eq_drop, List.head?_drop]

theorem rest_eq_cons_cons_iff (h : On data reader) {a b : UInt8} :
    (∃ left, reader.rest = a :: b :: left) ↔
      data[reader.position]? = some a ∧ data[reader.position + 1]? = some b := by
  rw [← h.rest_eq_cons_iff, ← List.head?_drop, ← List.tail_drop, ← h.rest_eq_drop]
  cases reader.rest with
  | nil => simp
  | cons first left => simp [List.head?_eq_some_iff]

/-- A call leaves a reader on the data. -/
theorem step {next : Reader} {call : ReadCall} {result : Except DecodeFault call.Item} (h : On data reader)
    (hrun : reader.run call.action = (result, next)) : On data next := by
  obtain ⟨houtcome, hstop⟩ := run_iff_outcome.mp hrun
  obtain ⟨used, hahead, hused, -⟩ := houtcome.exists_used
  refine ⟨List.IsSuffix.trans ⟨used, hahead.symm⟩ h.rest, ?_⟩
  rw [hstop, hused, Nat.add_assoc, ← List.length_append, ← hahead, h.position]

end On

/-! ## 3. What a call does on the data -/

/-- **What a call does on data**, from a reader to the one behind it. -/
structure Faithful (data : List UInt8) (call : ReadCall) (reader : Reader) (result : Except DecodeFault call.Item)
    (next : Reader) : Prop where
  /-- It goes on if a byte is ahead. -/
  progress : reader.hasMore = true → reader.position < next.position
  /-- It goes over the bytes of what it gives, to the end that it meets, or behind the byte that it refuses. -/
  position : next.position = call.stop reader.position result
  /-- It gives what can be given there and has its bytes there. -/
  gives : ∀ item, result = .ok item ↔
    call.Admits reader.position item ∧ call.bytes item <+: data.drop reader.position
  /-- It meets the end, which is that of the data, if all bytes there belong to something that has more of them. -/
  ends : ∀ offset, result = .error (.unexpectedEnd offset) ↔
    offset = data.length ∧ ∃ item, call.Admits reader.position item ∧
      data.drop reader.position <+: call.bytes item ∧ data.length < reader.position + (call.bytes item).length
  /-- It refuses the byte of the data at the offset it names, which is where it starts, or one further on behind the
  prefix for wide locals. -/
  refuses : ∀ b offset, result = .error (.invalidOpcode b offset) ↔
    call = .op ∧ data[offset]? = some b ∧
      (offset = reader.position ∧ Opcode.ofByte? b = none ∨
        offset = reader.position + 1 ∧ data[reader.position]? = some Opcode.wide.toByte ∧
          Opcode.ofByte? b ≠ some .aload ∧ Opcode.ofByte? b ≠ some .astore)

/-- A result is that of a call exactly if it is part of an outcome. -/
theorem result_eq_iff {reader next : Reader} {call : ReadCall} {result other : Except DecodeFault call.Item}
    (hrun : reader.run call.action = (result, next)) :
    result = other ↔ ∃ left, call.Outcome reader.position reader.rest other left := by
  constructor
  · rintro rfl
    exact ⟨next.rest, (run_iff_outcome.mp hrun).1⟩
  · rintro ⟨left, houtcome⟩
    exact (Prod.mk.inj (hrun.symm.trans (run_of_outcome houtcome))).1

/-- **A call on data is faithful to it**, wherever the reader stands. -/
theorem On.faithful {data : List UInt8} {reader next : Reader} {call : ReadCall}
    {result : Except DecodeFault call.Item} (h : On data reader) (hrun : reader.run call.action = (result, next)) :
    Faithful data call reader result next := by
  obtain ⟨houtcome, hstop⟩ := run_iff_outcome.mp hrun
  refine ⟨fun hmore => ?_, hstop, fun item => ?_, fun offset => ?_, fun b offset => ?_⟩
  · obtain ⟨used, -, hused, hnil⟩ := houtcome.exists_used
    have hpos := List.length_pos_iff.mpr (mt hnil (hasMore_iff.mp hmore))
    omega
  · rw [result_eq_iff hrun, ← h.rest_eq_drop]
    exact ⟨fun ⟨left, hadmits, hahead⟩ => ⟨hadmits, left, hahead.symm⟩,
      fun ⟨hadmits, left, hahead⟩ => ⟨left, hadmits, hahead.symm⟩⟩
  · rw [result_eq_iff hrun, ← h.rest_eq_drop, ← h.position]
    constructor
    · rintro ⟨left, hoffset, -, item, hadmits, hstarts, hlacks⟩
      exact ⟨hoffset, item, hadmits, hstarts, Nat.add_lt_add_left hlacks _⟩
    · rintro ⟨hoffset, item, hadmits, hstarts, hlacks⟩
      exact ⟨[], hoffset, rfl, item, hadmits, hstarts, Nat.lt_of_add_lt_add_left hlacks⟩
  · rw [result_eq_iff hrun]
    constructor
    · rintro ⟨left, hcall, ⟨rfl, hahead, hnone⟩ | ⟨rfl, hahead, hrefused⟩⟩
      · exact ⟨hcall, h.rest_eq_cons_iff.mp ⟨left, hahead⟩, .inl ⟨rfl, hnone⟩⟩
      · obtain ⟨hfirst, hsecond⟩ := h.rest_eq_cons_cons_iff.mp ⟨left, hahead⟩
        exact ⟨hcall, hsecond, .inr ⟨rfl, hfirst, hrefused⟩⟩
    · rintro ⟨hcall, hbyte, ⟨rfl, hnone⟩ | ⟨rfl, hfirst, hrefused⟩⟩
      · obtain ⟨left, hahead⟩ := h.rest_eq_cons_iff.mpr hbyte
        exact ⟨left, hcall, .inl ⟨rfl, hahead, hnone⟩⟩
      · obtain ⟨left, hahead⟩ := h.rest_eq_cons_cons_iff.mpr ⟨hfirst, hbyte⟩
        exact ⟨left, hcall, .inr ⟨rfl, hahead, hrefused⟩⟩

/-! ## 4. Calls one after the other -/

/-- The reader behind calls made one after the other, whatever they come to. -/
def behind (reader : Reader) (calls : List ReadCall) : Reader :=
  calls.foldl (fun reader call => (reader.run call.action).2) reader

theorem behind_cons (reader : Reader) (call : ReadCall) (calls : List ReadCall) :
    reader.behind (call :: calls) = (reader.run call.action).2.behind calls :=
  rfl

/-- Calls leave a reader on the data. -/
theorem On.behind {data : List UInt8} {reader : Reader} (h : On data reader) (calls : List ReadCall) :
    On data (reader.behind calls) := by
  induction calls generalizing reader with
  | nil => exact h
  | cons call calls ih => exact ih (h.step rfl)

/-- **Every call uses up a byte, as long as there are any.** -/
theorem length_rest_behind (reader : Reader) (calls : List ReadCall) :
    (reader.behind calls).rest.length ≤ reader.rest.length - calls.length := by
  induction calls generalizing reader with
  | nil => exact Nat.le_refl _
  | cons call calls ih =>
    have hcall := (run_iff_outcome.mp (Prod.eta (reader.run call.action)).symm).1.length_left
    have hcalls := ih (reader.run call.action).2
    rw [behind_cons, List.length_cons]
    omega

/-- **Reading past faults is sound and makes progress.** Take any data and any calls on it, one after the other,
whatever they come to. The position is inside the data, and there is more as long as it is not at the end. While there
is more, fewer calls have been made than the data has bytes. Further calls never take the position back, and when there
is no more there never will be. And the next call, whatever it is, is faithful to the data. -/
theorem behind_faithful (data : List UInt8) (calls : List ReadCall) :
    let reader := Reader.behind { rest := data } calls
    reader.position ≤ data.length ∧
    (reader.hasMore = true ↔ reader.position < data.length) ∧
    (reader.hasMore = true → calls.length < data.length) ∧
    (∀ more, reader.position ≤ (reader.behind more).position ∧
      (reader.hasMore = false → (reader.behind more).hasMore = false)) ∧
    ∀ call result next, reader.run call.action = (result, next) → Faithful data call reader result next := by
  intro reader
  have hon : On data reader := (on_start data).behind calls
  have hposition := hon.position
  have hforward (more : List ReadCall) : reader.position ≤ (reader.behind more).position := by
    have hmore := (hon.behind more).position
    have hused := length_rest_behind reader more
    omega
  refine ⟨hon.position_le, hon.hasMore_iff_lt, fun hmore => ?_, fun more => ⟨hforward more, fun hnone => ?_⟩,
    fun call result next hrun => hon.faithful hrun⟩
  · have hlt := hon.hasMore_iff_lt.mp hmore
    have hused : reader.rest.length ≤ data.length - calls.length := length_rest_behind { rest := data } calls
    omega
  · rw [Bool.eq_false_iff, Ne, hon.hasMore_iff_lt] at hnone
    rw [Bool.eq_false_iff, Ne, (hon.behind more).hasMore_iff_lt]
    have hle := hforward more
    omega

/-- Bytes that are no code: an opcode without its word, the prefix for wide locals in front of a `pop`, a byte that is
no opcode, and a load without its slot. -/
def brokenBytes : List UInt8 :=
  [0x11, 0xC4, 0x57, 0xFF, 0x19]

/-- Two calls are refused, the first of them behind the prefix, and the fourth meets the end in the middle of a word. -/
theorem behind_faithful_brokenBytes :
    Reader.behind { rest := brokenBytes } [.byte] = ⟨[0xC4, 0x57, 0xFF, 0x19], 1⟩ ∧
    Faithful brokenBytes .op ⟨[0xC4, 0x57, 0xFF, 0x19], 1⟩ (.error (.invalidOpcode 0x57 2)) ⟨[0xFF, 0x19], 3⟩ ∧
    Reader.behind { rest := brokenBytes } [.byte, .op, .op] = ⟨[0x19], 4⟩ ∧
    [ReadCall.byte, .op, .op].length < brokenBytes.length ∧
    Faithful brokenBytes .word ⟨[0x19], 4⟩ (.error (.unexpectedEnd 5)) ⟨[], 5⟩ ∧
    Reader.behind { rest := brokenBytes } [.byte, .op, .op, .word] = ⟨[], 5⟩ ∧
    ∀ more, ((Reader.mk [] 5).behind more).hasMore = false := by
  obtain ⟨-, -, -, -, hrefused⟩ := behind_faithful brokenBytes [.byte]
  obtain ⟨-, -, hfewer, -, hended⟩ := behind_faithful brokenBytes [.byte, .op, .op]
  obtain ⟨-, -, -, hmore, -⟩ := behind_faithful brokenBytes [.byte, .op, .op, .word]
  exact ⟨rfl, hrefused .op _ _ rfl, rfl, hfewer rfl, hended .word _ _ rfl, rfl, fun more => (hmore more).2 rfl⟩

end Reader

end MethodLowering
