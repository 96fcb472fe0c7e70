import MethodLowering.Bytecode.Encoding

/-!
# Decoding of byte code

A reader walks over bytes and keeps its position, also behind a fault, so reading can go on.

* `Reader`, `Read` -- the bytes still ahead with the position, and actions on them that may fail;
* `Read.byte`, `Read.word`, `Read.op` -- a byte, two bytes with the high one first, an operation with its operand;
* `decode` -- all operations of a byte sequence, or the first fault.
-/

namespace MethodLowering

/-- What may be wrong with bytes to be read. -/
inductive DecodeFault where
  /-- The bytes end at an offset where more are needed. -/
  | unexpectedEnd (offset : Nat)
  /-- The byte at an offset is no opcode, or none that may stand there. -/
  | invalidOpcode (byte : UInt8) (offset : Nat)
  deriving DecidableEq, Repr

/-- The text of a fault; the byte is given in hexadecimal. -/
def DecodeFault.message : DecodeFault → String
  | unexpectedEnd offset => s!"Unexpected end of bytecode at offset {offset}"
  | invalidOpcode byte offset =>
    let digits := String.ofList (Nat.toDigits 16 byte.toNat)
    s!"Invalid opcode 0x{digits} at offset {offset}"

/-! ## 1. The reader -/

/-- The bytes still ahead, and how many have been read. -/
structure Reader where
  rest : List UInt8
  position : Nat := 0
  deriving DecidableEq, Repr

/-- Whether a byte is ahead. -/
def Reader.hasMore (reader : Reader) : Bool :=
  !reader.rest.isEmpty

/-- An action of a reader. A fault keeps what has been read before it. -/
abbrev Read (α : Type) : Type :=
  ExceptT DecodeFault (StateM Reader) α

/-- An operation and the offset where it starts. -/
structure LocatedOp extends Op where
  offset : Nat
  deriving DecidableEq, Repr

namespace Read

/-- The number of bytes read so far. -/
def position : Read Nat := do
  return (← get).position

/-- Reads one byte. -/
def byte : Read UInt8 := do
  let reader ← get
  match reader.rest with
  | [] => throw (.unexpectedEnd reader.position)
  | b :: rest =>
    set { rest, position := reader.position + 1 : Reader }
    return b

/-- Reads two bytes, the high one first. -/
def word : Read UInt16 := do
  let high ← byte
  let low ← byte
  return high.toUInt16 <<< 8 ||| low.toUInt16

/-- Reads as many operand bytes as the opcode has. -/
def operand (opcode : Opcode) : Read (Option UInt16) := do
  match opcode.operandSize with
  | 0 => return none
  | 1 => return some (← byte).toUInt16
  | _ => return some (← word)

/-- Reads the opcode behind the prefix for wide locals, which only loads and stores may be. -/
def wideOpcode : Read Opcode := do
  let offset ← position
  let b ← byte
  match Opcode.ofByte? b with
  | some .aload => return .aload
  | some .astore => return .astore
  | _ => throw (.invalidOpcode b offset)

/-- Reads an operation with its operand. -/
def op : Read LocatedOp := do
  let offset ← position
  let b ← byte
  match Opcode.ofByte? b with
  | none => throw (.invalidOpcode b offset)
  | some .wide =>
    let opcode ← wideOpcode
    return { opcode, operand := some (← word), wide := true, offset }
  | some opcode => return { opcode, operand := ← operand opcode, offset }

end Read

/-- Runs an action: its result, and the reader behind it. -/
def Reader.run {α : Type} (reader : Reader) (action : Read α) : Except DecodeFault α × Reader :=
  action reader

/-! ## 2. All operations -/

/-- Reads at most `fuel` operations while bytes are ahead, behind those already read. -/
def Reader.ops (fuel : Nat) (reader : Reader) (done : Array LocatedOp) : Except DecodeFault (Array LocatedOp) :=
  match fuel with
  | 0 => .ok done
  | fuel + 1 =>
    if reader.hasMore then
      match reader.run Read.op with
      | (.ok op, reader) => reader.ops fuel (done.push op)
      | (.error fault, _) => .error fault
    else
      .ok done

/-- **All operations of a byte sequence, or the first fault.** An operation takes at least one byte, so there are no
more of them than bytes. -/
def decode (bytes : List UInt8) : Except DecodeFault (Array LocatedOp) :=
  Reader.ops bytes.length { rest := bytes } #[]

end MethodLowering
