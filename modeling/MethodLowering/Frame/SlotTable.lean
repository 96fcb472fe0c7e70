import MethodLowering.Error
import MethodLowering.Signature.ParameterList
import Std.Data.HashMap

/-!
# Slot tables

A frame has a slot for the receiver if there is one, one for each container of arguments, and one for each parameter, in
this order.

* `SlotTable.reserve` -- the next slot for a role;
* `SlotTable.slot?`, `SlotTable.entries` -- the slot of a role, and all roles with their slots;
* `SlotTable.allocate` -- the table of a callable's frame.
-/

namespace MethodLowering

/-- The roles in the order of their slots, with an index to look them up by. -/
structure SlotTable where
  roles : Array SlotRole := #[]
  index : Std.HashMap SlotRole UInt16 := ∅

namespace SlotTable

/-- A frame has no more slots than this. -/
def limit : Nat := 65535

instance : Inhabited SlotTable := ⟨{}⟩

/-- The number of slots. -/
def size (table : SlotTable) : Nat :=
  table.roles.size

/-- Whether there is no slot. -/
def isEmpty (table : SlotTable) : Bool :=
  table.roles.isEmpty

/-- The number of slots as the size of a frame. -/
def maxLocals (table : SlotTable) : UInt16 :=
  UInt16.ofNat table.size

/-- The slot of a role. -/
def slot? (table : SlotTable) (role : SlotRole) : Option UInt16 :=
  table.index[role]?

/-- The roles with their slots, in order. -/
def entries (table : SlotTable) : List (SlotRole × UInt16) :=
  table.roles.toList.zipIdx.map fun (role, place) => (role, UInt16.ofNat place)

/-- **Reserves the next slot for a role**, with the table behind it. A role that has a slot gets no second one, and a
full frame gets no further slot. -/
def reserve (table : SlotTable) (role : SlotRole) : Except LoweringError UInt16 × SlotTable :=
  if table.index.contains role then
    (.error (.internal (.slotReservedTwice role)), table)
  else if limit ≤ table.size then
    (.error .tooManyLocals, table)
  else
    let slot := UInt16.ofNat table.size
    (.ok slot, { roles := table.roles.push role, index := table.index.insert role slot })

/-- Reserves slots for roles in order, up to the first fault. -/
def reserveAll : List SlotRole → SlotTable → Except LoweringError SlotTable
  | [], table => .ok table
  | role :: rest, table =>
    match table.reserve role with
    | (.ok _, table) => reserveAll rest table
    | (.error error, _) => .error error

/-- The roles of a frame: the receiver if there is one, the containers, the parameters. -/
def frameRoles (hasReceiver : Bool) (parameters : ParameterList) : List SlotRole :=
  (if hasReceiver then [.receiver] else []) ++ [.positionalArgs, .keywordArgs] ++ parameters.names.map .named

/-- **The table of a frame.** -/
def allocate (hasReceiver : Bool) (parameters : ParameterList) : Except LoweringError SlotTable :=
  reserveAll (frameRoles hasReceiver parameters) {}

end SlotTable

end MethodLowering
