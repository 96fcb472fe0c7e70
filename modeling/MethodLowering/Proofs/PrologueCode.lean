import MethodLowering.Callable.Basic
import MethodLowering.Proofs.ReturnShaping
import MethodLowering.Proofs.SlotLayout

/-!
# The code of a prologue, by position

A prologue looks slots up by role. In a frame laid out for its parameters every slot is a place, so the code depends on
the kind of the callable and the number of its parameters alone.

* `Prologue.transfers` -- which element of the container goes to which slot, in order;
* `Prologue.layout` -- the code of a prologue, and `Prologue.unpack_eq`: this is the code that unpacking gives;
* `Callable.code` -- the code unit of a callable, and `Callable.lower_eq`: lowering fails for the size of the frame, for
  a missing superclass, for a fault of this unit, and otherwise exports it.
-/

namespace MethodLowering

/-- A monadic map whose steps all succeed gives what they give. -/
theorem mapM_eq_ok {α β ε : Type} {f : α → Except ε β} {g : α → β} {items : List α}
    (h : ∀ item ∈ items, f item = .ok (g item)) : items.mapM f = .ok (items.map g) := by
  induction items with
  | nil => rfl
  | cons item rest ih =>
    rw [List.mapM_cons, h item List.mem_cons_self, ih fun other hother => h other (List.mem_cons_of_mem _ hother)]
    rfl

namespace Prologue

/-! ## 1. Unpacking -/

/-- Which element of the container goes to which slot, in order: the first one to the receiver, where there is one, and
each one to the parameter at its position. -/
def transfers (hasReceiver : Bool) (count : Nat) : List (Nat × UInt16) :=
  (if hasReceiver then [(0, 0)] else []) ++
    (List.range count).map fun position => (position, UInt16.ofNat (hasReceiver.toNat + 2 + position))

/-- The call of the superclass initializer on the receiver, in a constructor. -/
def superCall (kind : CallableKind) (initializer : Option MethodRef) : List Instruction :=
  match kind, initializer with
  | .constructor, some method => [.loadLocal 0, .invokeSpecial method]
  | _, _ => []

/-- **The code of a prologue, by position.** -/
def layout (kind : CallableKind) (count : Nat) (initializer : Option MethodRef) : List Instruction :=
  if kind = .entryPoint then
    []
  else
    ((transfers kind.hasReceiver count).flatMap fun (index, slot) =>
      move (UInt16.ofNat kind.hasReceiver.toNat) index slot) ++ superCall kind initializer

variable {prologue : Prologue}

theorem receiverSlot_eq (hframe : SlotTable.FrameOf prologue.kind.hasReceiver prologue.parameters prologue.slots)
    (hreceiver : prologue.kind.hasReceiver = true) : prologue.receiverSlot = .ok 0 := by
  rw [hreceiver] at hframe
  rw [receiverSlot, hframe.receiver]

/-- The receiver is unpacked first. -/
theorem unpackReceiver_eq (hframe : SlotTable.FrameOf prologue.kind.hasReceiver prologue.parameters prologue.slots)
    (container : UInt16) :
    prologue.unpackReceiver container =
      .ok ((if prologue.kind.hasReceiver then [(0, (0 : UInt16))] else []).flatMap fun (index, slot) =>
        move container index slot) := by
  unfold unpackReceiver
  by_cases hreceiver : prologue.kind.hasReceiver = true
  · rw [if_pos hreceiver, if_pos hreceiver, receiverSlot_eq hframe hreceiver]
    rfl
  · rw [if_neg hreceiver, if_neg hreceiver]
    rfl

/-- The parameters are unpacked in order, each from its position to its place. -/
theorem unpackParameters_eq
    (hframe : SlotTable.FrameOf prologue.kind.hasReceiver prologue.parameters prologue.slots) (container : UInt16) :
    (prologue.parameters.toList.zipIdx.mapM fun (parameter, position) =>
        prologue.unpackParameter container parameter position) =
      .ok ((List.range prologue.parameters.size).map fun position =>
        move container position (UInt16.ofNat (prologue.kind.hasReceiver.toNat + 2 + position))) := by
  have hstep : ∀ item ∈ prologue.parameters.toList.zipIdx,
      prologue.unpackParameter container item.1 item.2 =
        .ok (move container item.2 (UInt16.ofNat (prologue.kind.hasReceiver.toNat + 2 + item.2))) := by
    rintro ⟨parameter, position⟩ hitem
    have hparameter : prologue.parameters.toList[position]? = some parameter := List.mem_zipIdx_iff_getElem?.mp hitem
    have hposition : position < prologue.parameters.size := (List.getElem?_eq_some_iff.mp hparameter).1
    have hfits := hframe.fits
    unfold SlotTable.limit at hfits
    rw [unpackParameter, hframe.named hparameter]
    exact if_pos (show position < 2147483648 by omega)
  rw [mapM_eq_ok hstep, ParameterList.size, List.range_eq_range', ← List.zipIdx_map_snd, List.map_map]
  rfl

/-- The superclass initializer is called where there is one to call. -/
theorem initializeSuper_eq (hframe : SlotTable.FrameOf prologue.kind.hasReceiver prologue.parameters prologue.slots)
    {initializer : Option MethodRef} (hinit : prologue.kind = .constructor → initializer.isSome) :
    prologue.initializeSuper initializer = .ok (superCall prologue.kind initializer) := by
  unfold initializeSuper
  by_cases hkind : prologue.kind = .constructor
  · obtain ⟨method, rfl⟩ := Option.isSome_iff_exists.mp (hinit hkind)
    have hreceiver : prologue.kind.hasReceiver = true := by rw [hkind]; rfl
    rw [if_pos hkind, receiverSlot_eq hframe hreceiver, hkind]
    rfl
  · rw [if_neg hkind]
    unfold superCall
    split
    · exact absurd ‹_› hkind
    · rfl

/-- **In the frame of its parameters, a prologue is its layout.** -/
theorem unpack_eq (hframe : SlotTable.FrameOf prologue.kind.hasReceiver prologue.parameters prologue.slots)
    {initializer : Option MethodRef} (hinit : prologue.kind = .constructor → initializer.isSome) :
    prologue.unpack initializer = .ok (layout prologue.kind prologue.parameters.size initializer) := by
  unfold unpack layout
  by_cases hkind : prologue.kind = .entryPoint
  · rw [if_pos hkind, if_pos hkind]
    rfl
  · rw [if_neg hkind, if_neg hkind, hframe.positionalArgs]
    simp only [unpackReceiver_eq hframe, unpackParameters_eq hframe, initializeSuper_eq hframe hinit, transfers,
      List.flatMap_append, List.flatMap_map]
    rfl

/-! ## 2. The layout as code -/

/-- **What stands in a prologue**: the moves of the arguments, and in a constructor the call on the receiver. -/
theorem mem_layout {kind : CallableKind} {count : Nat} {initializer : Option MethodRef} {instruction : Instruction}
    (h : instruction ∈ layout kind count initializer) :
    (∃ index slot, (index, slot) ∈ transfers kind.hasReceiver count ∧
      instruction ∈ move (UInt16.ofNat kind.hasReceiver.toNat) index slot) ∨
    (kind = .constructor ∧ (instruction = .loadLocal 0 ∨ ∃ method, instruction = .invokeSpecial method)) := by
  unfold layout at h
  split at h
  · cases h
  · rcases List.mem_append.mp h with h | h
    · obtain ⟨⟨index, slot⟩, hmem, hmove⟩ := List.mem_flatMap.mp h
      exact Or.inl ⟨index, slot, hmem, hmove⟩
    · unfold superCall at h
      split at h
      · simp only [List.mem_cons, List.not_mem_nil, or_false] at h
        exact Or.inr ⟨rfl, h.imp id fun heq => ⟨_, heq⟩⟩
      · cases h

/-- A prologue never returns, and it pushes no null that a return of the body could fuse with. -/
theorem layout_plain {kind : CallableKind} {count : Nat} {initializer : Option MethodRef} {instruction : Instruction}
    (h : instruction ∈ layout kind count initializer) : ¬instruction.isTerminator ∧ instruction ≠ .pushNull := by
  rcases mem_layout h with ⟨index, slot, _, hmove⟩ | ⟨_, rfl | ⟨method, rfl⟩⟩
  · simp only [move, List.mem_cons, List.not_mem_nil, or_false] at hmove
    rcases hmove with rfl | rfl | rfl | rfl <;> exact ⟨nofun, nofun⟩
  · exact ⟨nofun, nofun⟩
  · exact ⟨nofun, nofun⟩

/-- Shaping leaves a prologue alone. -/
theorem apply_layout_append (shape : ReturnShape) (kind : CallableKind) (count : Nat)
    (initializer : Option MethodRef) (code : List Instruction) :
    shape.apply (layout kind count initializer ++ code) = layout kind count initializer ++ shape.apply code := by
  refine ReturnShape.apply_append_of_plain (fun instruction hmem => (layout_plain hmem).1) fun hlast => ?_
  exact (layout_plain (List.mem_of_getLast? hlast)).2 rfl

theorem mem_transfers {hasReceiver : Bool} {count index : Nat} {slot : UInt16} :
    (index, slot) ∈ transfers hasReceiver count ↔
      (hasReceiver ∧ index = 0 ∧ slot = 0) ∨
        (index < count ∧ slot = UInt16.ofNat (hasReceiver.toNat + 2 + index)) := by
  unfold transfers
  rw [List.mem_append]
  refine or_congr ?_ ?_
  · cases hasReceiver <;> simp
  · constructor
    · intro h
      obtain ⟨position, hposition, heq⟩ := List.mem_map.mp h
      obtain ⟨rfl, rfl⟩ := Prod.mk.inj heq
      exact ⟨List.mem_range.mp hposition, rfl⟩
    · rintro ⟨hindex, rfl⟩
      exact List.mem_map.mpr ⟨index, List.mem_range.mpr hindex, rfl⟩

theorem length_transfers (hasReceiver : Bool) (count : Nat) :
    (transfers hasReceiver count).length = hasReceiver.toNat + count := by
  cases hasReceiver <;> simp [transfers, Nat.add_comm]

/-- A move takes four instructions. -/
theorem length_moves (container : UInt16) (pairs : List (Nat × UInt16)) :
    (pairs.flatMap fun (index, slot) => move container index slot).length = 4 * pairs.length := by
  induction pairs with
  | nil => rfl
  | cons pair rest ih =>
    rw [List.flatMap_cons, List.length_append, ih, List.length_cons]
    show 4 + 4 * rest.length = _
    omega

/-- The slots that arguments go to lie in the frame, and none of them is a container. -/
theorem slot_of_mem_transfers {hasReceiver : Bool} {count index : Nat} {slot : UInt16}
    (hlimit : hasReceiver.toNat + 2 + count ≤ SlotTable.limit) (h : (index, slot) ∈ transfers hasReceiver count) :
    slot.toNat < hasReceiver.toNat ∨
      (hasReceiver.toNat + 2 ≤ slot.toNat ∧ slot.toNat < hasReceiver.toNat + 2 + count) := by
  unfold SlotTable.limit at hlimit
  rcases mem_transfers.mp h with ⟨hreceiver, _, rfl⟩ | ⟨hindex, rfl⟩
  · left
    rw [hreceiver]
    exact Nat.zero_lt_one
  · right
    rw [UInt16.toNat_ofNat_of_lt' (show hasReceiver.toNat + 2 + index < 2 ^ 16 by omega)]
    omega

/-- **The code unit of a callable in the frame of its parameters**: its layout, and behind it the completed body with
its returns in shape. -/
theorem generate_eq (hframe : SlotTable.FrameOf prologue.kind.hasReceiver prologue.parameters prologue.slots)
    {initializer : Option MethodRef} (hinit : prologue.kind = .constructor → initializer.isSome) (body : Block)
    (shape : ReturnShape) :
    prologue.generate body shape initializer =
      .ok { maxLocals := prologue.slots.maxLocals
            instructions :=
              layout prologue.kind prologue.parameters.size initializer ++ shape.apply body.complete } := by
  rw [generate, unpack_eq hframe hinit, ← apply_layout_append]
  rfl

end Prologue

/-! ## 3. Lowering -/

namespace Callable

variable (callable : Callable) (scope : Scope) (target : Target)

/-- The number of slots of a callable's frame. -/
def frameSize : Nat :=
  SlotTable.frameSize callable.kind.hasReceiver callable.visible

/-- The superclass initializer that a constructor calls, where the superclass is known. -/
def initializer? : Option MethodRef :=
  if callable.kind = .constructor then
    scope.superclass.map fun owner =>
      { owner, name := target.constructorName, descriptor := target.initializerDescriptor }
  else
    none

/-- The prologue of a callable. -/
def setup : List Instruction :=
  Prologue.layout callable.kind callable.visible.size (callable.initializer? scope target)

/-- **The code unit of a callable, by position.** -/
def code : CodeUnit where
  maxLocals := UInt16.ofNat callable.frameSize
  instructions := callable.setup scope target ++ callable.returnShape.apply callable.body.complete

/-- The method record that exports this code unit. -/
def record : MethodRecord where
  name := callable.targetName target
  descriptor := callable.descriptor target
  isStatic := callable.isStatic
  code := callable.code scope target

/-- Whether the superclass that a constructor needs is not known. -/
def LacksSuperclass : Prop :=
  callable.kind = .constructor ∧ scope.superclass = none

instance : Decidable (callable.LacksSuperclass scope) :=
  inferInstanceAs (Decidable (_ ∧ _))

/-- The initializer is looked up if and only if the superclass is not missing. -/
theorem superclassInitializer_eq :
    callable.superclassInitializer scope target =
      if callable.LacksSuperclass scope then .error (.unresolvedSuperclass scope.fullName)
      else .ok (callable.initializer? scope target) := by
  by_cases hlacks : callable.LacksSuperclass scope
  · rw [if_pos hlacks, superclassInitializer, if_pos hlacks.1, hlacks.2]
  · rw [if_neg hlacks, superclassInitializer, initializer?]
    by_cases hkind : callable.kind = .constructor
    · obtain ⟨owner, hsuper⟩ := Option.ne_none_iff_exists'.mp fun hnone => hlacks ⟨hkind, hnone⟩
      rw [if_pos hkind, if_pos hkind, hsuper]
      rfl
    · rw [if_neg hkind, if_neg hkind]

/-- A constructor whose superclass is not missing has an initializer to call. -/
theorem isSome_initializer? (h : ¬callable.LacksSuperclass scope) (hkind : callable.kind = .constructor) :
    (callable.initializer? scope target).isSome := by
  rw [initializer?, if_pos hkind, Option.isSome_map]
  exact Option.isSome_iff_ne_none.mpr fun hnone => h ⟨hkind, hnone⟩

/-- **Lowering step by step**: it fails for the size of the frame, then for a missing superclass, then for a fault of
the code unit, and otherwise exports the unit. -/
theorem lower_eq :
    callable.lower scope target =
      if SlotTable.limit < callable.frameSize then .error .tooManyLocals
      else if callable.LacksSuperclass scope then .error (.unresolvedSuperclass scope.fullName)
      else match (callable.code scope target).verify with
        | .error fault => .error (.verification fault)
        | .ok () => .ok (callable.record scope target) := by
  unfold lower allocateSlots
  by_cases hover : SlotTable.limit < callable.frameSize
  · rw [if_pos hover, SlotTable.allocate_overflow hover]
    rfl
  · rw [if_neg hover]
    obtain ⟨slots, hslots, hframe⟩ := SlotTable.allocate_fits (Nat.le_of_not_lt hover)
    rw [hslots, superclassInitializer_eq]
    by_cases hlacks : callable.LacksSuperclass scope
    · rw [if_pos hlacks, if_pos hlacks]
      rfl
    · rw [if_neg hlacks, if_neg hlacks]
      have hmax : slots.maxLocals = UInt16.ofNat callable.frameSize := by rw [SlotTable.maxLocals, hframe.size_eq]; rfl
      let prologue : Prologue := { kind := callable.kind, slots, parameters := callable.visible }
      have hcode : prologue.generate callable.body callable.returnShape (callable.initializer? scope target) =
          .ok (callable.code scope target) := by
        rw [Prologue.generate_eq hframe (callable.isSome_initializer? scope target hlacks), hmax]
        rfl
      show (prologue.generate callable.body callable.returnShape (callable.initializer? scope target) >>= _) = _
      rw [hcode]
      show (match (callable.code scope target).verify with | .error fault => _ | .ok () => _) = _
      cases (callable.code scope target).verify <;> rfl

end Callable

end MethodLowering
