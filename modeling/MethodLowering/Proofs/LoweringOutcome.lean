import MethodLowering.Proofs.PrologueCode

/-!
# When lowering fails, and with what

Lowering is a chain of steps, each of which may fail. This file says for every callable which of them does.

* `Instruction.Outside` -- an instruction on a slot that the frame does not have, and `FirstOutside`, the first one of a
  body;
* `CodeUnit.verify_eq_invalidLocal`, `CodeUnit.verify_eq_ok` -- what verification finds in a unit that ends in a return;
* `CodeUnit.verify_behind_of_firstOutside`, `CodeUnit.verify_behind_of_inside` -- what it finds in a body behind code
  that stays in the frame: only the body can be at fault;
* `Callable.lower_outcome` -- **the outcomes of lowering, each with its exact condition.**
-/

namespace MethodLowering

/-! ## 1. Slots outside a frame -/

/-- Whether an instruction names a slot that a frame of some size does not have. -/
def Instruction.Outside (frame : Nat) (instruction : Instruction) : Prop :=
  ∃ slot, instruction.localSlot? = some slot ∧ frame ≤ slot.toNat

theorem Instruction.not_outside_iff {maxLocals : UInt16} {instruction : Instruction} :
    ¬instruction.Outside maxLocals.toNat ↔ ∀ slot, instruction.localSlot? = some slot → slot < maxLocals := by
  simp only [Instruction.Outside, not_exists, not_and, Nat.not_le, UInt16.lt_iff_toNat_lt]

/-- **The first instruction of code that is outside a frame**: its index, and the slot it names. -/
structure FirstOutside (frame : Nat) (code : List Instruction) (index : Nat) (slot : UInt16) : Prop where
  names : ∃ instruction, code[index]? = some instruction ∧ instruction.localSlot? = some slot
  outside : frame ≤ slot.toNat
  first : ∀ instruction ∈ code.take index, ¬instruction.Outside frame

/-- Code with an instruction outside a frame has a first one. -/
theorem exists_firstOutside {frame : Nat} {code : List Instruction}
    (h : ∃ instruction ∈ code, instruction.Outside frame) : ∃ index slot, FirstOutside frame code index slot := by
  induction code with
  | nil =>
    obtain ⟨instruction, hmem, _⟩ := h
    cases hmem
  | cons instruction rest ih =>
    by_cases hhead : instruction.Outside frame
    · obtain ⟨slot, hslot, houtside⟩ := hhead
      exact ⟨0, slot, ⟨instruction, rfl, hslot⟩, houtside, nofun⟩
    · have hrest : ∃ other ∈ rest, other.Outside frame := by
        obtain ⟨other, hmem, hother⟩ := h
        rcases List.mem_cons.mp hmem with rfl | hmem
        · exact absurd hother hhead
        · exact ⟨other, hmem, hother⟩
      obtain ⟨index, slot, hnames, houtside, hfirst⟩ := ih hrest
      refine ⟨index + 1, slot, hnames, houtside, fun other hmem => ?_⟩
      rw [List.take_succ_cons] at hmem
      rcases List.mem_cons.mp hmem with rfl | hmem
      · exact hhead
      · exact hfirst other hmem

/-- The code around its first instruction outside a frame. -/
theorem FirstOutside.split {frame : Nat} {code : List Instruction} {index : Nat} {slot : UInt16}
    (h : FirstOutside frame code index slot) :
    ∃ instruction back, instruction.localSlot? = some slot ∧ code = code.take index ++ instruction :: back := by
  obtain ⟨instruction, hget, hslot⟩ := h.names
  obtain ⟨hlt, rfl⟩ := List.getElem?_eq_some_iff.mp hget
  refine ⟨code[index], code.drop (index + 1), hslot, ?_⟩
  rw [← List.drop_eq_getElem_cons hlt, List.take_append_drop]

/-- Code with a first instruction outside a frame has an instruction outside. -/
theorem FirstOutside.exists_outside {frame : Nat} {code : List Instruction} {index : Nat} {slot : UInt16}
    (h : FirstOutside frame code index slot) : ∃ instruction ∈ code, instruction.Outside frame := by
  obtain ⟨instruction, hget, hslot⟩ := h.names
  exact ⟨instruction, List.mem_of_getElem? hget, slot, hslot, h.outside⟩

/-! ## 2. Verification -/

namespace CodeUnit

/-- The check of one instruction finds a fault if and only if it is outside the frame. -/
theorem localFault?_eq_none_iff {maxLocals : UInt16} {instruction : Instruction} {position : Nat} :
    localFault? maxLocals instruction position = none ↔ ¬instruction.Outside maxLocals.toNat := by
  unfold localFault? Instruction.Outside
  cases instruction.localSlot? with
  | none => simp
  | some slot => simp [UInt16.lt_iff_toNat_lt]

/-- No instruction of a piece of code is at fault where none is outside the frame. -/
theorem findSome?_localFault?_eq_none {maxLocals : UInt16} {code : List Instruction} {start : Nat}
    (h : ∀ instruction ∈ code, ¬instruction.Outside maxLocals.toNat) :
    ((code.zipIdx start).findSome? fun (instruction, position) =>
      localFault? maxLocals instruction position) = none := by
  rw [List.findSome?_eq_none_iff]
  rintro ⟨instruction, position⟩ hmem
  exact localFault?_eq_none_iff.mpr (h instruction (List.fst_mem_of_mem_zipIdx hmem))

/-- **Verification finds the first slot outside the frame**, whatever stands behind it. -/
theorem verify_eq_invalidLocal {unit : CodeUnit} {front back : List Instruction} {instruction : Instruction}
    {slot : UInt16} (hcode : unit.instructions = front ++ instruction :: back)
    (hfront : ∀ other ∈ front, ¬other.Outside unit.maxLocals.toNat) (hslot : instruction.localSlot? = some slot)
    (houtside : unit.maxLocals.toNat ≤ slot.toNat) :
    unit.verify = .error (.invalidLocal slot unit.maxLocals front.length) := by
  have hfault : localFault? unit.maxLocals instruction front.length =
      some (.invalidLocal slot unit.maxLocals front.length) := by
    rw [localFault?, hslot]
    exact if_neg fun hlt => Nat.not_le.mpr (UInt16.lt_iff_toNat_lt.mp hlt) houtside
  have hfind : (unit.instructions.zipIdx.findSome? fun (instruction, position) =>
      localFault? unit.maxLocals instruction position) = some (.invalidLocal slot unit.maxLocals front.length) := by
    rw [hcode, List.zipIdx_append, List.findSome?_append, findSome?_localFault?_eq_none hfront, List.zipIdx_cons,
      List.findSome?_cons, Nat.zero_add]
    simp only [hfault, Option.none_or]
  have hne : unit.instructions.getLast? ≠ none := by
    rw [hcode, Ne, List.getLast?_eq_none_iff]
    exact List.append_ne_nil_of_right_ne_nil _ (List.cons_ne_nil _ _)
  obtain ⟨last, hlast⟩ := Option.ne_none_iff_exists'.mp hne
  simp only [verify, hlast, hfind]

/-- **Verification accepts code that stays in its frame and ends in a return.** -/
theorem verify_eq_ok {unit : CodeUnit} (hinside : ∀ instruction ∈ unit.instructions,
    ¬instruction.Outside unit.maxLocals.toNat) (hreturns : unit.instructions.getLast?.any Instruction.isTerminator) :
    unit.verify = .ok () := by
  obtain ⟨last, hlast, hterminator⟩ := (Option.any_eq_true _ _).mp hreturns
  simp only [verify, hlast, findSome?_localFault?_eq_none hinside, hterminator, if_true]

end CodeUnit

/-! ## 3. A body behind other code -/

/-- A completed body ends in a return. -/
theorem Block.complete_returns (body : Block) : body.complete.getLast?.any Instruction.isTerminator := by
  unfold complete
  split
  · assumption
  · rw [List.getLast?_append]
    rfl

/-- Completing a body adds nothing but a null and its return. -/
theorem Block.mem_complete_iff {body : Block} {instruction : Instruction} (hnull : instruction ≠ .pushNull)
    (hreturn : instruction ≠ .returnValue) : instruction ∈ body.complete ↔ instruction ∈ body.instructions := by
  unfold complete
  split
  · rfl
  · simp only [List.mem_append, List.mem_cons, List.not_mem_nil, hnull, hreturn, or_false]

/-- Completing a body adds no instruction on a slot. -/
theorem Block.mem_of_mem_complete {body : Block} {instruction : Instruction} {frame : Nat}
    (houtside : instruction.Outside frame) (h : instruction ∈ body.complete) : instruction ∈ body.instructions := by
  obtain ⟨slot, hslot, _⟩ := houtside
  refine (mem_complete_iff ?_ ?_).mp h
  · rintro rfl
    cases hslot
  · rintro rfl
    cases hslot

/-- Shaping adds no instruction on a slot. -/
theorem ReturnShape.outside_of_mem_apply {shape : ReturnShape} {code : List Instruction} {frame : Nat}
    (h : ∀ instruction ∈ code, ¬instruction.Outside frame) :
    ∀ instruction ∈ shape.apply code, ¬instruction.Outside frame := by
  rintro instruction hmem ⟨slot, hslot, houtside⟩
  exact h instruction (mem_of_mem_apply hslot hmem) ⟨slot, hslot, houtside⟩

/-- A body in shape ends in the return of the shape. -/
theorem ReturnShape.getLast?_apply_complete (shape : ReturnShape) (body : Block) :
    (shape.apply body.complete).getLast? = some shape.exit := by
  have hreturns := body.complete_returns
  rw [← ReturnShape.apply_returns shape] at hreturns
  obtain ⟨last, hlast, hterminator⟩ := (Option.any_eq_true _ _).mp hreturns
  rw [hlast, eq_exit_of_mem_apply (List.mem_of_getLast? hlast) hterminator]

namespace CodeUnit

variable {maxLocals : UInt16} {setup : List Instruction} {shape : ReturnShape} {body : Block}

/-- **Where a body names a slot outside the frame, verification finds the first one**, at the length of what is in front
of the body and of the shaped code in front of the instruction. -/
theorem verify_behind_of_firstOutside (hsetup : ∀ instruction ∈ setup, ¬instruction.Outside maxLocals.toNat)
    {index : Nat} {slot : UInt16} (h : FirstOutside maxLocals.toNat body.instructions index slot) :
    (CodeUnit.mk maxLocals (setup ++ shape.apply body.complete)).verify =
      .error (.invalidLocal slot maxLocals (setup.length + (shape.apply (body.instructions.take index)).length)) := by
  obtain ⟨instruction, back, hslot, hbody⟩ := h.split
  -- the instruction is no return, so shaping splits in front of it and behind it
  have hplain : ∀ rest, shape.apply (instruction :: rest) = instruction :: shape.apply rest := by
    intro rest
    cases instruction with
    | loadLocal | storeLocal => exact ReturnShape.apply_cons fun hfuses => nomatch hfuses.2.1
    | _ => cases hslot
  have hcomplete : ∃ rest, body.complete = body.instructions.take index ++ instruction :: rest := by
    unfold Block.complete
    split
    · exact ⟨back, hbody⟩
    · refine ⟨back ++ [.pushNull, .returnValue], ?_⟩
      rw [← List.cons_append, ← List.append_assoc, ← hbody]
  obtain ⟨rest, hrest⟩ := hcomplete
  have hcode : setup ++ shape.apply body.complete =
      (setup ++ shape.apply (body.instructions.take index)) ++ instruction :: shape.apply rest := by
    rw [hrest, ReturnShape.apply_append, hplain, List.append_assoc]
    rintro ⟨_, _, hhead⟩
    cases hhead
    cases hslot
  rw [verify_eq_invalidLocal hcode ?_ hslot h.outside, List.length_append]
  intro other hother
  rcases List.mem_append.mp hother with hother | hother
  · exact hsetup other hother
  · exact ReturnShape.outside_of_mem_apply h.first other hother

/-- **Where a body stays in the frame, there is no fault.** -/
theorem verify_behind_of_inside (hsetup : ∀ instruction ∈ setup, ¬instruction.Outside maxLocals.toNat)
    (h : ∀ instruction ∈ body.instructions, ¬instruction.Outside maxLocals.toNat) :
    (CodeUnit.mk maxLocals (setup ++ shape.apply body.complete)).verify = .ok () := by
  refine verify_eq_ok (fun instruction hmem => ?_) ?_
  · rcases List.mem_append.mp hmem with hmem | hmem
    · exact hsetup instruction hmem
    · refine ReturnShape.outside_of_mem_apply (fun other hother houtside => ?_) instruction hmem
      exact h other (Block.mem_of_mem_complete houtside hother) houtside
  · show ((setup ++ shape.apply body.complete).getLast?.any Instruction.isTerminator) = true
    rw [List.getLast?_append, shape.getLast?_apply_complete]
    exact shape.isTerminator_exit

/-- Only the body decides whether there is a fault. -/
theorem verify_behind_eq_ok_iff (hsetup : ∀ instruction ∈ setup, ¬instruction.Outside maxLocals.toNat) :
    (CodeUnit.mk maxLocals (setup ++ shape.apply body.complete)).verify = .ok () ↔
      ∀ instruction ∈ body.instructions, ¬instruction.Outside maxLocals.toNat := by
  refine ⟨fun hok instruction hmem houtside => ?_, verify_behind_of_inside hsetup⟩
  obtain ⟨index, slot, hfirst⟩ := exists_firstOutside ⟨instruction, hmem, houtside⟩
  rw [verify_behind_of_firstOutside hsetup hfirst] at hok
  cases hok

/-- A fault is the first slot of the body outside the frame. -/
theorem verify_behind_eq_error_iff (hsetup : ∀ instruction ∈ setup, ¬instruction.Outside maxLocals.toNat)
    {fault : VerifyFault} :
    (CodeUnit.mk maxLocals (setup ++ shape.apply body.complete)).verify = .error fault ↔
      ∃ index slot, FirstOutside maxLocals.toNat body.instructions index slot ∧
        fault = .invalidLocal slot maxLocals (setup.length + (shape.apply (body.instructions.take index)).length) := by
  constructor
  · intro hfault
    by_cases hbody : ∃ instruction ∈ body.instructions, instruction.Outside maxLocals.toNat
    · obtain ⟨index, slot, hfirst⟩ := exists_firstOutside hbody
      rw [verify_behind_of_firstOutside hsetup hfirst] at hfault
      exact ⟨index, slot, hfirst, (Except.error.inj hfault).symm⟩
    · rw [verify_behind_of_inside hsetup fun instruction hmem h => hbody ⟨instruction, hmem, h⟩] at hfault
      cases hfault
  · rintro ⟨index, slot, hfirst, rfl⟩
    exact verify_behind_of_firstOutside hsetup hfirst

end CodeUnit

/-! ## 4. The code of a callable -/

namespace Callable

variable {callable : Callable} {scope : Scope} {target : Target}

/-- The number of instructions in front of the body. -/
def prologueLength (callable : Callable) : Nat :=
  if callable.kind = .entryPoint then 0
  else 4 * (callable.kind.hasReceiver.toNat + callable.visible.size) + if callable.kind = .constructor then 2 else 0

theorem length_setup (hsuper : ¬callable.LacksSuperclass scope) :
    (callable.setup scope target).length = callable.prologueLength := by
  unfold setup Prologue.layout prologueLength
  by_cases hentry : callable.kind = .entryPoint
  · rw [if_pos hentry, if_pos hentry]
    rfl
  · rw [if_neg hentry, if_neg hentry, List.length_append, Prologue.length_moves, Prologue.length_transfers]
    congr 1
    by_cases hkind : callable.kind = .constructor
    · obtain ⟨method, hmethod⟩ := Option.isSome_iff_exists.mp (callable.isSome_initializer? scope target hsuper hkind)
      rw [if_pos hkind, hmethod, hkind]
      rfl
    · rw [if_neg hkind]
      unfold Prologue.superCall
      split
      · exact absurd ‹_› hkind
      · rfl

/-- The prologue stays in the frame. -/
theorem setup_inside (hlimit : callable.frameSize ≤ SlotTable.limit) :
    ∀ instruction ∈ callable.setup scope target, ¬instruction.Outside callable.frameSize := by
  rintro instruction hmem ⟨named, hnamed, houtside⟩
  unfold frameSize SlotTable.frameSize at hlimit houtside
  rcases Prologue.mem_layout hmem with ⟨index, slot, hpair, hmove⟩ | ⟨_, rfl | ⟨method, rfl⟩⟩
  · have hslot := Prologue.slot_of_mem_transfers hlimit hpair
    unfold SlotTable.limit at hlimit
    simp only [Prologue.move, List.mem_cons, List.not_mem_nil, or_false] at hmove
    rcases hmove with rfl | rfl | rfl | rfl
    · cases hnamed
      rw [UInt16.toNat_ofNat_of_lt' (show callable.kind.hasReceiver.toNat < 2 ^ 16 by omega)] at houtside
      omega
    · cases hnamed
    · cases hnamed
    · cases hnamed
      omega
  · cases hnamed
    rw [UInt16.toNat_zero] at houtside
    omega
  · cases hnamed

theorem toNat_maxLocals_code (hlimit : callable.frameSize ≤ SlotTable.limit) :
    (callable.code scope target).maxLocals.toNat = callable.frameSize := by
  unfold SlotTable.limit at hlimit
  exact UInt16.toNat_ofNat_of_lt' (show callable.frameSize < 2 ^ 16 by omega)

theorem setup_inside_code (hlimit : callable.frameSize ≤ SlotTable.limit) :
    ∀ instruction ∈ callable.setup scope target, ¬instruction.Outside (callable.code scope target).maxLocals.toNat := by
  rw [toNat_maxLocals_code hlimit]
  exact setup_inside hlimit

/-- **Where a body names a slot outside the frame, verification finds the first one**, at the length of the prologue and
of the shaped code in front of it. -/
theorem verify_code_of_firstOutside (hlimit : callable.frameSize ≤ SlotTable.limit)
    (hsuper : ¬callable.LacksSuperclass scope) {index : Nat} {slot : UInt16}
    (h : FirstOutside callable.frameSize callable.body.instructions index slot) :
    (callable.code scope target).verify = .error (.invalidLocal slot (UInt16.ofNat callable.frameSize)
      (callable.prologueLength + (callable.returnShape.apply (callable.body.instructions.take index)).length)) := by
  have hmax : (callable.code scope target).maxLocals.toNat = callable.frameSize := toNat_maxLocals_code hlimit
  rw [← hmax] at h
  rw [← length_setup hsuper]
  exact CodeUnit.verify_behind_of_firstOutside (setup_inside_code hlimit) h

/-- Code ends in the return of its shape. -/
theorem getLast?_code : (callable.code scope target).instructions.getLast? = some callable.returnShape.exit := by
  show (callable.setup scope target ++ callable.returnShape.apply callable.body.complete).getLast? = _
  rw [List.getLast?_append, ReturnShape.getLast?_apply_complete]
  rfl

/-- **Where a body stays in the frame, there is no fault.** -/
theorem verify_code_of_inside (hlimit : callable.frameSize ≤ SlotTable.limit)
    (h : ∀ instruction ∈ callable.body.instructions, ¬instruction.Outside callable.frameSize) :
    (callable.code scope target).verify = .ok () := by
  have hmax : (callable.code scope target).maxLocals.toNat = callable.frameSize := toNat_maxLocals_code hlimit
  rw [← hmax] at h
  exact CodeUnit.verify_behind_of_inside (setup_inside_code hlimit) h

/-! ## 5. The outcomes -/

theorem lower_of_overflow (h : SlotTable.limit < callable.frameSize) :
    callable.lower scope target = .error .tooManyLocals := by
  rw [lower_eq, if_pos h]

theorem lower_of_lacksSuperclass (hlimit : callable.frameSize ≤ SlotTable.limit)
    (h : callable.LacksSuperclass scope) :
    callable.lower scope target = .error (.unresolvedSuperclass scope.fullName) := by
  rw [lower_eq, if_neg (Nat.not_lt.mpr hlimit), if_pos h]

theorem lower_of_firstOutside (hlimit : callable.frameSize ≤ SlotTable.limit)
    (hsuper : ¬callable.LacksSuperclass scope) {index : Nat} {slot : UInt16}
    (h : FirstOutside callable.frameSize callable.body.instructions index slot) :
    callable.lower scope target =
      .error (.verification (.invalidLocal slot (UInt16.ofNat callable.frameSize) (callable.prologueLength +
        (callable.returnShape.apply (callable.body.instructions.take index)).length))) := by
  rw [lower_eq, if_neg (Nat.not_lt.mpr hlimit), if_neg hsuper, verify_code_of_firstOutside hlimit hsuper h]

theorem lower_of_inside (hlimit : callable.frameSize ≤ SlotTable.limit) (hsuper : ¬callable.LacksSuperclass scope)
    (h : ∀ instruction ∈ callable.body.instructions, ¬instruction.Outside callable.frameSize) :
    callable.lower scope target = .ok (callable.record scope target) := by
  rw [lower_eq, if_neg (Nat.not_lt.mpr hlimit), if_neg hsuper, verify_code_of_inside hlimit h]

/-- Lowering comes to one of four ends. -/
theorem lower_cases (callable : Callable) (scope : Scope) (target : Target) :
    (SlotTable.limit < callable.frameSize ∧ callable.lower scope target = .error .tooManyLocals) ∨
    (callable.frameSize ≤ SlotTable.limit ∧ callable.LacksSuperclass scope ∧
      callable.lower scope target = .error (.unresolvedSuperclass scope.fullName)) ∨
    (callable.frameSize ≤ SlotTable.limit ∧ ¬callable.LacksSuperclass scope ∧ ∃ index slot,
      FirstOutside callable.frameSize callable.body.instructions index slot ∧
      callable.lower scope target =
        .error (.verification (.invalidLocal slot (UInt16.ofNat callable.frameSize) (callable.prologueLength +
          (callable.returnShape.apply (callable.body.instructions.take index)).length)))) ∨
    (callable.frameSize ≤ SlotTable.limit ∧ ¬callable.LacksSuperclass scope ∧
      (∀ instruction ∈ callable.body.instructions, ¬instruction.Outside callable.frameSize) ∧
      callable.lower scope target = .ok (callable.record scope target)) := by
  by_cases hover : SlotTable.limit < callable.frameSize
  · exact Or.inl ⟨hover, lower_of_overflow hover⟩
  · have hlimit := Nat.le_of_not_lt hover
    right
    by_cases hsuper : callable.LacksSuperclass scope
    · exact Or.inl ⟨hlimit, hsuper, lower_of_lacksSuperclass hlimit hsuper⟩
    · right
      by_cases hbody : ∃ instruction ∈ callable.body.instructions, instruction.Outside callable.frameSize
      · obtain ⟨index, slot, hfirst⟩ := exists_firstOutside hbody
        exact Or.inl ⟨hlimit, hsuper, index, slot, hfirst, lower_of_firstOutside hlimit hsuper hfirst⟩
      · have hinside : ∀ instruction ∈ callable.body.instructions, ¬instruction.Outside callable.frameSize :=
          fun instruction hmem houtside => hbody ⟨instruction, hmem, houtside⟩
        exact Or.inr ⟨hlimit, hsuper, hinside, lower_of_inside hlimit hsuper hinside⟩

theorem lower_eq_tooManyLocals_iff :
    callable.lower scope target = .error .tooManyLocals ↔ SlotTable.limit < callable.frameSize := by
  refine ⟨fun h => ?_, lower_of_overflow⟩
  rcases callable.lower_cases scope target with ⟨hover, _⟩ | ⟨_, _, heq⟩ | ⟨_, _, _, _, _, heq⟩ | ⟨_, _, _, heq⟩
  · exact hover
  · exact nomatch heq.symm.trans h
  · exact nomatch heq.symm.trans h
  · exact nomatch heq.symm.trans h

theorem lower_eq_unresolvedSuperclass_iff :
    callable.lower scope target = .error (.unresolvedSuperclass scope.fullName) ↔
      callable.frameSize ≤ SlotTable.limit ∧ callable.LacksSuperclass scope := by
  refine ⟨fun h => ?_, fun ⟨hlimit, hlacks⟩ => lower_of_lacksSuperclass hlimit hlacks⟩
  rcases callable.lower_cases scope target with ⟨_, heq⟩ | ⟨hlimit, hlacks, _⟩ | ⟨_, _, _, _, _, heq⟩ | ⟨_, _, _, heq⟩
  · exact nomatch heq.symm.trans h
  · exact ⟨hlimit, hlacks⟩
  · exact nomatch heq.symm.trans h
  · exact nomatch heq.symm.trans h

/-- A fault of verification is a slot outside the frame, and names the first one. -/
theorem lower_eq_verification_iff {fault : VerifyFault} :
    callable.lower scope target = .error (.verification fault) ↔
      callable.frameSize ≤ SlotTable.limit ∧ ¬callable.LacksSuperclass scope ∧ ∃ index slot,
        FirstOutside callable.frameSize callable.body.instructions index slot ∧
          fault = .invalidLocal slot (UInt16.ofNat callable.frameSize) (callable.prologueLength +
            (callable.returnShape.apply (callable.body.instructions.take index)).length) := by
  refine ⟨fun h => ?_, ?_⟩
  · rcases callable.lower_cases scope target with
      ⟨_, heq⟩ | ⟨_, _, heq⟩ | ⟨hlimit, hsuper, index, slot, hfirst, heq⟩ | ⟨_, _, _, heq⟩
    · exact nomatch heq.symm.trans h
    · exact nomatch heq.symm.trans h
    · cases heq.symm.trans h
      exact ⟨hlimit, hsuper, index, slot, hfirst, rfl⟩
    · exact nomatch heq.symm.trans h
  · rintro ⟨hlimit, hsuper, index, slot, hfirst, rfl⟩
    exact lower_of_firstOutside hlimit hsuper hfirst

theorem lower_eq_ok_iff {record : MethodRecord} :
    callable.lower scope target = .ok record ↔
      callable.frameSize ≤ SlotTable.limit ∧ ¬callable.LacksSuperclass scope ∧
        (∀ instruction ∈ callable.body.instructions, ¬instruction.Outside callable.frameSize) ∧
        record = callable.record scope target := by
  refine ⟨fun h => ?_, ?_⟩
  · rcases callable.lower_cases scope target with
      ⟨_, heq⟩ | ⟨_, _, heq⟩ | ⟨_, _, _, _, _, heq⟩ | ⟨hlimit, hsuper, hinside, heq⟩
    · exact nomatch heq.symm.trans h
    · exact nomatch heq.symm.trans h
    · exact nomatch heq.symm.trans h
    · exact ⟨hlimit, hsuper, hinside, Except.ok.inj (h.symm.trans heq)⟩
  · rintro ⟨hlimit, hsuper, hinside, rfl⟩
    exact lower_of_inside hlimit hsuper hinside

/-- **The outcomes of lowering, each with its exact condition.** The frame has one slot for the receiver if there is
one, two for the containers and one for each parameter. The conditions exclude each other and leave nothing out, so no
other failure occurs. -/
theorem lower_outcome (callable : Callable) (scope : Scope) (target : Target) :
    let frame := callable.kind.hasReceiver.toNat + 2 + callable.visible.size
    (callable.lower scope target = .error .tooManyLocals ↔ 65535 < frame) ∧
    (callable.lower scope target = .error (.unresolvedSuperclass scope.fullName) ↔
      frame ≤ 65535 ∧ callable.kind = .constructor ∧ scope.superclass = none) ∧
    ((∃ fault, callable.lower scope target = .error (.verification fault)) ↔
      frame ≤ 65535 ∧ ¬(callable.kind = .constructor ∧ scope.superclass = none) ∧
        ∃ instruction ∈ callable.body.instructions, instruction.Outside frame) ∧
    (∀ slot maxLocals position,
      callable.lower scope target = .error (.verification (.invalidLocal slot maxLocals position)) ↔
        frame ≤ 65535 ∧ ¬(callable.kind = .constructor ∧ scope.superclass = none) ∧
        ∃ index, FirstOutside frame callable.body.instructions index slot ∧ maxLocals.toNat = frame ∧
          position = callable.prologueLength +
            (callable.returnShape.apply (callable.body.instructions.take index)).length) ∧
    ((∃ record, callable.lower scope target = .ok record ∧ record.code.maxLocals.toNat = frame ∧
        record.code.verify = .ok ()) ↔
      frame ≤ 65535 ∧ ¬(callable.kind = .constructor ∧ scope.superclass = none) ∧
        ∀ instruction ∈ callable.body.instructions, ¬instruction.Outside frame) := by
  intro frame
  refine ⟨lower_eq_tooManyLocals_iff, lower_eq_unresolvedSuperclass_iff, ⟨?_, ?_⟩,
    fun slot maxLocals position => lower_eq_verification_iff.trans ⟨?_, ?_⟩, ⟨?_, ?_⟩⟩
  · rintro ⟨fault, h⟩
    obtain ⟨hlimit, hsuper, index, slot, hfirst, _⟩ := lower_eq_verification_iff.mp h
    exact ⟨hlimit, hsuper, hfirst.exists_outside⟩
  · rintro ⟨hlimit, hsuper, hbody⟩
    obtain ⟨index, slot, hfirst⟩ := exists_firstOutside hbody
    exact ⟨_, lower_of_firstOutside hlimit hsuper hfirst⟩
  · rintro ⟨hlimit, hsuper, index, _, hfirst, hfault⟩
    cases hfault
    exact ⟨hlimit, hsuper, index, hfirst, UInt16.toNat_ofNat_of_lt' (Nat.lt_succ_of_le hlimit), rfl⟩
  · rintro ⟨hlimit, hsuper, index, hfirst, hmax, rfl⟩
    obtain rfl : UInt16.ofNat frame = maxLocals := by rw [← hmax, UInt16.ofNat_toNat]
    exact ⟨hlimit, hsuper, index, slot, hfirst, rfl⟩
  · rintro ⟨record, h, _⟩
    obtain ⟨hlimit, hsuper, hinside, _⟩ := lower_eq_ok_iff.mp h
    exact ⟨hlimit, hsuper, hinside⟩
  · rintro ⟨hlimit, hsuper, hinside⟩
    exact ⟨_, lower_of_inside hlimit hsuper hinside, toNat_maxLocals_code hlimit, verify_code_of_inside hlimit hinside⟩

end Callable

end MethodLowering
