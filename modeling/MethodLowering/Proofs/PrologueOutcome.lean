import MethodLowering.Proofs.FrameByPosition
import MethodLowering.Proofs.LoweringOutcome

/-!
# Prologues in any frame

A prologue takes its slots from a table that need not have been made for it. This file says for every table behind any
run of reservations when there is code, and what verification finds in that code.

* `SlotTable.Coherent.length_le_of_named` -- names that have slots are no more than the slots;
* `Preparation` -- code that stays in a frame and leaves the returns behind it as they are;
* `Prologue.Delivers` -- a step with a condition, without which it is at fault itself, and how steps go together
  (`Prologue.Delivers.bind`);
* `Prologue.Equipped` -- the condition of a prologue: it finds all that it looks up (`Prologue.delivers_unpack`);
* `Prologue.generate_exact` -- **when there is code, and what verification finds in it.**
-/

namespace MethodLowering

/-! ## 1. What a table can hold -/

/-- Different names that have slots are no more than the slots. -/
theorem SlotTable.Coherent.length_le_of_named {table : SlotTable} (h : table.Coherent) {names : List String}
    (hnodup : names.Nodup) (hnamed : ∀ name ∈ names, table.slot? (.named name) ≠ none) :
    names.length ≤ table.size := by
  have hsubset : names.map SlotRole.named ⊆ table.roles.toList := by
    intro role hrole
    obtain ⟨name, hname, rfl⟩ := List.mem_map.mp hrole
    rw [Array.mem_toList_iff]
    exact Classical.byContradiction fun hnew => hnamed name hname ((h.slot?_eq_none_iff _).mpr hnew)
  have hle := (nodup_map_named hnodup).length_le_of_subset hsubset
  rw [List.length_map, Array.length_toList] at hle
  exact hle

/-- A slot that is found is in the frame. -/
theorem SlotTable.Coherent.slot_lt {table : SlotTable} (h : table.Coherent) {role : SlotRole} {slot : UInt16}
    (hslot : table.slot? role = some slot) : slot.toNat < table.size :=
  (Array.getElem?_eq_some_iff.mp ((h.slot_iff role slot).mp hslot)).1

/-! ## 2. Code that prepares -/

/-- Whether an instruction runs in a frame of some size, is no return, and does not look like part of one. -/
structure Instruction.Prepares (frame : Nat) (instruction : Instruction) : Prop where
  inside : ¬instruction.Outside frame
  no_return : ¬instruction.isTerminator
  ne_pushNull : instruction ≠ .pushNull

namespace Instruction.Prepares

variable {frame : Nat} {instruction : Instruction}

theorem of_slot {slot : UInt16} (hinstruction : instruction.localSlot? = some slot) (hslot : slot.toNat < frame)
    (hreturn : ¬instruction.isTerminator) : instruction.Prepares frame where
  inside := by
    rintro ⟨other, hother, hle⟩
    obtain rfl : slot = other := Option.some.inj (hinstruction.symm.trans hother)
    exact Nat.not_le.mpr hslot hle
  no_return := hreturn
  ne_pushNull := by
    rintro rfl
    cases hinstruction

theorem of_none (hinstruction : instruction.localSlot? = none) (hreturn : ¬instruction.isTerminator)
    (hnull : instruction ≠ .pushNull) : instruction.Prepares frame where
  inside := by
    rintro ⟨slot, hslot, _⟩
    cases hinstruction.symm.trans hslot
  no_return := hreturn
  ne_pushNull := hnull

end Instruction.Prepares

/-- **Code that only prepares**: it stays in the frame, and leaves the returns behind it as they are. -/
def Preparation (frame : Nat) (code : List Instruction) : Prop :=
  ∀ instruction ∈ code, instruction.Prepares frame

theorem Preparation.append {frame : Nat} {first second : List Instruction} (hfirst : Preparation frame first)
    (hsecond : Preparation frame second) : Preparation frame (first ++ second) :=
  List.forall_mem_append.mpr ⟨hfirst, hsecond⟩

/-- Returns take their shape behind such code as they would by themselves. -/
theorem Preparation.apply_append {frame : Nat} {setup : List Instruction} (h : Preparation frame setup)
    (shape : ReturnShape) (code : List Instruction) : shape.apply (setup ++ code) = setup ++ shape.apply code := by
  refine ReturnShape.apply_append_of_plain (fun instruction hmem => (h instruction hmem).no_return) fun hlast => ?_
  exact (h _ (List.mem_of_getLast? hlast)).ne_pushNull rfl

namespace Prologue

variable {prologue : Prologue} {container : UInt16}

/-- A move between slots of a frame only prepares. -/
theorem preparation_move {frame index : Nat} {slot : UInt16} (hcontainer : container.toNat < frame)
    (hslot : slot.toNat < frame) : Preparation frame (move container index slot) := by
  intro instruction hmem
  simp only [move, List.mem_cons, List.not_mem_nil, or_false] at hmem
  rcases hmem with rfl | rfl | rfl | rfl
  · exact .of_slot rfl hcontainer Bool.false_ne_true
  · exact .of_none rfl Bool.false_ne_true Instruction.noConfusion
  · exact .of_none rfl Bool.false_ne_true Instruction.noConfusion
  · exact .of_slot rfl hslot Bool.false_ne_true

/-! ## 3. The steps of unpacking -/

/-- **A step gives a good result where its condition holds, and elsewhere is at fault itself.** -/
def Delivers {α : Type} (condition : Prop) (good : α → Prop) (step : Except LoweringError α) : Prop :=
  (condition ∧ ∃ result, step = .ok result ∧ good result) ∨ (¬condition ∧ ∃ fault, step = .error (.internal fault))

namespace Delivers

variable {α β : Type} {first second : Prop} {good : α → Prop} {fine : β → Prop} {step : Except LoweringError α}

/-- Two steps in a row are a step under both conditions. -/
theorem bind {rest : α → Except LoweringError β} (h : Delivers first good step)
    (hrest : first → ∀ result, good result → Delivers second fine (rest result)) :
    Delivers (first ∧ second) fine (step >>= rest) := by
  rcases h with ⟨hfirst, result, rfl, hgood⟩ | ⟨hfirst, fault, rfl⟩
  · rcases hrest hfirst result hgood with ⟨hsecond, hok⟩ | ⟨hsecond, herror⟩
    · exact Or.inl ⟨⟨hfirst, hsecond⟩, hok⟩
    · exact Or.inr ⟨fun hboth => hsecond hboth.2, herror⟩
  · exact Or.inr ⟨fun hboth => hfirst hboth.1, fault, rfl⟩

/-- What is made of a good result is under the condition of the result. -/
theorem map {make : α → β} (h : Delivers first good step) (hmake : ∀ result, good result → fine (make result)) :
    Delivers first fine (step >>= fun result => pure (make result)) := by
  rcases h with ⟨hfirst, result, rfl, hgood⟩ | ⟨hfirst, fault, rfl⟩
  · exact Or.inl ⟨hfirst, _, rfl, hmake result hgood⟩
  · exact Or.inr ⟨hfirst, fault, rfl⟩

theorem of_iff (h : Delivers first good step) (hiff : first ↔ second) : Delivers second good step :=
  propext hiff ▸ h

theorem isOk_iff (h : Delivers first good step) : (∃ result, step = .ok result) ↔ first := by
  rcases h with ⟨hfirst, result, rfl, _⟩ | ⟨hfirst, fault, rfl⟩
  · exact iff_of_true ⟨result, rfl⟩ hfirst
  · refine iff_of_false ?_ hfirst
    rintro ⟨_, hok⟩
    cases hok

theorem internal_iff (h : Delivers first good step) : (∃ fault, step = .error (.internal fault)) ↔ ¬first := by
  rcases h with ⟨hfirst, result, rfl, _⟩ | ⟨hfirst, fault, rfl⟩
  · refine iff_of_false ?_ fun hnot => hnot hfirst
    rintro ⟨_, herror⟩
    cases herror
  · exact iff_of_true ⟨fault, rfl⟩ hfirst

theorem good_of_ok (h : Delivers first good step) {result : α} (hok : step = .ok result) : good result := by
  rcases h with ⟨_, other, rfl, hgood⟩ | ⟨_, fault, rfl⟩
  · cases hok
    exact hgood
  · cases hok

end Delivers

theorem delivers_unpackReceiver (h : prologue.slots.Coherent) (hcontainer : container.toNat < prologue.slots.size) :
    Delivers (prologue.kind.hasReceiver → prologue.slots.slot? .receiver ≠ none) (Preparation prologue.slots.size)
      (prologue.unpackReceiver container) := by
  unfold unpackReceiver
  by_cases hreceiver : prologue.kind.hasReceiver = true
  · rw [if_pos hreceiver, receiverSlot]
    cases hslot : prologue.slots.slot? .receiver with
    | none => exact Or.inr ⟨fun hne => hne hreceiver rfl, .noReceiverSlot, rfl⟩
    | some slot => exact Or.inl ⟨fun _ => Option.some_ne_none _, _, rfl, preparation_move hcontainer (h.slot_lt hslot)⟩
  · rw [if_neg hreceiver]
    exact Or.inl ⟨fun h => absurd h hreceiver, [], rfl, List.forall_mem_nil _⟩

/-- A parameter that has a slot is unpacked from any position within the limit. -/
theorem unpackParameter_of_named {parameter : Parameter} {position : Nat}
    (hnamed : prologue.slots.slot? (.named parameter.name) ≠ none) (hposition : position < SlotTable.limit) :
    prologue.unpackParameter container parameter position =
      .ok (move container position ((prologue.slots.slot? (.named parameter.name)).getD 0)) := by
  unfold SlotTable.limit at hposition
  obtain ⟨slot, hslot⟩ := Option.ne_none_iff_exists'.mp hnamed
  rw [unpackParameter, hslot]
  exact if_pos (show position < 2147483648 by omega)

/-- Different parameters that all have slots are unpacked, each from its position. -/
theorem unpackParameters_of_named (h : prologue.slots.Coherent) {parameters : List Parameter}
    (hnodup : (parameters.map Parameter.name).Nodup)
    (hnamed : ∀ parameter ∈ parameters, prologue.slots.slot? (.named parameter.name) ≠ none) :
    (parameters.zipIdx.mapM fun (parameter, position) => prologue.unpackParameter container parameter position) =
      .ok (parameters.zipIdx.map fun item =>
        move container item.2 ((prologue.slots.slot? (.named item.1.name)).getD 0)) := by
  -- there are no more of them than slots, so every position is a constant
  have hlength : parameters.length ≤ SlotTable.limit := by
    have hle := h.length_le_of_named hnodup (List.forall_mem_map.mpr hnamed)
    rw [List.length_map] at hle
    exact Nat.le_trans hle h.size_le
  refine mapM_eq_ok fun item hitem => ?_
  have hget := List.mem_zipIdx_iff_getElem?.mp hitem
  have hlt := (List.getElem?_eq_some_iff.mp hget).1
  exact unpackParameter_of_named (hnamed item.1 (List.mem_of_getElem? hget)) (Nat.lt_of_lt_of_le hlt hlength)

theorem delivers_unpackParameters (h : prologue.slots.Coherent) (hcontainer : container.toNat < prologue.slots.size) :
    Delivers (∀ parameter ∈ prologue.parameters.toList, prologue.slots.slot? (.named parameter.name) ≠ none)
      (fun pieces => Preparation prologue.slots.size pieces.flatten)
      (prologue.parameters.toList.zipIdx.mapM fun (parameter, position) =>
        prologue.unpackParameter container parameter position) := by
  have hnodup : (prologue.parameters.toList.map Parameter.name).Nodup :=
    List.pairwise_map.mpr prologue.parameters.wellOrdered.distinct
  rcases forall_or_first (fun parameter => prologue.slots.slot? (.named parameter.name) ≠ none)
    prologue.parameters.toList with hnamed | ⟨front, parameter, back, hlist, hfront, hnone⟩
  · refine Or.inl ⟨hnamed, _, unpackParameters_of_named h hnodup hnamed, fun instruction hmem => ?_⟩
    obtain ⟨piece, hpiece, hinstruction⟩ := List.mem_flatten.mp hmem
    obtain ⟨item, hitem, rfl⟩ := List.mem_map.mp hpiece
    obtain ⟨slot, hslot⟩ := Option.ne_none_iff_exists'.mp (hnamed item.1 (List.fst_mem_of_mem_zipIdx hitem))
    rw [hslot] at hinstruction
    exact preparation_move hcontainer (h.slot_lt hslot) instruction hinstruction
  · -- those in front are unpacked, and then the first one without a slot is the fault
    have hfault : ∀ position, prologue.unpackParameter container parameter position =
        .error (.internal (.noParameterSlot parameter.name)) := by
      intro position
      rw [unpackParameter, Classical.not_not.mp hnone]
    rw [hlist, List.map_append] at hnodup
    refine Or.inr ⟨fun hall => hnone (hall parameter (by rw [hlist]; exact List.mem_append_cons_self)),
      .noParameterSlot parameter.name, ?_⟩
    rw [hlist, List.zipIdx_append, List.mapM_append,
      unpackParameters_of_named h (List.nodup_append.mp hnodup).1 hfront, List.zipIdx_cons, List.mapM_cons]
    simp only [hfault]
    rfl

/-- The initializer is called on a receiver that was unpacked before. -/
theorem delivers_initializeSuper (h : prologue.slots.Coherent)
    (hreceiver : prologue.kind.hasReceiver → prologue.slots.slot? .receiver ≠ none) (initializer : Option MethodRef) :
    Delivers (prologue.kind = .constructor → initializer ≠ none) (Preparation prologue.slots.size)
      (prologue.initializeSuper initializer) := by
  unfold initializeSuper
  by_cases hkind : prologue.kind = .constructor
  · rw [if_pos hkind, receiverSlot]
    obtain ⟨slot, hslot⟩ := Option.ne_none_iff_exists'.mp (hreceiver (by rw [hkind]; rfl))
    cases initializer with
    | none => exact Or.inr ⟨fun hne => hne hkind rfl, .noInitializer, rfl⟩
    | some method =>
      refine Or.inl ⟨fun _ => Option.some_ne_none _, [.loadLocal slot, .invokeSpecial method], by rw [hslot]; rfl, ?_⟩
      intro instruction hmem
      simp only [List.mem_cons, List.not_mem_nil, or_false] at hmem
      rcases hmem with rfl | rfl
      · exact .of_slot rfl (h.slot_lt hslot) Bool.false_ne_true
      · exact .of_none rfl Bool.false_ne_true Instruction.noConfusion
  · rw [if_neg hkind]
    exact Or.inl ⟨fun h => absurd h hkind, [], rfl, List.forall_mem_nil _⟩

/-! ## 4. Unpacking, and the code -/

/-- **Whether a prologue finds all that it looks up.** -/
structure Equipped (prologue : Prologue) (initializer : Option MethodRef) : Prop where
  /-- The container has a slot. -/
  container : prologue.slots.slot? .positionalArgs ≠ none
  /-- The receiver has one, where there is a receiver. -/
  receiver : prologue.kind.hasReceiver → prologue.slots.slot? .receiver ≠ none
  /-- All parameters have slots. -/
  named : ∀ parameter ∈ prologue.parameters.toList, prologue.slots.slot? (.named parameter.name) ≠ none
  /-- A constructor has an initializer to call. -/
  initializer : prologue.kind = .constructor → initializer ≠ none

/-- **Unpacking gives code that stays in the frame if the prologue finds all that it looks up, or has nothing to look
up, and otherwise is at fault itself.** -/
theorem delivers_unpack (h : prologue.slots.Coherent) (initializer : Option MethodRef) :
    Delivers (prologue.kind = .entryPoint ∨ prologue.Equipped initializer) (Preparation prologue.slots.size)
      (prologue.unpack initializer) := by
  unfold unpack
  by_cases hentry : prologue.kind = .entryPoint
  · rw [if_pos hentry]
    exact Or.inl ⟨Or.inl hentry, [], rfl, List.forall_mem_nil _⟩
  · rw [if_neg hentry]
    cases hslot : prologue.slots.slot? .positionalArgs with
    | none =>
      refine Or.inr ⟨?_, .noContainerSlot, rfl⟩
      rintro (hkind | hequipped)
      · exact hentry hkind
      · exact hequipped.container hslot
    | some container =>
      have hcontainer := h.slot_lt hslot
      have hsteps := (delivers_unpackReceiver h hcontainer).bind fun hreceiver receiver hfirst =>
        (delivers_unpackParameters h hcontainer).bind fun _ pieces hsecond =>
          (delivers_initializeSuper h hreceiver initializer).map fun super hthird =>
            (hfirst.append hsecond).append hthird
      refine hsteps.of_iff ⟨?_, ?_⟩
      · rintro ⟨hreceiver, hnamed, hinit⟩
        exact Or.inr ⟨hslot ▸ Option.some_ne_none _, hreceiver, hnamed, hinit⟩
      · rintro (hkind | hequipped)
        · exact absurd hkind hentry
        · exact ⟨hequipped.receiver, hequipped.named, hequipped.initializer⟩

/-- Generation is a step under the condition of unpacking: its code is the prologue, and behind it the completed body
with its returns in shape. -/
theorem delivers_generate (prologue : Prologue) (h : prologue.slots.Coherent) (body : Block) (shape : ReturnShape)
    (initializer : Option MethodRef) :
    Delivers (prologue.kind = .entryPoint ∨ prologue.Equipped initializer)
      (fun code => ∃ setup, prologue.unpack initializer = .ok setup ∧ Preparation prologue.slots.size setup ∧
        code = ⟨prologue.slots.maxLocals, setup ++ shape.apply body.complete⟩)
      (prologue.generate body shape initializer) := by
  unfold generate
  rcases delivers_unpack h initializer with ⟨hfinds, setup, hunpack, hsetup⟩ | ⟨hlacks, fault, hunpack⟩
  · rw [hunpack]
    exact Or.inl ⟨hfinds, _, rfl, setup, rfl, hsetup, by rw [hsetup.apply_append]⟩
  · rw [hunpack]
    exact Or.inr ⟨hlacks, fault, rfl⟩

/-- **When there is code, and what verification finds in it, in every frame.** There is code for an entry point, and
otherwise if and only if the prologue finds all that it looks up; if not, the fault is internal. Code is accepted if and
only if every slot that the body names is in the frame. A fault is the first slot of the body that is not, at its place
behind the prologue, so nothing that the prologue or the shape of the returns adds is ever at fault. -/
theorem generate_exact (calls : List SlotRole) (kind : CallableKind) (parameters : ParameterList)
    (body : Block) (shape : ReturnShape) (initializer : Option MethodRef) :
    let table := SlotTable.reserveEach calls {}
    let prologue : Prologue := ⟨kind, table, parameters⟩
    ((∃ code, prologue.generate body shape initializer = .ok code) ↔
      kind = .entryPoint ∨ prologue.Equipped initializer) ∧
    ((∃ fault, prologue.generate body shape initializer = .error (.internal fault)) ↔
      ¬(kind = .entryPoint ∨ prologue.Equipped initializer)) ∧
    ∀ code, prologue.generate body shape initializer = .ok code →
      (code.verify = .ok () ↔ ∀ instruction ∈ body.instructions, ∀ slot,
        instruction.localSlot? = some slot → slot < table.maxLocals) ∧
      ∃ setup, prologue.unpack initializer = .ok setup ∧ ∀ fault, code.verify = .error fault ↔
        ∃ index slot, FirstOutside table.size body.instructions index slot ∧
          fault = .invalidLocal slot table.maxLocals
            (setup.length + (shape.apply (body.instructions.take index)).length) := by
  intro table prologue
  have htable : table.Coherent := SlotTable.coherent_empty.reserveEach calls
  have hmax : table.maxLocals.toNat = table.size := htable.toNat_ofNat (Nat.le_refl _)
  have hgenerate := prologue.delivers_generate htable body shape initializer
  refine ⟨hgenerate.isOk_iff, hgenerate.internal_iff, fun code hcode => ?_⟩
  obtain ⟨setup, hunpack, hsetup, rfl⟩ := hgenerate.good_of_ok hcode
  have hinside : ∀ instruction ∈ setup, ¬instruction.Outside table.maxLocals.toNat := by
    intro instruction hmem
    rw [hmax]
    exact (hsetup instruction hmem).inside
  refine ⟨?_, setup, hunpack, fun fault => ?_⟩
  · simp only [← Instruction.not_outside_iff]
    exact CodeUnit.verify_behind_eq_ok_iff hinside
  · rw [← hmax]
    exact CodeUnit.verify_behind_eq_error_iff hinside

/-- Reservations in an order that no frame has, one of them twice. -/
def oddCalls : List SlotRole :=
  [.named "x", .receiver, .named "x", .keywordArgs, .positionalArgs]

/-- The prologue of a constructor in the frame of these reservations. -/
def oddPrologue : Prologue :=
  ⟨.constructor, SlotTable.reserveEach oddCalls {}, .positionals ["x"] (List.pairwise_singleton _ _)⟩

theorem toList_roles_oddPrologue :
    oddPrologue.slots.roles.toList = [.named "x", .receiver, .keywordArgs, .positionalArgs] :=
  (SlotTable.coherent_empty.toList_roles_reserveEach oddCalls).trans (by decide)

theorem equipped_oddPrologue (method : MethodRef) : oddPrologue.Equipped (some method) := by
  have hfound : ∀ role ∈ oddPrologue.slots.roles.toList, oddPrologue.slots.slot? role ≠ none := by
    intro role hrole hnone
    exact ((SlotTable.coherent_empty.reserveEach oddCalls).slot?_eq_none_iff role).mp hnone
      (Array.mem_toList_iff.mp hrole)
  rw [toList_roles_oddPrologue] at hfound
  refine ⟨hfound _ (by decide), fun _ => hfound _ (by decide), fun parameter hmem => ?_, fun _ => Option.some_ne_none _⟩
  obtain rfl : parameter = .positional "x" := List.mem_singleton.mp hmem
  exact hfound _ (by decide)

/-- In this frame a body may name slot 3, but not slot 4, and a constructor needs its initializer. -/
theorem generate_exact_oddPrologue :
    (∃ code, oddPrologue.generate ⟨[.loadLocal 3]⟩ .noValue (some ⟨"P", "<init>", "()V"⟩) = .ok code ∧
      code.verify = .ok ()) ∧
    (∃ code position, oddPrologue.generate ⟨[.loadLocal 3, .storeLocal 4]⟩ .noValue (some ⟨"P", "<init>", "()V"⟩) =
        .ok code ∧ code.verify = .error (.invalidLocal 4 4 position)) ∧
    ∃ fault, oddPrologue.generate ⟨[]⟩ .noValue none = .error (.internal fault) := by
  have hequipped := equipped_oddPrologue ⟨"P", "<init>", "()V"⟩
  have hsize : oddPrologue.slots.size = 4 := congrArg List.length toList_roles_oddPrologue
  have hmax : oddPrologue.slots.maxLocals = 4 := by rw [SlotTable.maxLocals, hsize]; rfl
  obtain ⟨hok, _, hverify⟩ := generate_exact oddCalls .constructor oddPrologue.parameters ⟨[.loadLocal 3]⟩ .noValue
    (some ⟨"P", "<init>", "()V"⟩)
  obtain ⟨hok', _, hverify'⟩ := generate_exact oddCalls .constructor oddPrologue.parameters
    ⟨[.loadLocal 3, .storeLocal 4]⟩ .noValue (some ⟨"P", "<init>", "()V"⟩)
  obtain ⟨_, hinternal, _⟩ := generate_exact oddCalls .constructor oddPrologue.parameters ⟨[]⟩ .noValue none
  refine ⟨?_, ?_, hinternal.mpr ?_⟩
  · obtain ⟨code, hcode⟩ := hok.mpr (Or.inr hequipped)
    refine ⟨code, hcode, (hverify code hcode).1.mpr fun instruction hmem slot hslot => ?_⟩
    obtain rfl : instruction = .loadLocal 3 := List.mem_singleton.mp hmem
    cases hslot
    exact hmax ▸ (by decide : (3 : UInt16) < 4)
  · obtain ⟨code, hcode⟩ := hok'.mpr (Or.inr hequipped)
    obtain ⟨_, setup, _, hfault⟩ := hverify' code hcode
    have hfirst : FirstOutside 4 [.loadLocal 3, .storeLocal 4] 1 4 := by
      refine ⟨⟨_, rfl, rfl⟩, Nat.le_refl _, ?_⟩
      rintro instruction hmem ⟨slot, hslot, hle⟩
      obtain rfl : instruction = .loadLocal 3 := List.mem_singleton.mp hmem
      cases hslot
      exact absurd hle (by decide)
    exact ⟨code, _, hcode, hmax ▸ (hfault _).mpr ⟨1, 4, hsize ▸ hfirst, rfl⟩⟩
  · rintro (hkind | hother)
    · cases hkind
    · exact hother.initializer rfl rfl

end Prologue

end MethodLowering
