import MethodLowering.Proofs.LoweringMeaning

/-!
# How arguments reach the body of a method

A method begins in a frame that its caller has filled: the receiver in local 0 unless the method is static, then the
arguments that its descriptor names. The code of the method was laid out without a look at this. Where the flag of the
method is that of its kind, the two agree, and the parameters hold the elements of the container when the body begins.
A flag that was chosen otherwise shifts the arguments by one local, and the code takes something else for the container.
An entry point has its arguments in the slot of the container, and nothing in the slot of its parameter.

* `Callable.Built` -- callables as they are made;
* `MethodRecord.entryFrame`, `Callable.ReachesBody` -- the frame in which a method begins, and how its body is reached;
* `Callable.parametersHold_of_run_setup`, `Callable.run_setup_ne_passes`, `Callable.run_setup_entryPoint` -- what a
  prologue makes of its container, of something else in its place, and of the frame of an entry point;
* `Callable.argument_delivery` -- **where the frame agrees with the code.**
-/

namespace MethodLowering

variable {host : Host}

/-! ## 1. Callables as they are made -/

namespace Callable

/-- A callable that is made by kind, and whose flag is chosen any number of times. -/
inductive Built : Callable → Prop
  | function (name : String) (parameters : ParameterList) (returns : Option TypeHint) (body : Block) :
      Built (.function name parameters returns body)
  | instanceMethod {name : String} {parameters : ParameterList} {returns : Option TypeHint} {body : Block}
      {callable : Callable} (h : Callable.instanceMethod name parameters returns body = .ok callable) : Built callable
  | constructor {parameters : ParameterList} {body : Block} {callable : Callable}
      (h : Callable.constructor parameters body = .ok callable) : Built callable
  | entryPoint (body : Block) : Built (.entryPoint body)
  | withStatic {callable : Callable} (h : Built callable) (isStatic : Bool) : Built (callable.withStatic isStatic)

theorem of_withReceiver {name : String} {kind : CallableKind} {parameters : ParameterList} {returns : Option TypeHint}
    {body : Block} {callable : Callable} (h : withReceiver name kind parameters returns body = .ok callable) :
    callable.kind = kind ∧ callable.isStatic = false := by
  unfold withReceiver at h
  split at h
  · cases h
    exact ⟨rfl, rfl⟩
  · cases h

/-- What choosing a flag leaves of a callable. -/
theorem withStatic_cases (callable : Callable) (isStatic : Bool) :
    callable.withStatic isStatic = callable ∨
      (callable.kind ≠ .constructor ∧ callable.kind ≠ .entryPoint ∧
        callable.withStatic isStatic = { callable with isStatic }) := by
  unfold withStatic
  cases hkind : callable.kind with
  | function => exact Or.inr ⟨nofun, nofun, rfl⟩
  | instanceMethod => exact Or.inr ⟨nofun, nofun, rfl⟩
  | constructor => exact Or.inl rfl
  | entryPoint => exact Or.inl rfl

variable {callable : Callable}

/-- A constructor is never static. -/
theorem Built.isStatic_constructor (h : callable.Built) (hkind : callable.kind = .constructor) :
    callable.isStatic = false := by
  induction h with
  | function name parameters returns body => cases hkind
  | instanceMethod h => exact (of_withReceiver h).2
  | constructor h => exact (of_withReceiver h).2
  | entryPoint body => cases hkind
  | @withStatic callable h isStatic ih =>
    rcases withStatic_cases callable isStatic with heq | ⟨hconstructor, _, heq⟩
    · rw [heq] at hkind ⊢
      exact ih hkind
    · rw [heq] at hkind
      exact absurd hkind hconstructor

/-- An entry point is always static, and has one parameter. -/
theorem Built.entryPoint_eq (h : callable.Built) (hkind : callable.kind = .entryPoint) :
    callable.isStatic = true ∧ callable.visible = .single "args" .argv := by
  induction h with
  | function name parameters returns body => cases hkind
  | instanceMethod h =>
    rw [(of_withReceiver h).1] at hkind
    cases hkind
  | constructor h =>
    rw [(of_withReceiver h).1] at hkind
    cases hkind
  | entryPoint body => exact ⟨rfl, rfl⟩
  | @withStatic callable h isStatic ih =>
    rcases withStatic_cases callable isStatic with heq | ⟨_, hentry, heq⟩
    · rw [heq] at hkind ⊢
      exact ih hkind
    · rw [heq] at hkind
      exact absurd hkind hentry

/-- Whatever was chosen, a constructor has the flag of its kind: it has a receiver and is not static. -/
theorem Built.flag_eq (h : callable.Built)
    (hkind : callable.kind = .constructor ∨
      callable.kind ≠ .entryPoint ∧ callable.isStatic = !callable.kind.hasReceiver) :
    callable.kind ≠ .entryPoint ∧ callable.isStatic = !callable.kind.hasReceiver := by
  rcases hkind with hconstructor | hother
  · rw [h.isStatic_constructor hconstructor, hconstructor]
    exact ⟨CallableKind.noConfusion, rfl⟩
  · exact hother

/-- A flag that is not that of the kind was chosen, so the callable is no entry point. -/
theorem Built.ne_entryPoint (h : callable.Built) (hflag : callable.isStatic = callable.kind.hasReceiver) :
    callable.kind ≠ .entryPoint := by
  intro hkind
  rw [(h.entryPoint_eq hkind).1, hkind] at hflag
  exact Bool.noConfusion hflag

end Callable

/-! ## 2. The frame of a call, and the way to the body -/

/-- **The frame in which a method begins**: the receiver, unless the method is static, and the arguments from there on;
no other local holds anything. -/
def MethodRecord.entryFrame (record : MethodRecord) (receiver : Word host.Object) (arguments : List (Word host.Object))
    (world : host.World) : State host where
  locals slot := ((if record.isStatic then [] else [receiver]) ++ arguments)[slot.toNat]?
  stack := []
  world := world

namespace Callable

/-- From a frame, the code of a method comes to the first instruction of the body. -/
def ReachesBody (callable : Callable) (record : MethodRecord) (before after : State host) : Prop :=
  ∃ front, record.code.instructions = front ++ callable.returnShape.apply callable.body.complete ∧
    host.run front before = .passes after

/-- Each parameter has a slot, which holds the element at its position. -/
def ParametersHold (callable : Callable) (slots : SlotTable) (elements : List (Word host.Object))
    (locals : host.Locals) : Prop :=
  ∀ (position : Nat) (parameter : Parameter), callable.visible.toList[position]? = some parameter →
    ∃ slot word, slots.slot? (.named parameter.name) = some slot ∧ elements[position]? = some word ∧
      locals slot = some word

variable {callable : Callable} {scope : Scope} {target : Target} {record : MethodRecord}

/-- What stands in front of the body is the prologue. -/
theorem reachesBody_iff (hlower : callable.lower scope target = .ok record) {before after : State host} :
    callable.ReachesBody record before after ↔ host.run (callable.setup scope target) before = .passes after := by
  obtain ⟨_, _, _, rfl⟩ := lower_eq_ok_iff.mp hlower
  constructor
  · intro h
    obtain ⟨front, hcode, hrun⟩ := h
    have hfront : callable.setup scope target = front := List.append_cancel_right hcode
    rwa [hfront]
  · intro h
    exact ⟨callable.setup scope target, rfl, h⟩

end Callable

theorem Ending.andThen_eq_passes {ending : Ending host} {next : State host → Ending host} {after : State host}
    (h : ending.andThen next = .passes after) : ∃ middle, ending = .passes middle ∧ next middle = .passes after := by
  cases ending with
  | passes middle => exact ⟨middle, rfl, h⟩
  | returned value state => cases h
  | stuck state => cases h

namespace Prologue

variable {state after : State host} {container : UInt16}

/-- A move whose container has no such element, or is no array, does not pass. -/
theorem run_move_ne_passes {index : Nat} (slot : UInt16) (hlimit : index < SlotTable.limit)
    (h : ∀ array elements, state.locals container = some (.object array) →
      host.elements state.world array = some elements → elements.length ≤ index) :
    host.run (move container index slot) state ≠ .passes after := by
  unfold SlotTable.limit at hlimit
  have hint : (Int32.ofNat index).toInt = .ofNat index := Int32.toInt_ofNat_of_lt (by omega)
  cases hlocal : state.locals container with
  | none => simp [move, Host.exec, hlocal, Ending.andThen]
  | some word =>
    cases word with
    | null => simp [move, Host.exec, hlocal, Ending.andThen]
    | int value => simp [move, Host.exec, hlocal, Ending.andThen]
    | object array =>
      have helement : host.element? state.world array (Int32.ofNat index) = none := by
        rw [Host.element?, hint]
        cases helements : host.elements state.world array with
        | none => rfl
        | some elements => exact List.getElem?_eq_none (h array elements hlocal helements)
      simp [move, Host.exec, hlocal, Ending.andThen, helement]

/-- Moves that pass have found an element each. -/
theorem lt_length_of_run_moves {array : host.Object} {elements : List (Word host.Object)} {pairs : List (Nat × UInt16)}
    (hcontainer : state.locals container = some (.object array))
    (helements : host.elements state.world array = some elements)
    (hpairs : ∀ pair ∈ pairs, pair.1 < SlotTable.limit ∧ pair.2 ≠ container)
    (h : host.run (pairs.flatMap fun (index, slot) => move container index slot) state = .passes after) :
    ∀ pair ∈ pairs, pair.1 < elements.length := by
  induction pairs generalizing state with
  | nil => nofun
  | cons pair rest ih =>
    obtain ⟨index, slot⟩ := pair
    obtain ⟨hlimit, hslot⟩ := hpairs (index, slot) List.mem_cons_self
    rw [List.flatMap_cons, Host.run_append] at h
    obtain ⟨middle, hmove, hrest⟩ := Ending.andThen_eq_passes h
    have hindex : index < elements.length := by
      refine Nat.lt_of_not_le fun hle => run_move_ne_passes slot hlimit (fun other found hother hfound => ?_) hmove
      rw [hcontainer] at hother
      cases hother
      rw [helements] at hfound
      cases hfound
      exact hle
    rw [run_move hcontainer helements hindex hlimit] at hmove
    cases hmove
    have hkept : State.locals { state with locals := Function.update state.locals slot elements[index]? } container =
        some (.object array) := (Function.update_of_ne hslot.symm _ _).trans hcontainer
    exact List.forall_mem_cons.mpr
      ⟨hindex, ih hkept helements (fun other hother => hpairs other (List.mem_cons_of_mem _ hother)) hrest⟩

/-- The call of the initializer leaves the locals alone. -/
theorem locals_of_run_superCall {kind : CallableKind} {initializer : Option MethodRef}
    (h : host.run (superCall kind initializer) state = .passes after) : after.locals = state.locals := by
  unfold superCall at h
  split at h
  · obtain ⟨loaded, hload, hcall⟩ := Ending.andThen_eq_passes h
    obtain ⟨called, hcalled, hend⟩ := Ending.andThen_eq_passes hcall
    cases hend
    simp only [Host.exec, Host.invoke] at hload hcalled
    split at hload
    · cases hload
      split at hcalled
      · cases hcalled
        rfl
      · cases hcalled
    · cases hload
  · cases h
    rfl

end Prologue

/-! ## 3. What the body finds -/

/-- A method whose flag is that of its kind begins with its first argument in the slot of the container. -/
theorem MethodRecord.entryFrame_container {record : MethodRecord} {hasReceiver : Bool}
    (h : record.isStatic = !hasReceiver) (receiver : Word host.Object) (arguments : List (Word host.Object))
    (world : host.World) :
    (record.entryFrame receiver arguments world).locals (UInt16.ofNat hasReceiver.toNat) = arguments[0]? := by
  rw [entryFrame, h]
  cases hasReceiver <;> rfl

/-- With the other flag, what stands there is the argument behind, or the receiver. -/
theorem MethodRecord.entryFrame_shifted {record : MethodRecord} {hasReceiver : Bool} (h : record.isStatic = hasReceiver)
    (receiver : Word host.Object) (arguments : List (Word host.Object)) (world : host.World) :
    (record.entryFrame receiver arguments world).locals (UInt16.ofNat hasReceiver.toNat) =
      if hasReceiver then arguments[1]? else some receiver := by
  rw [entryFrame, h]
  cases hasReceiver <;> rfl

namespace Callable

variable {callable : Callable} {scope : Scope} {target : Target} {slots : SlotTable} {state after : State host}

/-- **With the container in its slot, the parameters hold its elements when the body begins.** -/
theorem parametersHold_of_run_setup (hkind : callable.kind ≠ .entryPoint)
    (hframe : SlotTable.FrameOf callable.kind.hasReceiver callable.visible slots) {array : host.Object}
    {elements : List (Word host.Object)}
    (harray : state.locals (UInt16.ofNat callable.kind.hasReceiver.toNat) = some (.object array))
    (helements : host.elements state.world array = some elements)
    (h : host.run (callable.setup scope target) state = .passes after) :
    callable.ParametersHold slots elements after.locals := by
  rw [setup, Prologue.layout, if_neg hkind, Host.run_append] at h
  obtain ⟨middle, hmoves, hsuper⟩ := Ending.andThen_eq_passes h
  have hapart := Prologue.transfers_apart hframe.fits
  have hlength := Prologue.lt_length_of_run_moves harray helements hapart hmoves
  rw [Prologue.run_moves harray helements fun pair hpair => ⟨hlength pair hpair, hapart pair hpair⟩] at hmoves
  cases hmoves
  intro position parameter hparameter
  have hposition : position < callable.visible.size := (List.getElem?_eq_some_iff.mp hparameter).1
  have hindex : position < elements.length :=
    hlength (position, _) (Prologue.mem_transfers.mpr (Or.inr ⟨hposition, rfl⟩))
  obtain ⟨slot, hslot, hvalue⟩ :=
    (argumentsBound_storeAll hframe elements state.locals).parameter position parameter hparameter
  refine ⟨slot, elements[position], hslot, List.getElem?_eq_getElem hindex, ?_⟩
  rw [Prologue.locals_of_run_superCall hsuper]
  exact hvalue.trans (List.getElem?_eq_getElem hindex)

/-- With something else there that is no array, the first move does not pass. -/
theorem run_setup_ne_passes (hkind : callable.kind ≠ .entryPoint)
    (hmoves : 0 < callable.kind.hasReceiver.toNat + callable.visible.size)
    (hlimit : callable.frameSize ≤ SlotTable.limit)
    (h : ∀ array, state.locals (UInt16.ofNat callable.kind.hasReceiver.toNat) = some (.object array) →
      host.elements state.world array = none) :
    host.run (callable.setup scope target) state ≠ .passes after := by
  intro hpasses
  rw [setup, Prologue.layout, if_neg hkind, Host.run_append] at hpasses
  obtain ⟨middle, hall, _⟩ := Ending.andThen_eq_passes hpasses
  rw [← Prologue.length_transfers] at hmoves
  have hapart := Prologue.transfers_apart (show callable.kind.hasReceiver.toNat + 2 + _ ≤ _ from hlimit)
  obtain ⟨⟨index, slot⟩, rest, htransfers⟩ := List.exists_cons_of_length_pos hmoves
  rw [htransfers] at hapart
  rw [htransfers, List.flatMap_cons, Host.run_append] at hall
  obtain ⟨_, hmove, _⟩ := Ending.andThen_eq_passes hall
  refine Prologue.run_move_ne_passes slot (hapart (index, slot) List.mem_cons_self).1 ?_ hmove
  intro array elements harray helements
  rw [h array harray] at helements
  cases helements

/-- The code of an entry point begins with its body. -/
theorem run_setup_entryPoint (hkind : callable.kind = .entryPoint) :
    host.run (callable.setup scope target) state = .passes state := by
  rw [setup, Prologue.layout, if_pos hkind]
  rfl

/-- **Where the frame of a method agrees with its code.** Take a callable that has a method, called with the arguments
that its descriptor names. A constructor, and a function or method with the flag of its kind, has the elements of the
delivered container in the slots of its parameters whenever control reaches the body; and control does, for a sound
target and a container with enough elements. With the other flag, the slot of the container holds something else, and if
that is no array control never reaches the body. An entry point is at its body at once: the delivered vector is in the
slot of the container, and the slot of its parameter holds nothing unless the descriptor names more than two words. -/
theorem argument_delivery {record : MethodRecord} {receiver : Word host.Object} {arguments : List (Word host.Object)}
    {world : host.World} {entry : State host} (hbuilt : callable.Built)
    (hlower : callable.lower scope target = .ok record) (hslots : callable.allocateSlots = .ok slots)
    (hcount : arguments.length = (Descriptor.words record.descriptor).1)
    (hentry : entry = record.entryFrame receiver arguments world) :
    (callable.kind = .constructor ∨ callable.kind ≠ .entryPoint ∧ callable.isStatic = !callable.kind.hasReceiver →
      ∀ array elements, arguments[0]? = some (.object array) → host.elements world array = some elements →
        (∀ after, callable.ReachesBody record entry after → callable.ParametersHold slots elements after.locals) ∧
        (target.validate = .ok () → max callable.visible.size callable.kind.hasReceiver.toNat ≤ elements.length →
          ∃ after, callable.ReachesBody record entry after)) ∧
    (callable.isStatic = callable.kind.hasReceiver →
      ∃ container, slots.slot? .positionalArgs = some container ∧
        entry.locals container = (if callable.kind.hasReceiver then arguments[1]? else some receiver) ∧
        ((∀ array, entry.locals container = some (.object array) → host.elements world array = none) →
          0 < callable.kind.hasReceiver.toNat + callable.visible.size →
          ∀ after, ¬callable.ReachesBody record entry after)) ∧
    (callable.kind = .entryPoint →
      (∀ after, callable.ReachesBody record entry after ↔ after = entry) ∧
      slots.slot? .positionalArgs = some 0 ∧ entry.locals 0 = arguments[0]? ∧
      slots.slot? (.named "args") = some 2 ∧
      ((Descriptor.words record.descriptor).1 ≤ 2 → entry.locals 2 = none)) := by
  obtain ⟨hlimit, hsuper, _, hrecord⟩ := lower_eq_ok_iff.mp hlower
  obtain ⟨table, htable, hframe⟩ := SlotTable.allocate_fits hlimit
  obtain rfl : table = slots := Except.ok.inj (htable.symm.trans hslots)
  have hflag : record.isStatic = callable.isStatic := by rw [hrecord]; rfl
  have hworld : entry.world = world := by rw [hentry]; rfl
  -- the code finds the container by its kind, the caller has put it by the flag
  refine ⟨fun hkind array elements harray helements => ?_, fun hother => ?_, fun hkind => ?_⟩
  · obtain ⟨hentryPoint, hstatic⟩ := hbuilt.flag_eq hkind
    have hcontainer : entry.locals (UInt16.ofNat callable.kind.hasReceiver.toNat) = some (.object array) := by
      rw [hentry, MethodRecord.entryFrame_container (hflag.trans hstatic), harray]
    rw [← hworld] at helements
    refine ⟨fun after hreaches => ?_, fun htarget hlength => ?_⟩
    · exact parametersHold_of_run_setup hentryPoint hframe hcontainer helements ((reachesBody_iff hlower).mp hreaches)
    · obtain ⟨_, _, hrun⟩ := run_setup hentryPoint htarget hsuper hframe hcontainer helements hlength
      exact ⟨_, (reachesBody_iff hlower).mpr hrun⟩
  · have hentryPoint := hbuilt.ne_entryPoint hother
    refine ⟨_, hframe.positionalArgs, ?_, fun hnone hmoves after hreaches => ?_⟩
    · rw [hentry, MethodRecord.entryFrame_shifted (hflag.trans hother)]
    · exact run_setup_ne_passes hentryPoint hmoves hlimit (hworld ▸ hnone) ((reachesBody_iff hlower).mp hreaches)
  · obtain ⟨hstatic, hvisible⟩ := hbuilt.entryPoint_eq hkind
    rw [hkind, hvisible] at hframe
    have hlocals (slot : UInt16) : entry.locals slot = arguments[slot.toNat]? := by
      rw [hentry, MethodRecord.entryFrame, hflag.trans hstatic]
      rfl
    obtain ⟨parameter, hparameter, hname⟩ : ∃ parameter,
        (ParameterList.single "args" .argv).toList[0]? = some parameter ∧ parameter.name = "args" := ⟨_, rfl, rfl⟩
    refine ⟨fun after => ?_, hframe.positionalArgs, hlocals 0, hname ▸ hframe.named hparameter, fun hwords => ?_⟩
    · rw [reachesBody_iff hlower, run_setup_entryPoint hkind, Ending.passes.injEq]
      exact eq_comm
    · rw [hlocals]
      exact List.getElem?_eq_none (hcount ▸ hwords)

theorem built_silentConstructor : silentConstructor.Built :=
  .constructor (show Callable.constructor silentConstructor.declared silentConstructor.body = _ from rfl)

/-- The argument of a constructor arrives. -/
theorem argument_delivery_silentConstructor :
    silentConstructor.Built ∧ ∃ record slots, ∃ after : State loggingHost,
      silentConstructor.lower derivedScope {} = .ok record ∧ silentConstructor.allocateSlots = .ok slots ∧
      silentConstructor.ReachesBody record (record.entryFrame (.object false) [.object true, .null] []) after ∧
      silentConstructor.ParametersHold slots [.object false] after.locals := by
  have hbuilt := built_silentConstructor
  have hlower := lower_silentConstructor
  obtain ⟨slots, hslots, _⟩ :=
    SlotTable.allocate_fits (show SlotTable.frameSize true silentConstructor.visible ≤ SlotTable.limit by decide)
  have hcount : [Word.object true, .null].length =
      (Descriptor.words (silentConstructor.record derivedScope {}).descriptor).1 := by decide
  let entry : State loggingHost :=
    (silentConstructor.record derivedScope {}).entryFrame (.object false) [.object true, .null] []
  have hentry : entry =
      (silentConstructor.record derivedScope {}).entryFrame (.object false) [.object true, .null] [] := rfl
  obtain ⟨hhold, hreaches⟩ :=
    (argument_delivery hbuilt hlower hslots hcount hentry).1 (Or.inl rfl) true [.object false] rfl rfl
  obtain ⟨after, hafter⟩ := hreaches (by decide) (by decide)
  exact ⟨hbuilt, _, slots, after, hlower, hslots, hafter, hhold after hafter⟩

/-- The parameter of an entry point has a slot, and nothing in it when the body begins. -/
theorem entryPoint_parameter_unassigned :
    (Callable.entryPoint {}).Built ∧ ∃ record slots,
      (Callable.entryPoint {}).lower { moduleName := "app" } {} = .ok record ∧
      (Callable.entryPoint {}).allocateSlots = .ok slots ∧
      (Descriptor.words record.descriptor).1 = 1 ∧
      ∃ entry : State loggingHost, entry = record.entryFrame .null [.object true] [] ∧
        (Callable.entryPoint {}).ReachesBody record entry entry ∧
        entry.locals 0 = some (.object true) ∧
        slots.slot? (.named "args") = some 2 ∧ entry.locals 2 = none := by
  have hlimit : (Callable.entryPoint {}).frameSize ≤ SlotTable.limit := by decide
  have hlower : (Callable.entryPoint {}).lower { moduleName := "app" } {} =
      .ok ((Callable.entryPoint {}).record { moduleName := "app" } {}) :=
    lower_of_inside hlimit (fun hlacks => nomatch hlacks.1) nofun
  obtain ⟨slots, hslots, hframe⟩ := SlotTable.allocate_fits hlimit
  exact ⟨.entryPoint {}, _, slots, hlower, hslots, by decide, _, rfl,
    (reachesBody_iff hlower).mpr (run_setup_entryPoint rfl), rfl,
    hframe.named (show (Callable.entryPoint {}).visible.toList[0]? = _ from rfl), rfl⟩

end Callable

end MethodLowering
