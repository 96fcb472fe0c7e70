import Mathlib.Data.List.Nodup
import MethodLowering.Proofs.LoweringOutcome
import MethodLowering.Proofs.Machine

/-!
# What a lowered callable does

The method of a callable gets its arguments in a container. Run in a frame that holds this container, it does what the
callable means: the arguments stand in the slots of the parameters, a constructor has called the initializer of its
superclass, and the body runs from there.

* `ArgumentsBound` -- the locals behind a prologue, role by role;
* `Callable.meaning` -- what a callable does once its arguments are bound;
* `Callable.run_lower` -- **the exported code does exactly this.**
-/

namespace MethodLowering

variable {host : Host}

/-! ## 1. Moving arguments to their slots -/

namespace Prologue

/-- Stores elements of a list in slots, one after the other. -/
def storeAll (arguments : List (Word host.Object)) : List (Nat × UInt16) → host.Locals → host.Locals
  | [], locals => locals
  | (index, slot) :: rest, locals => storeAll arguments rest (Function.update locals slot arguments[index]?)

/-- A slot that nothing goes to keeps its word. -/
theorem storeAll_of_not_mem {arguments : List (Word host.Object)} {pairs : List (Nat × UInt16)} {slot : UInt16}
    (h : slot ∉ pairs.map Prod.snd) (locals : host.Locals) : storeAll arguments pairs locals slot = locals slot := by
  induction pairs generalizing locals with
  | nil => rfl
  | cons pair rest ih =>
    rw [List.map_cons, List.mem_cons, not_or] at h
    rw [storeAll, ih h.2, Function.update_of_ne h.1]

/-- Where the slots differ, each holds its element at the end. -/
theorem storeAll_of_mem {arguments : List (Word host.Object)} {pairs : List (Nat × UInt16)} {index : Nat}
    {slot : UInt16} (hnodup : (pairs.map Prod.snd).Nodup) (h : (index, slot) ∈ pairs) (locals : host.Locals) :
    storeAll arguments pairs locals slot = arguments[index]? := by
  induction pairs generalizing locals with
  | nil => cases h
  | cons pair rest ih =>
    rw [List.map_cons, List.nodup_cons] at hnodup
    rcases List.mem_cons.mp h with rfl | hrest
    · rw [storeAll, storeAll_of_not_mem hnodup.1, Function.update_self]
    · exact ih hnodup.2 hrest _

/-- One element is moved. -/
theorem run_move {state : State host} {container slot : UInt16} {array : host.Object}
    {arguments : List (Word host.Object)} {index : Nat} (hcontainer : state.locals container = some (.object array))
    (harguments : host.elements state.world array = some arguments) (hindex : index < arguments.length)
    (hlimit : index < SlotTable.limit) :
    host.run (move container index slot) state =
      .passes { state with locals := Function.update state.locals slot arguments[index]? } := by
  unfold SlotTable.limit at hlimit
  have hint : (Int32.ofNat index).toInt = .ofNat index := Int32.toInt_ofNat_of_lt (by omega)
  have helement : host.element? state.world array (Int32.ofNat index) = arguments[index]? := by
    rw [Host.element?, hint, harguments]
    rfl
  rw [List.getElem?_eq_getElem hindex] at helement ⊢
  simp only [move, Host.run_cons, Host.exec, hcontainer, Ending.andThen, helement, Host.run_nil]

/-- **Elements are moved one after the other.** No move touches the container, so each finds it as it was. -/
theorem run_moves {state : State host} {container : UInt16} {array : host.Object}
    {arguments : List (Word host.Object)} {pairs : List (Nat × UInt16)}
    (hcontainer : state.locals container = some (.object array))
    (harguments : host.elements state.world array = some arguments)
    (hpairs : ∀ pair ∈ pairs, pair.1 < arguments.length ∧ pair.1 < SlotTable.limit ∧ pair.2 ≠ container) :
    host.run (pairs.flatMap fun (index, slot) => move container index slot) state =
      .passes { state with locals := storeAll arguments pairs state.locals } := by
  induction pairs generalizing state with
  | nil => rfl
  | cons pair rest ih =>
    obtain ⟨index, slot⟩ := pair
    obtain ⟨hindex, hlimit, hslot⟩ := hpairs (index, slot) List.mem_cons_self
    rw [List.flatMap_cons, Host.run_append, run_move hcontainer harguments hindex hlimit]
    refine ih ?_ harguments fun other hother => hpairs other (List.mem_cons_of_mem _ hother)
    show Function.update state.locals slot _ container = _
    rw [Function.update_of_ne hslot.symm, hcontainer]

/-- Positions are below the limit of slots, and no argument goes to the slot of the container. -/
theorem transfers_apart {hasReceiver : Bool} {count : Nat}
    (hlimit : hasReceiver.toNat + 2 + count ≤ SlotTable.limit) :
    ∀ pair ∈ transfers hasReceiver count,
      pair.1 < SlotTable.limit ∧ pair.2 ≠ UInt16.ofNat hasReceiver.toNat := by
  rintro ⟨index, slot⟩ hpair
  have hslot := slot_of_mem_transfers hlimit hpair
  have hcontainer : (UInt16.ofNat hasReceiver.toNat).toNat = hasReceiver.toNat := by cases hasReceiver <;> rfl
  refine ⟨?_, fun heq => ?_⟩
  · rcases mem_transfers.mp hpair with ⟨_, rfl, _⟩ | ⟨hindex, _⟩ <;> omega
  · rw [show slot = _ from heq, hcontainer] at hslot
    omega

/-- The slots that arguments go to differ. -/
theorem nodup_transfers {hasReceiver : Bool} {count : Nat}
    (hlimit : hasReceiver.toNat + 2 + count ≤ SlotTable.limit) :
    ((transfers hasReceiver count).map Prod.snd).Nodup := by
  unfold SlotTable.limit at hlimit
  have hvalue : ∀ position < count, (UInt16.ofNat (hasReceiver.toNat + 2 + position)).toNat =
      hasReceiver.toNat + 2 + position :=
    fun position hposition => UInt16.toNat_ofNat_of_lt' (show _ < 2 ^ 16 by omega)
  have hparameters : ((List.range count).map fun position =>
      UInt16.ofNat (hasReceiver.toNat + 2 + position)).Nodup := by
    refine List.Nodup.map_on (fun first hfirst second hsecond heq => ?_) List.nodup_range
    have h := congrArg UInt16.toNat heq
    rw [hvalue first (List.mem_range.mp hfirst), hvalue second (List.mem_range.mp hsecond)] at h
    omega
  rw [transfers, List.map_append, List.map_map, List.nodup_append]
  refine ⟨by cases hasReceiver <;> decide, hparameters, ?_⟩
  -- the receiver stands in front of all parameters
  rintro slot hslot _ hmem rfl
  obtain ⟨position, hposition, heq⟩ := List.mem_map.mp hmem
  have h := hvalue position (List.mem_range.mp hposition)
  cases hasReceiver with
  | false => cases hslot
  | true =>
    have hzero : slot = 0 := List.mem_singleton.mp hslot
    have hslot : UInt16.ofNat (true.toNat + 2 + position) = 0 := heq.trans hzero
    rw [hslot, UInt16.toNat_zero] at h
    omega

end Prologue

/-! ## 2. Arguments in their slots -/

/-- **The locals behind a prologue**: the receiver and the parameters hold their arguments, and nothing else has
changed, the containers among it. -/
structure ArgumentsBound (slots : SlotTable) (kind : CallableKind) (parameters : ParameterList)
    (arguments : List (Word host.Object)) (before after : host.Locals) : Prop where
  /-- The receiver, where there is one, is the first argument. -/
  receiver : kind.hasReceiver → ∃ slot, slots.slot? .receiver = some slot ∧ after slot = arguments[0]?
  /-- The parameter at a position is the argument at this position. -/
  parameter : ∀ (position : Nat) (parameter : Parameter), parameters.toList[position]? = some parameter →
    ∃ slot, slots.slot? (.named parameter.name) = some slot ∧ after slot = arguments[position]?
  /-- The containers stay. -/
  container : ∀ slot, slots.slot? .positionalArgs = some slot ∨ slots.slot? .keywordArgs = some slot →
    after slot = before slot
  /-- So does every slot but those of the receiver and the parameters. -/
  other : ∀ slot, (kind.hasReceiver → slots.slot? .receiver ≠ some slot) →
    (∀ parameter ∈ parameters.toList, slots.slot? (.named parameter.name) ≠ some slot) → after slot = before slot

/-- The transfers of a frame bind its arguments. -/
theorem argumentsBound_storeAll {slots : SlotTable} {kind : CallableKind} {parameters : ParameterList}
    (hframe : SlotTable.FrameOf kind.hasReceiver parameters slots) (arguments : List (Word host.Object))
    (before : host.Locals) :
    ArgumentsBound slots kind parameters arguments before
      (Prologue.storeAll arguments (Prologue.transfers kind.hasReceiver parameters.size) before) := by
  have hnodup := Prologue.nodup_transfers hframe.fits
  have hother : ∀ slot, (kind.hasReceiver → slots.slot? .receiver ≠ some slot) →
      (∀ parameter ∈ parameters.toList, slots.slot? (.named parameter.name) ≠ some slot) →
      Prologue.storeAll arguments (Prologue.transfers kind.hasReceiver parameters.size) before slot = before slot := by
    intro slot hreceiver hparameter
    refine Prologue.storeAll_of_not_mem (fun hmem => ?_) before
    obtain ⟨⟨index, _⟩, hpair, rfl⟩ := List.mem_map.mp hmem
    rcases Prologue.mem_transfers.mp hpair with ⟨hkind, _, rfl⟩ | ⟨hindex, rfl⟩
    · exact hreceiver hkind ((hkind ▸ hframe).receiver)
    · have hget := List.getElem?_eq_getElem hindex
      exact hparameter _ (List.mem_of_getElem? hget) (hframe.named hget)
  refine ⟨fun hkind => ?_, fun position parameter hget => ?_, fun slot hcontainer => ?_, hother⟩
  · exact ⟨0, (hkind ▸ hframe).receiver,
      Prologue.storeAll_of_mem hnodup (Prologue.mem_transfers.mpr (Or.inl ⟨hkind, rfl, rfl⟩)) before⟩
  · have hposition : position < parameters.size := (List.getElem?_eq_some_iff.mp hget).1
    exact ⟨_, hframe.named hget,
      Prologue.storeAll_of_mem hnodup (Prologue.mem_transfers.mpr (Or.inr ⟨hposition, rfl⟩)) before⟩
  · -- a container has a role of its own, so its slot is no other role's
    refine hother slot (fun _ hreceiver => ?_) fun parameter _ hparameter => ?_
    · rcases hcontainer with h | h <;> cases hframe.role_unique h hreceiver
    · rcases hcontainer with h | h <;> cases hframe.role_unique h hparameter

/-! ## 3. The meaning of a callable -/

/-- The initializer of a sound target takes no arguments. -/
theorem Target.argumentWords_initializer {target : Target} (h : target.validate = .ok ()) (owner name : String) :
    MethodRef.argumentWords { owner, name, descriptor := target.initializerDescriptor } = 0 := by
  unfold Target.validate at h
  split at h
  · cases h
  · split at h
    · cases h
    · rename_i hprefix
      obtain ⟨rest, hrest⟩ := List.isPrefixOf_iff_prefix.mp (Decidable.not_not.mp hprefix)
      rw [MethodRef.argumentWords, Descriptor.words, ← hrest]
      rfl

namespace Callable

/-- What a constructor does in front of its body: it calls the initializer of the superclass on the receiver, which is
its first argument. What the initializer gives back stays on the stack. -/
def callSuper (callable : Callable) (scope : Scope) (target : Target) (arguments : List (Word host.Object))
    (state : State host) : State host :=
  match callable.kind, scope.superclass, arguments with
  | .constructor, some owner, receiver :: _ =>
    let method := { owner, name := target.constructorName, descriptor := target.initializerDescriptor }
    let (results, world) := host.call .special method [receiver] state.world
    { state with stack := results.toList ++ state.stack, world }
  | _, _, _ => state

/-- **What a callable does once its arguments are bound**: a constructor calls the initializer of its superclass, the
body runs, a body that comes to its end returns null, and the value is handed back as the shape says. -/
def meaning (callable : Callable) (scope : Scope) (target : Target) (arguments : List (Word host.Object))
    (state : State host) : Ending host :=
  (host.run callable.body.instructions (callable.callSuper scope target arguments state)).completed.inShape
    callable.returnShape

/-- In a frame whose receiver is bound, the code in front of a constructor's body calls the initializer. -/
theorem run_superCall {callable : Callable} {scope : Scope} {target : Target} {arguments : List (Word host.Object)}
    {state : State host} (htarget : target.validate = .ok ()) (hsuper : ¬callable.LacksSuperclass scope)
    (hcount : callable.kind.hasReceiver.toNat ≤ arguments.length)
    (hreceiver : callable.kind.hasReceiver → state.locals 0 = arguments[0]?) :
    host.run (Prologue.superCall callable.kind (callable.initializer? scope target)) state =
      .passes (callable.callSuper scope target arguments state) := by
  by_cases hkind : callable.kind = .constructor
  · obtain ⟨owner, howner⟩ := Option.ne_none_iff_exists'.mp fun hnone => hsuper ⟨hkind, hnone⟩
    rw [hkind] at hcount hreceiver
    obtain ⟨receiver, rest, rfl⟩ : ∃ receiver rest, arguments = receiver :: rest :=
      List.exists_cons_of_length_pos hcount
    have hlocal : state.locals 0 = some receiver := hreceiver rfl
    have hwords := Target.argumentWords_initializer htarget owner target.constructorName
    have hcall : callable.callSuper scope target (receiver :: rest) state =
        let (results, world) := host.call .special
          { owner, name := target.constructorName, descriptor := target.initializerDescriptor } [receiver] state.world
        { state with stack := results.toList ++ state.stack, world } := by
      unfold callSuper
      rw [hkind, howner]
    rw [hcall, initializer?, if_pos hkind, howner, hkind]
    simp only [Option.map_some, Prologue.superCall, Host.run_cons, Host.exec, hlocal, Ending.andThen, Host.invoke,
      hwords, Host.run_nil]
    have hdepth : 0 + 1 ≤ (receiver :: state.stack).length := by simp
    rw [if_pos hdepth]
    rfl
  · have hcode : Prologue.superCall callable.kind (callable.initializer? scope target) = [] := by
      rw [initializer?, if_neg hkind]
      unfold Prologue.superCall
      split
      · exact absurd ‹_› hkind
      · rfl
    have hcall : callable.callSuper scope target arguments state = state := by
      unfold callSuper
      split
      · exact absurd ‹_› hkind
      · rfl
    rw [hcode, hcall]
    rfl

/-- **The prologue binds the arguments**, and a constructor's then calls the initializer. -/
theorem run_setup {callable : Callable} {scope : Scope} {target : Target} {slots : SlotTable} {array : host.Object}
    {arguments : List (Word host.Object)} {state : State host} (hkind : callable.kind ≠ .entryPoint)
    (htarget : target.validate = .ok ()) (hsuper : ¬callable.LacksSuperclass scope)
    (hframe : SlotTable.FrameOf callable.kind.hasReceiver callable.visible slots)
    (harray : state.locals (UInt16.ofNat callable.kind.hasReceiver.toNat) = some (.object array))
    (harguments : host.elements state.world array = some arguments)
    (hcount : max callable.visible.size callable.kind.hasReceiver.toNat ≤ arguments.length) :
    ∃ bound, ArgumentsBound slots callable.kind callable.visible arguments state.locals bound ∧
      host.run (callable.setup scope target) state =
        .passes (callable.callSuper scope target arguments { state with locals := bound }) := by
  have hmoves : ∀ pair ∈ Prologue.transfers callable.kind.hasReceiver callable.visible.size,
      pair.1 < arguments.length ∧ pair.1 < SlotTable.limit ∧
        pair.2 ≠ UInt16.ofNat callable.kind.hasReceiver.toNat := by
    rintro ⟨index, slot⟩ hpair
    refine ⟨?_, Prologue.transfers_apart hframe.fits (index, slot) hpair⟩
    rcases Prologue.mem_transfers.mp hpair with ⟨hreceiver, rfl, _⟩ | ⟨hindex, _⟩
    · rw [hreceiver, Bool.toNat_true] at hcount
      omega
    · omega
  have hbound := argumentsBound_storeAll hframe arguments state.locals
  refine ⟨_, hbound, ?_⟩
  rw [setup, Prologue.layout, if_neg hkind, Host.run_append, Prologue.run_moves harray harguments hmoves]
  refine run_superCall htarget hsuper (by omega) fun hreceiver => ?_
  obtain ⟨slot, hslot, hvalue⟩ := hbound.receiver hreceiver
  obtain rfl : (0 : UInt16) = slot := Option.some.inj ((hreceiver ▸ hframe).receiver.symm.trans hslot)
  exact hvalue

/-- **The exported code does what the callable means.** In a frame whose container of positional arguments holds an
argument for each parameter, and one for the receiver where there is one, the code binds the arguments and then does as
the callable does. -/
theorem run_lower {callable : Callable} {scope : Scope} {target : Target} {record : MethodRecord} {slots : SlotTable}
    {container : UInt16} {array : host.Object} {arguments : List (Word host.Object)} {state : State host}
    (hkind : callable.kind ≠ .entryPoint) (htarget : target.validate = .ok ())
    (hlower : callable.lower scope target = .ok record) (hslots : callable.allocateSlots = .ok slots)
    (hcontainer : slots.slot? .positionalArgs = some container)
    (harray : state.locals container = some (.object array))
    (harguments : host.elements state.world array = some arguments)
    (hcount : max callable.visible.size callable.kind.hasReceiver.toNat ≤ arguments.length) :
    ∃ bound, ArgumentsBound slots callable.kind callable.visible arguments state.locals bound ∧
      host.run record.code.instructions state =
        callable.meaning scope target arguments { state with locals := bound } := by
  obtain ⟨hlimit, hsuper, _, rfl⟩ := lower_eq_ok_iff.mp hlower
  obtain ⟨table, htable, hframe⟩ := SlotTable.allocate_fits hlimit
  obtain rfl : table = slots := Except.ok.inj (htable.symm.trans hslots)
  obtain rfl : UInt16.ofNat callable.kind.hasReceiver.toNat = container :=
    Option.some.inj (hframe.positionalArgs.symm.trans hcontainer)
  obtain ⟨bound, hbound, hsetup⟩ := run_setup hkind htarget hsuper hframe harray harguments hcount
  refine ⟨bound, hbound, ?_⟩
  show host.run (callable.setup scope target ++ callable.returnShape.apply callable.body.complete) state = _
  rw [Host.run_append, hsetup]
  show host.run (callable.returnShape.apply callable.body.complete) _ = _
  rw [Host.run_apply, Host.run_complete]
  rfl

/-- A host with one array, of one object, that keeps the methods called. -/
def loggingHost : Host where
  Object := Bool
  World := List MethodRef
  elements _ object := if object then some [.object false] else none
  call _ method _ world := (Vector.replicate _ .null, method :: world)

/-- A constructor with one parameter, whose body puts its argument in the place of the named arguments and comes to its
end without a return. -/
def silentConstructor : Callable where
  name := "__init__"
  kind := .constructor
  declared :=
    { toList := [.positional "self", .positional "x"]
      wellOrdered :=
        ⟨by simp [Parameter.positional],
          by simp [Parameter.positional, Parameter.Precedes, Parameter.rank, Parameter.hasDefault,
            Parameter.Kind.isVariadic],
          by simp [Parameter.positional, Parameter.Kind.isVariadic]⟩ }
  visible :=
    { toList := [.positional "x"]
      wellOrdered := ⟨by simp, by simp, by simp [Parameter.positional, Parameter.Kind.isVariadic]⟩ }
  returns := some .noValue
  isStatic := false
  body := ⟨[.loadLocal 3, .storeLocal 2]⟩

/-- A class with a superclass. -/
def derivedScope : Scope := { moduleName := "m", className := some "C", superclass := some "Base" }

theorem lower_silentConstructor :
    silentConstructor.lower derivedScope {} = .ok (silentConstructor.record derivedScope {}) := by
  rw [lower_eq]
  rfl

/-- A frame that holds the container of a method's arguments. -/
def newFrame : State loggingHost :=
  ⟨fun slot => if slot = 1 then some (.object true) else none, [], []⟩

/-- The constructor calls the initializer of its superclass, and hands back nothing where its body ends. -/
theorem run_lower_silentConstructor :
    Callable.constructor silentConstructor.declared silentConstructor.body = .ok silentConstructor ∧
    silentConstructor.body.returns = false ∧
    ∃ record locals, silentConstructor.lower derivedScope {} = .ok record ∧
      locals 0 = some (.object false) ∧ locals 2 = some (.object false) ∧
      loggingHost.run record.code.instructions newFrame =
        .returned none ⟨locals, [], [⟨"Base", "<init>", "()V"⟩]⟩ := by
  refine ⟨rfl, rfl, silentConstructor.record derivedScope {}, ?_⟩
  have hlower := lower_silentConstructor
  obtain ⟨slots, hslots, hframe⟩ :=
    SlotTable.allocate_fits (show SlotTable.frameSize true silentConstructor.visible ≤ SlotTable.limit by decide)
  obtain ⟨bound, hbound, hrun⟩ := run_lower (show silentConstructor.kind ≠ .entryPoint by decide) (by decide) hlower
    hslots hframe.positionalArgs (show newFrame.locals 1 = some (.object true) from rfl)
    (show loggingHost.elements newFrame.world true = some [.object false] from rfl) (by decide)
  obtain ⟨receiver, hreceiver, hvalue⟩ := hbound.receiver rfl
  obtain rfl : (0 : UInt16) = receiver := Option.some.inj (hframe.receiver.symm.trans hreceiver)
  obtain ⟨slot, hslot, hargument⟩ := hbound.parameter 0 (.positional "x") rfl
  obtain rfl : (3 : UInt16) = slot :=
    Option.some.inj ((hframe.named (show silentConstructor.visible.toList[0]? = _ from rfl)).symm.trans hslot)
  refine ⟨Function.update bound 2 (some (.object false)), hlower, ?_, Function.update_self _ _ _, ?_⟩
  · rw [Function.update_of_ne (by decide), hvalue]
    rfl
  · have hcall : silentConstructor.callSuper derivedScope {} [.object false] { newFrame with locals := bound } =
        ⟨bound, [], [⟨"Base", "<init>", "()V"⟩]⟩ := rfl
    have hbody : loggingHost.run silentConstructor.body.instructions ⟨bound, [], [⟨"Base", "<init>", "()V"⟩]⟩ =
        .passes ⟨Function.update bound 2 (some (.object false)), [], [⟨"Base", "<init>", "()V"⟩]⟩ := by
      simp only [silentConstructor, Host.run_cons, Host.exec, hargument]
      rfl
    rw [hrun, meaning, hcall, hbody]
    rfl

end Callable

end MethodLowering
