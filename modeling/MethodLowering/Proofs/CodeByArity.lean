import MethodLowering.Proofs.ArgumentDelivery
import MethodLowering.Proofs.ParameterGrammar

/-!
# Code knows parameters by their number

A prologue looks every parameter up by its name, but the code that comes out has no trace of names: slots go by place,
and elements of the container by position. So the method of a callable depends on how many parameters are declared, and
on nothing else that is declared of them.

* `Callable.Built.size_declared` -- the parameters that are declared, and those with slots of their own;
* `Callable.lower_eq_of_size` -- what lowering reads of a callable;
* `Callable.Alike` -- callables that differ in their parameters, but not in how many they declare;
* `Callable.lower_by_arity` -- **the code of a method written out, and the method of any callable alike.**
-/

namespace MethodLowering

namespace Callable

variable {callable first second : Callable} {scope : Scope} {target : Target}

/-! ## 1. How many parameters are declared -/

/-- Of a callable with a receiver, the receiver is declared in front of the parameters with slots of their own. -/
theorem size_declared_of_withReceiver {name : String} {kind : CallableKind} {parameters : ParameterList}
    {returns : Option TypeHint} {body : Block} (hkind : kind.hasReceiver = true)
    (h : withReceiver name kind parameters returns body = .ok callable) :
    callable.declared.size = callable.kind.hasReceiver.toNat + callable.visible.size := by
  obtain ⟨hdeclared, hvisible⟩ := withReceiver_eq_ok h
  obtain ⟨receiver, hlist⟩ := ParameterList.withoutReceiver?_eq_some_iff.mp hvisible
  rw [(of_withReceiver h).1, hkind, hdeclared, ParameterList.size, hlist, List.length_cons, ParameterList.size]
  exact Nat.add_comm _ _

/-- **A callable declares its receiver, if it has one, and the parameters with slots of their own.** -/
theorem Built.size_declared (h : callable.Built) :
    callable.declared.size = callable.kind.hasReceiver.toNat + callable.visible.size := by
  induction h with
  | function name parameters returns body => exact (Nat.zero_add _).symm
  | instanceMethod h => exact size_declared_of_withReceiver rfl h
  | constructor h => exact size_declared_of_withReceiver rfl h
  | entryPoint body => rfl
  | @withStatic callable h isStatic ih =>
    rcases withStatic_cases callable isStatic with heq | ⟨_, _, heq⟩
    · rw [heq]
      exact ih
    · rw [heq]
      exact ih

/-! ## 2. What lowering reads -/

/-- **Lowering reads the kind, the name, the flag, the declared return value, the body, and the number of slots.** -/
theorem lower_eq_of_size (hkind : first.kind = second.kind) (hname : first.name = second.name)
    (hstatic : first.isStatic = second.isStatic) (hreturns : first.returns = second.returns)
    (hbody : first.body = second.body) (hsize : first.visible.size = second.visible.size) (scope : Scope)
    (target : Target) : first.lower scope target = second.lower scope target := by
  have hframe : first.frameSize = second.frameSize := by
    rw [frameSize, frameSize, SlotTable.frameSize, SlotTable.frameSize, hkind, hsize]
  have hinitializer : first.initializer? scope target = second.initializer? scope target := by
    rw [initializer?, initializer?, hkind]
  have hshape : first.returnShape = second.returnShape := by
    rw [returnShape, returnShape, hkind, hreturns]
  have hcode : first.code scope target = second.code scope target := by
    rw [code, code, setup, setup, hframe, hinitializer, hkind, hsize, hshape, hbody]
  have hrecord : first.record scope target = second.record scope target := by
    rw [record, record, targetName, targetName, descriptor, descriptor, hcode, hkind, hname, hstatic, hreturns]
  have hlacks : first.LacksSuperclass scope = second.LacksSuperclass scope := by
    rw [LacksSuperclass, LacksSuperclass, hkind]
  rw [lower_eq, lower_eq]
  simp only [hframe, hlacks, hcode, hrecord]

/-- Callables that differ in their parameters, but not in how many they declare. -/
structure Alike (first second : Callable) : Prop where
  kind : first.kind = second.kind
  name : first.name = second.name
  isStatic : first.isStatic = second.isStatic
  returns : first.returns = second.returns
  body : first.body = second.body
  arity : first.declared.size = second.declared.size

/-- As many declared parameters are as many slots. -/
theorem Alike.size_visible (h : first.Alike second) (hfirst : first.Built) (hsecond : second.Built) :
    first.visible.size = second.visible.size := by
  have harity := h.arity
  rw [hfirst.size_declared, hsecond.size_declared, h.kind] at harity
  exact Nat.add_left_cancel harity

/-! ## 3. The code written out -/

/-- The call of the initializer written out. -/
theorem superCall_eq {superclass : String}
    (hsuper : callable.kind = .constructor → scope.superclass = some superclass) :
    Prologue.superCall callable.kind (callable.initializer? scope target) =
      if callable.kind = .constructor then
        [Instruction.loadLocal 0, .invokeSpecial ⟨superclass, target.constructorName, target.initializerDescriptor⟩]
      else [] := by
  rw [initializer?]
  by_cases hkind : callable.kind = .constructor
  · rw [if_pos hkind, if_pos hkind, hsuper hkind, hkind]
    rfl
  · rw [if_neg hkind, if_neg hkind]
    cases callable.kind <;> rfl

/-- The moves of the arguments written out: one to the receiver, if there is one, and one to each parameter. -/
theorem moves_eq (hasReceiver : Bool) (count : Nat) :
    ((Prologue.transfers hasReceiver count).flatMap fun (index, slot) =>
        Prologue.move (UInt16.ofNat hasReceiver.toNat) index slot) =
      (if hasReceiver then [Instruction.loadLocal 1, .pushInt 0, .arrayLoad, .storeLocal 0] else []) ++
        (List.range count).flatMap fun position =>
          [Instruction.loadLocal (UInt16.ofNat hasReceiver.toNat), .pushInt (Int32.ofNat position), .arrayLoad,
            .storeLocal (UInt16.ofNat (hasReceiver.toNat + 2 + position))] := by
  rw [Prologue.transfers, List.flatMap_append, List.flatMap_map]
  cases hasReceiver <;> rfl

/-- **The code of a method written out, and the method of any callable alike.** Where there is a method, its frame is
within the limit, so that slots and positions are the numbers they are written as. Its code moves the first element of
the container to the receiver, if there is one, and the element at each position to the slot at this place; in a
constructor it calls the initializer of the superclass, whatever the body does; an entry point has nothing of this. Then
comes the body, which returns null where it does not return by itself, with its returns in shape. So callables of one
kind, name, flag, return value and body that declare as many parameters have the same method, or the same error,
whatever the names, kinds, defaults and types of these parameters. -/
theorem lower_by_arity :
    (∀ (callable : Callable) (scope : Scope) (target : Target) (record : MethodRecord),
      callable.lower scope target = .ok record →
      let receivers := callable.kind.hasReceiver.toNat
      let count := callable.visible.size
      receivers + 2 + count ≤ 65535 ∧
      ∃ superclass, (callable.kind = .constructor → scope.superclass = some superclass) ∧
        record.code.instructions =
          (if callable.kind = .entryPoint then [] else
            (if callable.kind.hasReceiver then [Instruction.loadLocal 1, .pushInt 0, .arrayLoad, .storeLocal 0]
            else []) ++
            ((List.range count).flatMap fun position =>
              [Instruction.loadLocal (UInt16.ofNat receivers), .pushInt (Int32.ofNat position), .arrayLoad,
                .storeLocal (UInt16.ofNat (receivers + 2 + position))]) ++
            (if callable.kind = .constructor then
              [Instruction.loadLocal 0,
                .invokeSpecial ⟨superclass, target.constructorName, target.initializerDescriptor⟩]
            else [])) ++
          callable.returnShape.apply
            (if callable.body.instructions.getLast?.any Instruction.isTerminator then callable.body.instructions
            else callable.body.instructions ++ [Instruction.pushNull, .returnValue])) ∧
    (∀ first second : Callable, first.Built → second.Built → first.Alike second →
      ∀ (scope : Scope) (target : Target), first.lower scope target = second.lower scope target) := by
  refine ⟨fun callable scope target record hlower => ?_, fun first second hfirst hsecond halike scope target => ?_⟩
  · obtain ⟨hlimit, hlacks, _, rfl⟩ := lower_eq_ok_iff.mp hlower
    have hsuper : callable.kind = .constructor → scope.superclass = some (scope.superclass.getD "") := by
      intro hkind
      obtain ⟨superclass, hsuperclass⟩ := Option.ne_none_iff_exists'.mp fun hnone => hlacks ⟨hkind, hnone⟩
      rw [hsuperclass]
      rfl
    refine ⟨hlimit, scope.superclass.getD "", hsuper, ?_⟩
    show callable.setup scope target ++ _ = _
    rw [setup, Prologue.layout, moves_eq, superCall_eq hsuper]
    rfl
  · exact lower_eq_of_size halike.kind halike.name halike.isStatic halike.returns halike.body
      (halike.size_visible hfirst hsecond) scope target

/-- A list that takes all positional arguments in place of a receiver, and all named ones. -/
def variadicParameters : List Parameter :=
  [{ name := "all", kind := .varPositional }, { name := "more", kind := .varKeyword, hint := some .argv }]

theorem wellOrdered_variadicParameters : Parameter.WellOrdered variadicParameters := by
  refine ⟨by decide, ?_, by decide⟩
  unfold Parameter.Precedes
  decide

/-- A constructor of such a list, with the body of another one. -/
def variadicConstructor : Callable :=
  { silentConstructor with
    declared := ⟨variadicParameters, wellOrdered_variadicParameters⟩
    visible := ⟨variadicParameters.tail, wellOrdered_variadicParameters.tail⟩ }

/-- The two constructors have the same method, which reads its only parameter by position and returns, as their body
does not. -/
theorem lower_by_arity_variadicConstructor :
    variadicConstructor.Built ∧ silentConstructor.Built ∧ variadicConstructor.Alike silentConstructor ∧
    ∃ record, silentConstructor.lower derivedScope {} = .ok record ∧
      variadicConstructor.lower derivedScope {} = .ok record ∧
      record.code.instructions =
        [.loadLocal 1, .pushInt 0, .arrayLoad, .storeLocal 0, .loadLocal 1, .pushInt 0, .arrayLoad, .storeLocal 3,
          .loadLocal 0, .invokeSpecial ⟨"Base", "<init>", "()V"⟩, .loadLocal 3, .storeLocal 2, .returnVoid] := by
  have hsilent := built_silentConstructor
  have hvariadic : variadicConstructor.Built :=
    .constructor (show Callable.constructor variadicConstructor.declared silentConstructor.body = _ from rfl)
  have halike : variadicConstructor.Alike silentConstructor := ⟨rfl, rfl, rfl, rfl, rfl, rfl⟩
  have hlower := lower_silentConstructor
  obtain ⟨hcode, hequal⟩ := lower_by_arity
  obtain ⟨_, superclass, hsuper, hinstructions⟩ := hcode _ _ _ _ hlower
  obtain rfl : "Base" = superclass := Option.some.inj (hsuper rfl)
  refine ⟨hvariadic, hsilent, halike, _, hlower, (hequal _ _ hvariadic hsilent halike _ _).trans hlower, ?_⟩
  rw [hinstructions]
  decide

end Callable

end MethodLowering
