import MethodLowering.Proofs.Machine

/-!
# The depth of the operand stack

The greatest depth of a code unit comes from one pass over all of its instructions. The pass does not stop at a return,
and it takes a stack that is too short for an empty one. So there are two questions: what the pass finds, and what this
has to do with the depths that are reached.

* `Instruction.depthBehind` -- the depth that the pass has behind code, and `CodeUnit.isPeak_stackPeak`: the peak is the
  greatest depth behind any beginning of the code;
* `Window`, `Instruction.depthBehind_spec` -- a stretch of code, and **the depth behind code as a maximum over the
  stretches that end there**; from it `CodeUnit.isGreatestGain_stackPeak`;
* `Instruction.depths?` -- the depths in a run up to the first return, each of them a depth behind a beginning;
* `Host.exec_depth`, `Host.run_depth` -- the machine has no other depths;
* `CodeUnit.maxStack_exact` -- **the greatest depth is sound, tight where nothing stands behind the first return, and a
  maximum over the stretches of any code.**
-/

namespace MethodLowering

namespace Instruction

/-! ## 1. The pass over code -/

/-- The depth that a pass over code from a depth comes to. -/
def depthBehind (code : List Instruction) (depth : Nat) : Nat :=
  code.foldl depthAfter depth

@[simp] theorem depthBehind_cons (instruction : Instruction) (rest : List Instruction) (depth : Nat) :
    depthBehind (instruction :: rest) depth = depthBehind rest (instruction.depthAfter depth) := rfl

end Instruction

open Instruction (depthBehind)

/-- The greatest depth behind any beginning of code, the empty one included. -/
structure IsPeak (code : List Instruction) (depth peak : Nat) : Prop where
  bound : ∀ front, front <+: code → depthBehind front depth ≤ peak
  attained : ∃ front, front <+: code ∧ depthBehind front depth = peak

namespace IsPeak

variable {code : List Instruction} {depth peak : Nat}

theorem nil (depth : Nat) : IsPeak [] depth depth where
  bound front hfront := by
    rw [List.prefix_nil.mp hfront]
    exact Nat.le_refl _
  attained := ⟨[], List.nil_prefix, rfl⟩

/-- An instruction in front adds the depth before it. -/
theorem cons {instruction : Instruction} (h : IsPeak code (instruction.depthAfter depth) peak) :
    IsPeak (instruction :: code) depth (max depth peak) where
  bound front hfront := by
    rcases List.prefix_cons_iff.mp hfront with rfl | ⟨others, rfl, hothers⟩
    · exact Nat.le_max_left _ _
    · exact Nat.le_trans (h.bound others hothers) (Nat.le_max_right _ _)
  attained := by
    rcases Nat.le_total peak depth with hle | hle
    · exact ⟨[], List.nil_prefix, (Nat.max_eq_left hle).symm⟩
    · obtain ⟨front, hfront, hdepth⟩ := h.attained
      exact ⟨instruction :: front, List.cons_prefix_cons.mpr ⟨rfl, hfront⟩, hdepth.trans (Nat.max_eq_right hle).symm⟩

/-- More code has no smaller peak. -/
theorem mono {longer : List Instruction} {higher : Nat} (h : IsPeak code depth peak)
    (hlonger : IsPeak longer depth higher) (hbegins : code <+: longer) : peak ≤ higher := by
  obtain ⟨front, hfront, rfl⟩ := h.attained
  exact hlonger.bound front (hfront.trans hbegins)

end IsPeak

namespace CodeUnit

/-- **One pass finds the peak**, from any depth that is counted already. -/
theorem foldl_peakStep (code : List Instruction) {depth peak : Nat} (h : depth ≤ peak) :
    ∃ reached, IsPeak code depth reached ∧ (code.foldl peakStep (depth, peak)).2 = max peak reached := by
  induction code generalizing depth peak with
  | nil => exact ⟨depth, IsPeak.nil depth, (Nat.max_eq_left h).symm⟩
  | cons instruction rest ih =>
    obtain ⟨reached, hpeak, hfold⟩ := ih (Nat.le_max_right peak (instruction.depthAfter depth))
    refine ⟨max depth reached, hpeak.cons, hfold.trans ?_⟩
    have hfirst : instruction.depthAfter depth ≤ reached := hpeak.bound [] List.nil_prefix
    omega

/-- **The peak of a unit is the greatest depth behind any beginning of its code.** -/
theorem isPeak_stackPeak (unit : CodeUnit) : IsPeak unit.instructions 0 unit.stackPeak := by
  obtain ⟨reached, hpeak, hfold⟩ := foldl_peakStep unit.instructions (Nat.le_refl 0)
  rw [stackPeak, hfold, Nat.zero_max]
  exact hpeak

theorem toNat_maxStack (unit : CodeUnit) : unit.maxStack.toNat = min unit.stackPeak 65535 :=
  UInt16.toNat_ofNat_of_lt' (show min unit.stackPeak 65535 < 65536 by omega)

end CodeUnit

/-! ## 2. Stretches of code -/

/-- The words that code gives less those that it takes. -/
def netWords : List Instruction → Int
  | [] => 0
  | instruction :: rest => instruction.stackEffect.2 - instruction.stackEffect.1 + netWords rest

/-- A stretch of code, with its first instruction apart. -/
structure Window (code : List Instruction) where
  before : List Instruction
  first : Instruction
  rest : List Instruction
  behind : List Instruction
  eq : code = before ++ first :: (rest ++ behind)

/-- The words that a stretch gives less those that it takes, but for what its first instruction takes. -/
def Window.gain {code : List Instruction} (window : Window code) : Int :=
  window.first.stackEffect.2 + netWords window.rest

/-- The greatest of nothing and of what any stretch gains. -/
structure IsGreatestGain (code : List Instruction) (peak : Nat) : Prop where
  bound : ∀ window : Window code, window.gain ≤ peak
  attained : peak = 0 ∨ ∃ window : Window code, window.gain = peak

namespace Instruction

/-- One instruction: what it takes cannot be more than there is, so at least what it gives is there behind it. -/
theorem depthAfter_spec (instruction : Instruction) (depth : Nat) :
    (depth : Int) + (instruction.stackEffect.2 - instruction.stackEffect.1) ≤ instruction.depthAfter depth ∧
    instruction.stackEffect.2 ≤ instruction.depthAfter depth ∧
    ((instruction.depthAfter depth : Int) = depth + (instruction.stackEffect.2 - instruction.stackEffect.1) ∨
      instruction.depthAfter depth = instruction.stackEffect.2) := by
  unfold depthAfter
  omega

/-- **The depth behind code is the greatest of the depth before it with all that the code gives and takes, and of what
the stretches that end there gain.** -/
theorem depthBehind_spec (code : List Instruction) (depth : Nat) :
    (depth : Int) + netWords code ≤ depthBehind code depth ∧
    (∀ before first rest, code = before ++ first :: rest →
      first.stackEffect.2 + netWords rest ≤ depthBehind code depth) ∧
    ((depthBehind code depth : Int) = depth + netWords code ∨
      ∃ before first rest, code = before ++ first :: rest ∧
        (depthBehind code depth : Int) = first.stackEffect.2 + netWords rest) := by
  induction code generalizing depth with
  | nil => exact ⟨Int.le_of_eq (Int.add_zero _), by simp, Or.inl (Int.add_zero _).symm⟩
  | cons instruction code ih =>
    obtain ⟨hkept, hgiven, hexact⟩ := instruction.depthAfter_spec depth
    obtain ⟨hall, hwindows, hreached⟩ := ih (instruction.depthAfter depth)
    simp only [depthBehind_cons, netWords]
    refine ⟨by omega, fun before first rest heq => ?_, ?_⟩
    · cases before with
      | nil =>
        cases heq
        omega
      | cons _ before =>
        cases heq
        exact hwindows before first rest rfl
    · rcases hreached with hreached | ⟨before, first, rest, rfl, hreached⟩
      · rcases hexact with hexact | hexact
        · left
          omega
        · -- the stack was too short: what is there comes from here
          right
          exact ⟨[], instruction, code, rfl, by omega⟩
      · right
        exact ⟨instruction :: before, first, rest, rfl, hreached⟩

end Instruction

/-- **The peak is the greatest gain of any stretch**, whether or not the stack is ever too short. -/
theorem CodeUnit.isGreatestGain_stackPeak (unit : CodeUnit) : IsGreatestGain unit.instructions unit.stackPeak := by
  have hpeak := unit.isPeak_stackPeak
  constructor
  · intro window
    have hfront : window.before ++ window.first :: window.rest <+: unit.instructions :=
      ⟨window.behind, (List.append_assoc _ _ _).trans window.eq.symm⟩
    have hgain := (Instruction.depthBehind_spec _ 0).2.1 window.before window.first window.rest rfl
    have hbound := hpeak.bound _ hfront
    unfold Window.gain
    omega
  · obtain ⟨front, ⟨behind, hcode⟩, hdepth⟩ := hpeak.attained
    obtain ⟨_, hwindows, hreached⟩ := Instruction.depthBehind_spec front 0
    rw [hdepth] at hwindows hreached
    have hstretch : ∀ before first rest, front = before ++ first :: rest →
        (unit.stackPeak : Int) = first.stackEffect.2 + netWords rest →
        ∃ window : Window unit.instructions, window.gain = unit.stackPeak := by
      intro before first rest hfront hgain
      exact ⟨⟨before, first, rest, behind, by rw [← hcode, hfront]; simp⟩, hgain.symm⟩
    rcases hreached with hreached | ⟨before, first, rest, hfront, hgain⟩
    · -- all that was given and taken, from nothing: no more than the stretch from the first instruction gains
      cases front with
      | nil =>
        left
        exact hdepth.symm
      | cons first rest =>
        right
        refine hstretch [] first rest rfl ?_
        have hgain := hwindows [] first rest rfl
        simp only [netWords] at hreached
        omega
    · right
      exact hstretch before first rest hfront hgain

/-! ## 3. Depths that are reached -/

namespace Instruction

/-- **The depths in a run from a depth**, up to and including the first return: the depth at the start and behind each
instruction. There is no such run where an instruction takes more words than there are. -/
def depths? : Nat → List Instruction → Option (List Nat)
  | depth, [] => some [depth]
  | depth, instruction :: rest =>
    if instruction.stackEffect.1 ≤ depth then
      if instruction.isTerminator then
        some [depth, depth - instruction.stackEffect.1 + instruction.stackEffect.2]
      else
        (depths? (depth - instruction.stackEffect.1 + instruction.stackEffect.2) rest).map (depth :: ·)
    else
      none

/-- A run begins with an instruction that has its words, and goes on behind it unless this is a return. -/
theorem depths?_cons_eq_some {instruction : Instruction} {rest : List Instruction} {depth : Nat} {depths : List Nat}
    (h : depths? depth (instruction :: rest) = some depths) :
    (instruction.isTerminator ∧ depths = [depth, instruction.depthAfter depth]) ∨
      (¬instruction.isTerminator ∧ ∃ others, depths? (instruction.depthAfter depth) rest = some others ∧
        depths = depth :: others) := by
  unfold depths? at h
  split at h
  · split at h
    · exact Or.inl ⟨‹_›, (Option.some.inj h).symm⟩
    · obtain ⟨others, hothers, heq⟩ := Option.map_eq_some_iff.mp h
      exact Or.inr ⟨‹_›, others, hothers, heq.symm⟩
  · cases h

/-- The depths in a run are depths behind beginnings of the code. -/
theorem exists_beginning_of_mem_depths {code : List Instruction} {depth reached : Nat} {depths : List Nat}
    (h : depths? depth code = some depths) (hmem : reached ∈ depths) :
    ∃ front, front <+: code ∧ depthBehind front depth = reached := by
  induction code generalizing depth depths with
  | nil =>
    cases h
    exact ⟨[], List.nil_prefix, (List.mem_singleton.mp hmem).symm⟩
  | cons instruction rest ih =>
    rcases depths?_cons_eq_some h with ⟨_, rfl⟩ | ⟨_, others, hothers, rfl⟩
    · rcases List.mem_cons.mp hmem with rfl | hmem
      · exact ⟨[], List.nil_prefix, rfl⟩
      · exact ⟨[instruction], by simp, (List.mem_singleton.mp hmem).symm⟩
    · rcases List.mem_cons.mp hmem with rfl | hmem
      · exact ⟨[], List.nil_prefix, rfl⟩
      · obtain ⟨front, hfront, hdepth⟩ := ih hothers hmem
        exact ⟨instruction :: front, List.cons_prefix_cons.mpr ⟨rfl, hfront⟩, hdepth⟩

/-- Where nothing stands behind a return, they are all of those. -/
theorem mem_depths_of_beginning {code front : List Instruction} {depth : Nat} {depths : List Nat}
    (h : depths? depth code = some depths) (hlast : ∀ instruction ∈ code.dropLast, ¬instruction.isTerminator)
    (hfront : front <+: code) : depthBehind front depth ∈ depths := by
  induction code generalizing depth depths front with
  | nil =>
    cases h
    rw [List.prefix_nil.mp hfront]
    exact List.mem_singleton.mpr rfl
  | cons instruction rest ih =>
    rcases List.prefix_cons_iff.mp hfront with rfl | ⟨others, rfl, hothers⟩
    · rcases depths?_cons_eq_some h with ⟨_, rfl⟩ | ⟨_, _, _, rfl⟩ <;> exact List.mem_cons_self
    · rcases depths?_cons_eq_some h with ⟨hreturn, rfl⟩ | ⟨_, depths, hdepths, rfl⟩
      · cases rest with
        | nil =>
          rw [List.prefix_nil.mp hothers]
          exact List.mem_cons_of_mem _ (List.mem_singleton.mpr rfl)
        | cons next rest => exact absurd hreturn (hlast instruction List.mem_cons_self)
      · have hrest : ∀ other ∈ rest.dropLast, ¬other.isTerminator := by
          intro other hother
          cases rest with
          | nil => cases hother
          | cons next rest => exact hlast other (List.mem_cons_of_mem _ hother)
        have hbehind := ih hdepths hrest hothers
        exact List.mem_cons_of_mem _ hbehind

end Instruction

/-- The state in which code ends. -/
def Ending.state {host : Host} : Ending host → State host
  | passes state | returned _ state | stuck state => state

namespace Host

variable {host : Host}

/-- A call takes and gives as many words as its method says. -/
theorem invoke_depth (mode : CallMode) (method : MethodRef) (words : Nat) (state : State host) :
    host.invoke mode method words state = .stuck state ∨
      (host.invoke mode method words state).state.stack.length =
        state.stack.length - words + method.returnWords := by
  unfold invoke
  split
  · right
    simp [Ending.state, Nat.add_comm]
  · left
    rfl

/-- **What the machine does to the depth of its stack**: what the pass says, unless it is stuck. -/
theorem exec_depth (instruction : Instruction) (state : State host) :
    host.exec instruction state = .stuck state ∨
      (host.exec instruction state).state.stack.length = instruction.depthAfter state.stack.length := by
  obtain ⟨locals, stack, world⟩ := state
  cases instruction with
  | loadLocal slot =>
    simp only [exec]
    split
    · exact Or.inr rfl
    · exact Or.inl rfl
  | storeLocal slot => cases stack <;> simp [exec, Ending.state, Instruction.depthAfter, Instruction.stackEffect]
  | pushInt value => exact Or.inr rfl
  | pushNull => exact Or.inr rfl
  | arrayLoad =>
    simp only [exec]
    split
    · split
      · exact Or.inr rfl
      · exact Or.inl rfl
    · exact Or.inl rfl
  | pop => cases stack <;> simp [exec, Ending.state, Instruction.depthAfter, Instruction.stackEffect]
  | invokeSpecial method => exact invoke_depth .special method _ _
  | invokeStatic method => exact invoke_depth .static method _ _
  | invokeVirtual method => exact invoke_depth .virtual method _ _
  | returnValue => cases stack <;> simp [exec, Ending.state, Instruction.depthAfter, Instruction.stackEffect]
  | returnVoid => exact Or.inr rfl
  | nop => exact Or.inr rfl

/-- **The machine has no depths but those behind beginnings of the code.** -/
theorem run_depth (code : List Instruction) (state : State host) :
    ∃ front, front <+: code ∧
      (host.run code state).state.stack.length = depthBehind front state.stack.length := by
  induction code generalizing state with
  | nil => exact ⟨[], List.nil_prefix, rfl⟩
  | cons instruction rest ih =>
    rw [run_cons]
    rcases exec_depth instruction state with hstuck | hdepth
    · rw [hstuck]
      exact ⟨[], List.nil_prefix, rfl⟩
    · cases hexec : host.exec instruction state with
      | passes next =>
        rw [hexec] at hdepth
        obtain ⟨front, hfront, hrest⟩ := ih next
        refine ⟨instruction :: front, List.cons_prefix_cons.mpr ⟨rfl, hfront⟩, hrest.trans ?_⟩
        rw [Instruction.depthBehind_cons, ← hdepth]
        rfl
      | returned value after =>
        rw [hexec] at hdepth
        exact ⟨[instruction], by simp, hdepth⟩
      | stuck after =>
        rw [hexec] at hdepth
        exact ⟨[instruction], by simp, hdepth⟩

end Host

/-! ## 4. The greatest depth -/

namespace CodeUnit

/-- **The greatest depth of a code unit is sound and tight.** In a run from an empty stack that never takes more words
than there are, up to and including the first return, no depth is greater but for the limit of the count; and the
greatest depth in the run is the greatest depth of the unit if no instruction stands behind the first return. On the
machine no run comes to a greater depth, stuck or not. More instructions never make the greatest depth smaller. And it
is, for any code, the greatest of nothing and of what any stretch gains: what its first instruction gives, and what the
others give less what they take. -/
theorem maxStack_exact (unit : CodeUnit) :
    (∀ depths, Instruction.depths? 0 unit.instructions = some depths →
      ∀ deepest ∈ depths, (∀ depth ∈ depths, depth ≤ deepest) →
        min deepest 65535 ≤ unit.maxStack.toNat ∧
        ((∀ instruction ∈ unit.instructions.dropLast, ¬instruction.isTerminator) →
          unit.maxStack.toNat = min deepest 65535)) ∧
    (∀ (host : Host) (state : State host), state.stack = [] → ∀ front, front <+: unit.instructions →
      min (host.run front state).state.stack.length 65535 ≤ unit.maxStack.toNat) ∧
    (∀ more, unit.maxStack.toNat ≤
      (maxStack { unit with instructions := unit.instructions ++ more }).toNat) ∧
    ∃ peak, IsGreatestGain unit.instructions peak ∧ unit.maxStack.toNat = min 65535 peak := by
  have hpeak := unit.isPeak_stackPeak
  simp only [toNat_maxStack]
  refine ⟨fun depths hdepths deepest hdeepest hgreatest => ⟨?_, fun hlast => ?_⟩,
    fun host state hempty front hfront => ?_, fun more => ?_, unit.stackPeak, unit.isGreatestGain_stackPeak,
    Nat.min_comm _ _⟩
  · obtain ⟨front, hfront, hdepth⟩ := Instruction.exists_beginning_of_mem_depths hdepths hdeepest
    have hbound := hpeak.bound front hfront
    omega
  · obtain ⟨front, hfront, hdepth⟩ := Instruction.exists_beginning_of_mem_depths hdepths hdeepest
    obtain ⟨highest, hhighest, hreached⟩ := hpeak.attained
    have hbound := hpeak.bound front hfront
    have hle := hgreatest _ (Instruction.mem_depths_of_beginning hdepths hlast hhighest)
    omega
  · obtain ⟨reached, hreached, hlength⟩ := Host.run_depth front state
    have hbound := hpeak.bound reached (hreached.trans hfront)
    rw [hlength, hempty]
    exact Nat.le_min.mpr ⟨Nat.le_trans (Nat.min_le_left _ _) hbound, Nat.min_le_right _ _⟩
  · have hmore := isPeak_stackPeak { unit with instructions := unit.instructions ++ more }
    have hle := hpeak.mono hmore (List.prefix_append _ _)
    omega

/-- A host without arrays, whose calls give nulls. -/
def nullHost : Host where
  Object := Unit
  World := Unit
  elements _ _ := none
  call _ _ _ world := (Vector.replicate _ .null, world)

/-- Code that returns. -/
def returningCode : List Instruction :=
  [.pushInt 7, .pushNull, .pop, .returnValue]

/-- Code that is never reached, and would need a deeper stack. -/
def unreachedCode : List Instruction :=
  [.pushNull, .pushNull, .pushNull]

/-- The greatest depth is that of the run, until code stands behind the return. -/
theorem maxStack_exact_unreachedCode :
    Instruction.depths? 0 returningCode = some [0, 1, 2, 1, 0] ∧
    (maxStack ⟨0, returningCode⟩).toNat = 2 ∧
    (maxStack ⟨0, returningCode⟩).toNat ≤ (maxStack ⟨0, returningCode ++ unreachedCode⟩).toNat ∧
    (maxStack ⟨0, returningCode ++ unreachedCode⟩).toNat = 3 ∧
    (nullHost.run [.pushInt 7, .pushNull] ⟨fun _ => none, [], ()⟩).state.stack.length = 2 ∧
    2 ≤ (maxStack ⟨0, returningCode⟩).toNat := by
  obtain ⟨hrun, hmachine, hmore, _⟩ := maxStack_exact ⟨0, returningCode⟩
  refine ⟨by decide, ?_, hmore unreachedCode, by decide, rfl, ?_⟩
  · exact (hrun [0, 1, 2, 1, 0] (by decide) 2 (by decide) (by decide)).2 (by decide)
  · exact hmachine nullHost ⟨fun _ => none, [], ()⟩ rfl [.pushInt 7, .pushNull] ⟨[.pop, .returnValue], rfl⟩

end CodeUnit

end MethodLowering
