import MethodLowering.Frame.Block
import MethodLowering.Frame.ReturnShape

/-!
# Returns in shape, instruction by instruction

Shaping looks at one instruction at a time, but for a null that is returned at once: where nothing is handed back, the
two instructions become one. This file gives shaping as equations over lists.

* `ReturnShape.Fuses` -- an instruction and the code behind it of which shaping makes one return;
* `ReturnShape.image`, `ReturnShape.apply_cons`, `ReturnShape.apply_fused` -- what any other instruction becomes, and
  the pair;
* `ReturnShape.induction` -- the induction these two steps give;
* `ReturnShape.apply_append` -- shaping goes through concatenation unless a pair straddles the border;
* `ReturnShape.exit` -- the return of a shape, and `ReturnShape.eq_exit_of_mem_apply`: shaped code has no other.
-/

namespace MethodLowering

namespace ReturnShape

/-! ## 1. Equations -/

/-- Shaping never looks back at what is already done. -/
theorem applyTo_append (shape : ReturnShape) (code : List Instruction) (before done : Array Instruction) :
    shape.applyTo code (before ++ done) = before ++ shape.applyTo code done := by
  fun_induction applyTo shape code done
  case case1 => rfl
  -- every other step pushes what it makes of an instruction, and goes on with the rest
  all_goals simp_all only [applyTo, Array.push_append]

/-- What is done first comes first. -/
theorem toList_applyTo (shape : ReturnShape) (code : List Instruction) (done : Array Instruction) :
    (shape.applyTo code done).toList = done.toList ++ shape.apply code := by
  rw [apply, ← Array.toList_append, ← applyTo_append, Array.append_empty]

/-- An instruction and the code behind it of which shaping makes one return: a null, returned at once where nothing is
handed back. -/
def Fuses (shape : ReturnShape) (instruction : Instruction) (rest : List Instruction) : Prop :=
  shape = noValue ∧ instruction = .pushNull ∧ rest.head? = some .returnValue

/-- What an instruction becomes by itself. -/
def image (shape : ReturnShape) (instruction : Instruction) : List Instruction :=
  match instruction, shape with
  | .returnValue, noValue => [.pop, .returnVoid]
  | .returnVoid, boxed => [.pushNull, .returnValue]
  | instruction, _ => [instruction]

@[simp] theorem apply_nil (shape : ReturnShape) : shape.apply [] = [] := rfl

/-- The null that is returned at once becomes a return of nothing. -/
theorem apply_fused (rest : List Instruction) :
    noValue.apply (.pushNull :: .returnValue :: rest) = .returnVoid :: noValue.apply rest := by
  rw [apply, applyTo, toList_applyTo]
  rfl

/-- **Any other instruction is shaped by itself.** -/
theorem apply_cons {shape : ReturnShape} {instruction : Instruction} {rest : List Instruction}
    (h : ¬shape.Fuses instruction rest) :
    shape.apply (instruction :: rest) = shape.image instruction ++ shape.apply rest := by
  cases instruction with
  | pushNull =>
    -- only here does the code behind matter
    cases rest with
    | nil => rfl
    | cons next rest =>
      by_cases hnext : next = .returnValue
      · subst hnext
        cases shape with
        | noValue => exact absurd ⟨rfl, rfl, rfl⟩ h
        | boxed => rw [apply, apply, applyTo, toList_applyTo, applyTo, toList_applyTo]; rfl
      · rw [apply, applyTo, toList_applyTo]
        · rfl
        · rintro _ _ heq
          exact hnext (List.cons.inj heq).1
        · nofun
        · nofun
  | returnValue => cases shape <;> (rw [apply, applyTo, toList_applyTo]; rfl)
  | returnVoid => cases shape <;> (rw [apply, applyTo, toList_applyTo]; rfl)
  | _ => rw [apply, applyTo, toList_applyTo] <;> first | rfl | nofun

/-- **The induction of shaping**: no code, a null returned at once, and any other instruction by itself. -/
theorem induction (shape : ReturnShape) {motive : List Instruction → Prop} (nil : motive [])
    (fused : ∀ rest, shape = noValue → motive rest → motive (.pushNull :: .returnValue :: rest))
    (cons : ∀ instruction rest, ¬shape.Fuses instruction rest → motive rest → motive (instruction :: rest)) :
    ∀ code, motive code
  | [] => nil
  | [instruction] => cons instruction [] (fun h => nomatch h.2.2) nil
  | instruction :: next :: rest => by
    by_cases h : shape.Fuses instruction (next :: rest)
    · obtain ⟨hshape, rfl, hhead⟩ := h
      cases hhead
      exact fused rest hshape (induction shape nil fused cons rest)
    · exact cons instruction (next :: rest) h (induction shape nil fused cons (next :: rest))

/-! ## 2. What shaping keeps -/

/-- **Shaping goes through concatenation**, unless a null stands on one side of the border and its return on the
other. -/
theorem apply_append {shape : ReturnShape} {first second : List Instruction}
    (h : ¬(shape = noValue ∧ first.getLast? = some .pushNull ∧ second.head? = some .returnValue)) :
    shape.apply (first ++ second) = shape.apply first ++ shape.apply second := by
  induction first using shape.induction with
  | nil => rfl
  | fused rest hshape ih =>
    subst hshape
    rw [List.cons_append, List.cons_append, apply_fused, apply_fused, ih, List.cons_append]
    rintro ⟨hshape, hlast, hhead⟩
    refine h ⟨hshape, ?_, hhead⟩
    rw [List.getLast?_cons, List.getLast?_cons, hlast]
    rfl
  | cons instruction rest hfuses ih =>
    rw [List.cons_append, apply_cons, apply_cons hfuses, ih, List.append_assoc]
    · rintro ⟨hshape, hlast, hhead⟩
      refine h ⟨hshape, ?_, hhead⟩
      rw [List.getLast?_cons, hlast]
      rfl
    · rintro ⟨hshape, rfl, hhead⟩
      cases rest with
      | nil => exact h ⟨hshape, rfl, hhead⟩
      | cons next rest => exact hfuses ⟨hshape, rfl, hhead⟩

/-- The return of a shape. -/
def exit : ReturnShape → Instruction
  | noValue => .returnVoid
  | boxed => .returnValue

@[simp] theorem isTerminator_exit (shape : ReturnShape) : shape.exit.isTerminator := by
  cases shape <;> rfl

/-- Code whose returns are those of a shape is in shape already. -/
theorem apply_eq_self {shape : ReturnShape} {code : List Instruction}
    (h : ∀ instruction ∈ code, instruction.isTerminator → instruction = shape.exit) : shape.apply code = code := by
  induction code using shape.induction with
  | nil => rfl
  | fused rest hshape =>
    subst hshape
    cases h .returnValue (by simp) rfl
  | cons instruction rest hfuses ih =>
    rw [apply_cons hfuses, ih fun other hother => h other (List.mem_cons_of_mem _ hother)]
    have hexit := h instruction List.mem_cons_self
    cases instruction <;> cases shape <;> first | rfl | cases hexit rfl

/-- Behind code that never returns and does not end in a null, shaping begins anew. -/
theorem apply_append_of_plain {shape : ReturnShape} {first second : List Instruction}
    (h : ∀ instruction ∈ first, ¬instruction.isTerminator) (hlast : first.getLast? ≠ some .pushNull) :
    shape.apply (first ++ second) = first ++ shape.apply second := by
  rw [apply_append fun hborder => hlast hborder.2.1,
    apply_eq_self fun instruction hmem hreturn => absurd hreturn (h instruction hmem)]

/-- **Shaping keeps all instructions that do not belong to a return**, and it adds none. -/
theorem mem_apply_iff {shape : ReturnShape} {code : List Instruction} {instruction : Instruction}
    (hreturn : ¬instruction.isTerminator) (hnull : instruction ≠ .pushNull) (hpop : instruction ≠ .pop) :
    instruction ∈ shape.apply code ↔ instruction ∈ code := by
  induction code using shape.induction with
  | nil => rfl
  | fused rest hshape ih =>
    subst hshape
    have hvoid : instruction ≠ .returnVoid := fun h => hreturn (h ▸ rfl)
    have hvalue : instruction ≠ .returnValue := fun h => hreturn (h ▸ rfl)
    simp only [apply_fused, List.mem_cons, ih, hvoid, hnull, hvalue, false_or]
  | cons first rest hfuses ih =>
    have hfirst : instruction ∈ shape.image first ↔ instruction = first := by
      cases first <;> cases shape <;> simp only [image, List.mem_cons, List.not_mem_nil, or_false]
      -- a return is neither in the code it becomes nor the instruction in question
      all_goals
        constructor
        · rintro (rfl | rfl) <;> first | exact absurd rfl hnull | exact absurd rfl hpop | exact absurd rfl hreturn
        · rintro rfl
          exact absurd rfl hreturn
    rw [apply_cons hfuses, List.mem_append, hfirst, ih, List.mem_cons]

/-- Shaping adds no instruction on a local slot. -/
theorem mem_of_mem_apply {shape : ReturnShape} {code : List Instruction} {instruction : Instruction} {slot : UInt16}
    (hslot : instruction.localSlot? = some slot) (h : instruction ∈ shape.apply code) : instruction ∈ code := by
  refine (mem_apply_iff ?_ ?_ ?_).mp h
  · intro hreturn
    cases instruction <;> cases hslot <;> cases hreturn
  · rintro rfl
    cases hslot
  · rintro rfl
    cases hslot

/-- Only no code becomes no code. -/
theorem apply_eq_nil_iff {shape : ReturnShape} {code : List Instruction} : shape.apply code = [] ↔ code = [] := by
  constructor
  · intro h
    induction code using shape.induction with
    | nil => rfl
    | fused rest hshape =>
      subst hshape
      rw [apply_fused] at h
      cases h
    | cons instruction rest hfuses =>
      rw [apply_cons hfuses, List.append_eq_nil_iff] at h
      have himage := h.1
      cases instruction <;> cases shape <;> cases himage
  · rintro rfl
    rfl

/-- An instruction becomes code that ends as it does. -/
theorem image_returns (shape : ReturnShape) (instruction : Instruction) :
    (shape.image instruction).getLast?.any Instruction.isTerminator = instruction.isTerminator := by
  cases instruction <;> cases shape <;> rfl

/-- **Code in shape ends in a return if and only if the code did.** -/
theorem apply_returns (shape : ReturnShape) (code : List Instruction) :
    (shape.apply code).getLast?.any Instruction.isTerminator = code.getLast?.any Instruction.isTerminator := by
  -- the end of code is the end of what is behind its first instruction, unless there is nothing
  have hbehind : ∀ front rest : List Instruction, rest ≠ [] →
      (front ++ shape.apply rest).getLast? = (shape.apply rest).getLast? := by
    intro front rest hrest
    rw [List.getLast?_append, Option.or_of_isSome]
    rw [Option.isSome_iff_ne_none, Ne, List.getLast?_eq_none_iff]
    exact fun h => hrest (apply_eq_nil_iff.mp h)
  induction code using shape.induction with
  | nil => rfl
  | fused rest hshape ih =>
    subst hshape
    rw [apply_fused]
    by_cases hrest : rest = []
    · subst hrest
      rfl
    · rw [← List.singleton_append, hbehind _ _ hrest, ih, List.getLast?_cons_cons, List.getLast?_cons_of_ne_nil hrest]
  | cons instruction rest hfuses ih =>
    rw [apply_cons hfuses]
    by_cases hrest : rest = []
    · subst hrest
      simpa using image_returns shape instruction
    · rw [hbehind _ _ hrest, ih, List.getLast?_cons_of_ne_nil hrest]

/-! ## 3. One return -/

/-- A return becomes code that returns in shape. -/
theorem eq_exit_of_mem_image {shape : ReturnShape} {first instruction : Instruction}
    (h : instruction ∈ shape.image first) (hreturn : instruction.isTerminator) : instruction = shape.exit := by
  cases shape <;> cases first <;> simp only [image, List.mem_cons, List.not_mem_nil, or_false] at h
  -- a return in what an instruction becomes is the one of the shape, and no other instruction is a return
  all_goals rcases h with rfl | rfl <;> first | rfl | cases hreturn

/-- **Shaped code returns in one way**, in dead code as well. -/
theorem eq_exit_of_mem_apply {shape : ReturnShape} {code : List Instruction} {instruction : Instruction}
    (h : instruction ∈ shape.apply code) (hreturn : instruction.isTerminator) : instruction = shape.exit := by
  induction code using shape.induction with
  | nil => cases h
  | fused rest hshape ih =>
    subst hshape
    rw [apply_fused] at h
    rcases List.mem_cons.mp h with rfl | h
    · rfl
    · exact ih h
  | cons first rest hfuses ih =>
    rw [apply_cons hfuses] at h
    rcases List.mem_append.mp h with h | h
    · exact eq_exit_of_mem_image h hreturn
    · exact ih h

end ReturnShape

end MethodLowering
