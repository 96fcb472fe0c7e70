import MethodLowering.Proofs.ReturnShaping

/-!
# Code in shape is a normal form

Shaping touches returns, and of other instructions only the nulls and drops that go with a return. Whoever looks at code
without seeing those, and does not tell one return from the other, sees the same code before and after. Code whose
returns are those of the shape is left alone, so shaping twice is shaping once. And code is shaped piece by piece, but
for one border that no piece can see.

* `ReturnShape.filterMap_apply` -- what is seen of code past nulls, drops and the kind of its returns;
* `ReturnShape.countP_apply`, `ReturnShape.filter_apply` -- the number of returns, and the instructions of no return;
* `ReturnShape.apply_apply` -- shaping changes nothing a second time;
* `ReturnShape.apply_append_iff` -- the one border at which pieces cannot be shaped apart, between a null and its
  return;
* `ReturnShape.apply_normal_form` -- **code in shape is a normal form, made piece by piece.**
-/

namespace MethodLowering

/-- Whether an instruction may be put in or taken out with a return: a return, a null or a drop. -/
def Instruction.servesReturn : Instruction → Bool
  | pushNull | pop | returnValue | returnVoid => true
  | _ => false

/-- A mark for a return, whatever it returns. -/
def Instruction.returnMark? (instruction : Instruction) : Option Unit :=
  if instruction.isTerminator then some () else none

namespace ReturnShape

/-! ## 1. What is seen of code -/

section View

variable {α : Type} {view : Instruction → Option α}

/-- An instruction becomes code that looks as it does. -/
theorem filterMap_image (shape : ReturnShape) (hnull : view .pushNull = none) (hpop : view .pop = none)
    (hreturn : view .returnValue = view .returnVoid) (instruction : Instruction) :
    (shape.image instruction).filterMap view = [instruction].filterMap view := by
  cases instruction with
  | returnValue => cases shape <;> simp [image, List.filterMap_cons, hpop, hreturn]
  | returnVoid => cases shape <;> simp [image, List.filterMap_cons, hnull, hreturn]
  | _ => rfl

/-- **Shaping keeps what is seen of code**, by whoever looks past nulls and drops and does not tell the two returns
apart. -/
theorem filterMap_apply (shape : ReturnShape) (hnull : view .pushNull = none) (hpop : view .pop = none)
    (hreturn : view .returnValue = view .returnVoid) (code : List Instruction) :
    (shape.apply code).filterMap view = code.filterMap view := by
  induction code using shape.induction with
  | nil => rfl
  | fused rest hshape ih =>
    -- one return for two instructions, of which the first is not seen
    subst hshape
    rw [apply_fused, List.filterMap_cons_none hnull, List.filterMap_cons, List.filterMap_cons, hreturn, ih]
  | cons instruction rest hfuses ih =>
    rw [apply_cons hfuses, List.filterMap_append, filterMap_image shape hnull hpop hreturn, ih, ← List.filterMap_append,
      List.singleton_append]

end View

/-- Shaping keeps the number of returns. -/
theorem countP_apply (shape : ReturnShape) (code : List Instruction) :
    (shape.apply code).countP Instruction.isTerminator = code.countP Instruction.isTerminator := by
  have hcount (code : List Instruction) :
      (code.filterMap Instruction.returnMark?).length = code.countP Instruction.isTerminator := by
    rw [List.length_filterMap_eq_countP]
    refine List.countP_congr fun instruction _ => ?_
    cases instruction <;> rfl
  rw [← hcount, ← hcount, shape.filterMap_apply rfl rfl rfl]

/-- Shaping keeps the instructions of no return, in their order. -/
theorem filter_apply (shape : ReturnShape) (code : List Instruction) :
    (shape.apply code).filter (fun instruction => !instruction.servesReturn) =
      code.filter fun instruction => !instruction.servesReturn := by
  rw [← List.filterMap_eq_filter]
  exact shape.filterMap_apply rfl rfl rfl code

/-! ## 2. Shaping twice, and piece by piece -/

/-- **Shaping changes nothing a second time**: shaped code returns in one way, so there is no value left to drop and no
null to put in or to fuse. -/
theorem apply_apply (shape : ReturnShape) (code : List Instruction) :
    shape.apply (shape.apply code) = shape.apply code :=
  apply_eq_self fun _ => eq_exit_of_mem_apply

/-- Across a border between a null and its return there is one return; shaped apart, the two sides have a null, a drop
and a return. -/
theorem apply_across (front back : List Instruction) :
    noValue.apply ((front ++ [.pushNull]) ++ .returnValue :: back) =
        noValue.apply front ++ .returnVoid :: noValue.apply back ∧
      noValue.apply (front ++ [.pushNull]) ++ noValue.apply (.returnValue :: back) =
        noValue.apply front ++ .pushNull :: .pop :: .returnVoid :: noValue.apply back := by
  have hfront (rest : List Instruction) :
      noValue.apply (front ++ .pushNull :: rest) = noValue.apply front ++ noValue.apply (.pushNull :: rest) :=
    apply_append fun h => by cases h.2.2
  have hback : noValue.apply (.returnValue :: back) = .pop :: .returnVoid :: noValue.apply back :=
    apply_cons fun h => by cases h.2.1
  constructor
  · rw [List.append_assoc, List.singleton_append, hfront, apply_fused]
  · rw [hfront, hback, List.append_assoc]
    rfl

/-- **Pieces can be shaped apart if and only if their border is no such one.** -/
theorem apply_append_iff {shape : ReturnShape} {first second : List Instruction} :
    shape.apply (first ++ second) = shape.apply first ++ shape.apply second ↔
      ¬(shape = noValue ∧ first.getLast? = some .pushNull ∧ second.head? = some .returnValue) := by
  refine ⟨fun heq hborder => ?_, apply_append⟩
  obtain ⟨hshape, hlast, hhead⟩ := hborder
  subst hshape
  obtain ⟨front, rfl⟩ := List.getLast?_eq_some_iff.mp hlast
  obtain ⟨back, rfl⟩ := List.head?_eq_some_iff.mp hhead
  obtain ⟨hacross, hapart⟩ := apply_across front back
  rw [hacross, hapart] at heq
  cases List.append_cancel_left heq

/-! ## 3. The normal form -/

/-- **Code in shape is a normal form, made piece by piece.** It returns in one way only. It has the returns of the code
that it was made of, as many and at the end or not, and all instructions that go with no return, in their order. Shaped
again it stays as it is. And shaping two pieces one by one gives the shape of the whole, unless nothing is handed back
and the border stands between a null and its return. -/
theorem apply_normal_form (shape : ReturnShape) (code : List Instruction) :
    .returnValue ∉ noValue.apply code ∧ .returnVoid ∉ boxed.apply code ∧
    (shape.apply code).countP Instruction.isTerminator = code.countP Instruction.isTerminator ∧
    (shape.apply code).getLast?.any Instruction.isTerminator = code.getLast?.any Instruction.isTerminator ∧
    (shape.apply code).filter (fun instruction => !instruction.servesReturn) =
      code.filter (fun instruction => !instruction.servesReturn) ∧
    shape.apply (shape.apply code) = shape.apply code ∧
    ∀ first second, shape.apply (first ++ second) = shape.apply first ++ shape.apply second ↔
      ¬(shape = noValue ∧ first.getLast? = some .pushNull ∧ second.head? = some .returnValue) := by
  refine ⟨fun hmem => ?_, fun hmem => ?_, countP_apply shape code, apply_returns shape code, filter_apply shape code,
    apply_apply shape code, fun first second => apply_append_iff⟩
  · cases eq_exit_of_mem_apply hmem rfl
  · cases eq_exit_of_mem_apply hmem rfl

end ReturnShape

end MethodLowering
