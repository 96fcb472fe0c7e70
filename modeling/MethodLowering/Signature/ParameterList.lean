import MethodLowering.Signature.Fault
import Std.Data.HashSet

/-!
# Parameter lists

Parameters in order of declaration: positional ones without and then with default, at most one for the positional
arguments left, keyword-only ones, at most one for the named arguments left; all names differ.

* `Parameter.WellOrdered` -- what a list of parameters must be, and `ParameterList`, the lists that are;
* `ParameterList.ofList` -- the list of given parameters, or the first fault;
* `ParameterList.withoutReceiver?` -- the list behind its first parameter;
* `ParameterList.varPositional?`, `ParameterList.varKeyword?` -- its variadic parameters.
-/

namespace MethodLowering

/-! ## 1. The order of declaration -/

namespace Parameter

/-- Whether one parameter may stand somewhere in front of another: its rank is not higher, and lower where the other is
variadic. -/
def Precedes (first second : Parameter) : Prop :=
  first.rank ≤ second.rank ∧ (second.kind.isVariadic → first.rank < second.rank)

/-- **What a list of parameters must be.** -/
structure WellOrdered (parameters : List Parameter) : Prop where
  /-- All names differ. -/
  distinct : parameters.Pairwise fun first second => first.name ≠ second.name
  /-- Each parameter may stand in front of those behind it. -/
  ordered : parameters.Pairwise Precedes
  /-- A variadic parameter takes what is left, so it has no default. -/
  plain : ∀ parameter ∈ parameters, parameter.kind.isVariadic → ¬parameter.hasDefault

/-- The order holds behind the first parameter. -/
theorem WellOrdered.tail {first : Parameter} {rest : List Parameter} (h : WellOrdered (first :: rest)) :
    WellOrdered rest where
  distinct := h.distinct.tail
  ordered := h.ordered.tail
  plain parameter member := h.plain parameter (List.mem_cons_of_mem _ member)

end Parameter

/-- Parameters in order of declaration. -/
structure ParameterList where
  toList : List Parameter
  wellOrdered : Parameter.WellOrdered toList
  deriving DecidableEq, Repr

namespace ParameterList

/-! ## 2. Making a list -/

/-- What has been seen of a list: the names, and the rank of the last parameter. -/
structure Seen where
  names : Std.HashSet String := ∅
  rank : Nat := 0

/-- Checks the next parameter: its name is new, its rank is not lower than the last, and if it is variadic its rank is
higher and it has no default. -/
def Seen.add (seen : Seen) (parameter : Parameter) : Except SignatureFault Seen :=
  if seen.names.contains parameter.name then
    .error (.duplicateName parameter.name)
  else if parameter.rank < seen.rank then
    .error (.outOfOrder parameter.name parameter.kind)
  else if parameter.kind.isVariadic ∧ parameter.rank = seen.rank then
    .error (.repeatedVariadic parameter.kind)
  else if parameter.kind.isVariadic ∧ parameter.hasDefault then
    .error (.variadicDefault parameter.name)
  else
    .ok { names := seen.names.insert parameter.name, rank := parameter.rank }

/-- Whether a parameter may stand behind what has been seen. -/
def Seen.Admits (seen : Seen) (parameter : Parameter) : Prop :=
  parameter.name ∉ seen.names ∧ seen.rank ≤ parameter.rank ∧
    (parameter.kind.isVariadic → seen.rank < parameter.rank)

/-- A parameter passes the check if and only if it may stand there and is not variadic with a default. -/
theorem Seen.add_eq_ok_iff {seen next : Seen} {parameter : Parameter} :
    seen.add parameter = .ok next ↔
      (seen.Admits parameter ∧ (parameter.kind.isVariadic → ¬parameter.hasDefault)) ∧
        next = { names := seen.names.insert parameter.name, rank := parameter.rank } := by
  unfold Seen.add Seen.Admits
  rw [← Std.HashSet.contains_iff_mem]
  grind

/-- Behind a parameter that has been seen, what may stand is what may stand behind it and all before it. -/
theorem Seen.admits_insert_iff {seen : Seen} {first second : Parameter} (h : seen.Admits first) :
    Seen.Admits { names := seen.names.insert first.name, rank := first.rank } second ↔
      seen.Admits second ∧ first.name ≠ second.name ∧ first.Precedes second := by
  unfold Seen.Admits Parameter.Precedes at *
  simp only [Std.HashSet.mem_insert, beq_iff_eq]
  grind

/-- **A list passes the checks behind what has been seen if and only if it is well ordered and each of its parameters
may stand there.** -/
theorem Seen.foldlM_add_eq_ok_iff (parameters : List Parameter) (seen : Seen) :
    (∃ after, parameters.foldlM Seen.add seen = .ok after) ↔
      (∀ parameter ∈ parameters, seen.Admits parameter) ∧ Parameter.WellOrdered parameters := by
  induction parameters generalizing seen with
  | nil => exact ⟨fun _ => ⟨by simp, ⟨.nil, .nil, by simp⟩⟩, fun _ => ⟨seen, rfl⟩⟩
  | cons first rest ih =>
    rw [List.foldlM_cons]
    constructor
    · intro ⟨after, h⟩
      cases hadd : seen.add first with
      | error fault => rw [hadd] at h; cases h
      | ok next =>
        rw [hadd] at h
        obtain ⟨⟨hadmits, hplain⟩, rfl⟩ := Seen.add_eq_ok_iff.1 hadd
        obtain ⟨hrest, hordered⟩ := (ih _).1 ⟨after, h⟩
        have hbehind := fun p hp => (Seen.admits_insert_iff hadmits).1 (hrest p hp)
        exact ⟨List.forall_mem_cons.2 ⟨hadmits, fun p hp => (hbehind p hp).1⟩,
          List.pairwise_cons.2 ⟨fun p hp => (hbehind p hp).2.1, hordered.distinct⟩,
          List.pairwise_cons.2 ⟨fun p hp => (hbehind p hp).2.2, hordered.ordered⟩,
          List.forall_mem_cons.2 ⟨hplain, hordered.plain⟩⟩
    · intro ⟨hall, hordered⟩
      have hadmits := hall first List.mem_cons_self
      have hadd := Seen.add_eq_ok_iff.2 ⟨⟨hadmits, hordered.plain first List.mem_cons_self⟩, rfl⟩
      rw [hadd]
      refine (ih _).2 ⟨fun p hp => (Seen.admits_insert_iff hadmits).2 ⟨hall p (List.mem_cons_of_mem _ hp), ?_, ?_⟩,
        hordered.tail⟩
      · exact (List.pairwise_cons.1 hordered.distinct).1 p hp
      · exact (List.pairwise_cons.1 hordered.ordered).1 p hp

/-- A list that passes the checks from the start is well ordered. -/
theorem wellOrdered_of_foldlM {parameters : List Parameter} {after : Seen}
    (h : parameters.foldlM Seen.add {} = .ok after) : Parameter.WellOrdered parameters :=
  ((Seen.foldlM_add_eq_ok_iff parameters {}).1 ⟨after, h⟩).2

/-- **The list of given parameters, or the first fault.** -/
def ofList (parameters : List Parameter) : Except SignatureFault ParameterList :=
  match h : parameters.foldlM Seen.add {} with
  | .ok _ => .ok ⟨parameters, wellOrdered_of_foldlM h⟩
  | .error fault => .error fault

/-- The list without parameters. -/
def empty : ParameterList :=
  ⟨[], .nil, .nil, by simp⟩

/-- The list of one positional parameter. -/
def single (name : String) (hint : TypeHint) : ParameterList :=
  ⟨[{ Parameter.positional name with hint := some hint }], List.pairwise_singleton _ _, List.pairwise_singleton _ _,
    by simp [Parameter.positional, Parameter.Kind.isVariadic]⟩

/-! ## 3. Looking at a list -/

/-- The number of parameters. -/
def size (list : ParameterList) : Nat :=
  list.toList.length

/-- Whether there is no parameter. -/
def isEmpty (list : ParameterList) : Bool :=
  list.toList.isEmpty

/-- The parameter at an index. -/
def get? (list : ParameterList) (index : Nat) : Option Parameter :=
  list.toList[index]?

/-- The first parameter. -/
def first? (list : ParameterList) : Option Parameter :=
  list.toList.head?

/-- The names in order. -/
def names (list : ParameterList) : List String :=
  list.toList.map (·.name)

/-- The kinds in order. -/
def kinds (list : ParameterList) : List Parameter.Kind :=
  list.toList.map (·.kind)

/-- The list behind its first parameter, the receiver. -/
def withoutReceiver? : ParameterList → Option ParameterList
  | ⟨[], _⟩ => none
  | ⟨_ :: rest, h⟩ => some ⟨rest, h.tail⟩

/-- The parameter for the positional arguments left. -/
def varPositional? (list : ParameterList) : Option Parameter :=
  list.toList.find? (·.kind == .varPositional)

/-- The parameter for the named arguments left. -/
def varKeyword? (list : ParameterList) : Option Parameter :=
  list.toList.find? (·.kind == .varKeyword)

end ParameterList

end MethodLowering
