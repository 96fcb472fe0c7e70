import MethodLowering.Text.Parse

/-!
# What parsers read

A parser gives back the text behind what it reads. Where a reading does not depend on that text, it can be put together
from the readings of its parts.

* `Parse.Reads` -- a parser reads a text as a value wherever what follows is admitted;
* `Parse.bind_of_some`, `Parse.orElse_of_none` and others -- one step of a parser;
* `Parse.StopsAt`, `Parse.reads_takeWhile1` -- characters with a property, up to where they end;
* `Parse.upTo_flatMap`, `Parse.many_flatMap` -- **what is repeated is read item by item.**
-/

namespace MethodLowering

namespace Parse

variable {α β ι : Type}

/-- **A parser reads a text as a value**, whatever follows among what is admitted. -/
def Reads (admits : List Char → Prop) (parser : Parse α) (text : List Char) (value : α) : Prop :=
  ∀ rest, admits rest → parser (text ++ rest) = some (value, rest)

/-- Anything may follow. -/
def Anything : List Char → Prop :=
  fun _ => True

/-! ## 1. One step -/

variable {admits : List Char → Prop} {parser : Parse α} {next : α → Parse β} {text rest : List Char} {value : α}

theorem bind_of_some (h : parser text = some (value, rest)) : (parser >>= next) text = next value rest := by
  simp only [bind, h]

theorem bind_of_none (h : parser text = none) : (parser >>= next) text = none := by
  simp only [bind, h]

theorem orElse_of_some {first second : Parse α} (h : first text = some (value, rest)) :
    (first <|> second) text = some (value, rest) := by
  simp only [HOrElse.hOrElse, OrElse.orElse, orElse, h]

theorem orElse_of_none {first second : Parse α} (h : first text = none) : (first <|> second) text = second text := by
  simp only [HOrElse.hOrElse, OrElse.orElse, orElse, h]

/-! ## 2. Characters -/

/-- Characters with a property end here. -/
def StopsAt (property : Char → Bool) (rest : List Char) : Prop :=
  ∀ c ∈ rest.head?, property c = false

theorem StopsAt.satisfy {property : Char → Bool} (h : StopsAt property rest) : satisfy property rest = none := by
  cases rest with
  | nil => rfl
  | cons c others =>
    have hc : ¬property c = true := Bool.eq_false_iff.mp (h c rfl)
    rw [Parse.satisfy, if_neg hc]

theorem StopsAt.takeWhile {property : Char → Bool} (h : StopsAt property rest) :
    rest.takeWhile property = [] ∧ rest.dropWhile property = rest := by
  cases rest with
  | nil => exact ⟨rfl, rfl⟩
  | cons c others =>
    have hc : property c = false := h c rfl
    simp [hc]

theorem satisfy_cons {property : Char → Bool} {c : Char} (h : property c) (rest : List Char) :
    satisfy property (c :: rest) = some (c, rest) := by
  rw [satisfy, if_pos h]

theorem char_cons (c : Char) (rest : List Char) : char c (c :: rest) = some ((), rest) := by
  have hsatisfy : satisfy (· == c) (c :: rest) = some (c, rest) := satisfy_cons (beq_self_eq_true c) rest
  rw [char, bind_of_some hsatisfy]
  rfl

theorem char_of_ne {c : Char} (h : text.head? ≠ some c) : char c text = none := by
  have hstops : StopsAt (· == c) text := fun other hother => beq_false_of_ne fun heq => h (heq ▸ hother)
  rw [char, bind_of_none hstops.satisfy]

theorem maybe_of_some (h : parser text = some (value, rest)) : maybe parser text = some (some value, rest) :=
  orElse_of_some (bind_of_some h)

theorem maybe_of_none (h : parser text = none) : maybe parser text = some (none, text) :=
  orElse_of_none (bind_of_none h)

/-- Characters with a property are read up to where they end. -/
theorem reads_takeWhile1 {property : Char → Bool} {c : Char} {others : List Char}
    (h : ∀ other ∈ c :: others, property other) :
    Reads (StopsAt property) (takeWhile1 property) (c :: others) (c :: others) := by
  intro rest hrest
  obtain ⟨htake, hdrop⟩ := hrest.takeWhile
  have hothers : ∀ other ∈ others, property other := fun other hother => h other (List.mem_cons_of_mem _ hother)
  have hread : Parse.takeWhile property (others ++ rest) = some (others, rest) := by
    rw [Parse.takeWhile, List.takeWhile_append_of_pos hothers, List.dropWhile_append_of_pos hothers, htake, hdrop,
      List.append_nil]
  rw [takeWhile1, List.cons_append, bind_of_some (satisfy_cons (h c List.mem_cons_self) _), bind_of_some hread]
  rfl

/-- So many characters with a property are read as they are. -/
theorem reads_exactly {property : Char → Bool} {text : List Char} (h : ∀ c ∈ text, property c) :
    Reads Anything (exactly text.length property) text text := by
  intro rest _
  induction text with
  | nil => rfl
  | cons c others ih =>
    have hothers := ih fun other hother => h other (List.mem_cons_of_mem _ hother)
    rw [List.length_cons, exactly, List.cons_append, bind_of_some (satisfy_cons (h c List.mem_cons_self) _),
      bind_of_some hothers]
    rfl

/-! ## 3. Repetition -/

/-- **What is repeated is read item by item**, up to where the parser fails. -/
theorem upTo_flatMap {write : ι → List Char} {value : ι → α} {items : List ι}
    (hitem : ∀ item ∈ items, Reads admits parser (write item) (value item))
    (hadmits : ∀ item ∈ items, ∀ rest, admits (write item ++ rest)) (hrest : admits rest) (hend : parser rest = none)
    (bound : Nat) (hbound : items.length ≤ bound) :
    upTo bound parser (items.flatMap write ++ rest) = some (items.map value, rest) := by
  induction items generalizing bound with
  | nil =>
    cases bound with
    | zero => rfl
    | succ bound => exact orElse_of_none (bind_of_none hend)
  | cons item others ih =>
    have hothers := ih (fun other hother => hitem other (List.mem_cons_of_mem _ hother))
      fun other hother => hadmits other (List.mem_cons_of_mem _ hother)
    cases bound with
    | zero => cases hbound
    | succ bound =>
      have hafter : admits (others.flatMap write ++ rest) := by
        cases others with
        | nil => exact hrest
        | cons other _ =>
          rw [List.flatMap_cons, List.append_assoc]
          exact hadmits other (List.mem_cons_of_mem _ List.mem_cons_self) _
      have hfirst := hitem item List.mem_cons_self _ hafter
      rw [List.flatMap_cons, List.append_assoc, upTo]
      refine orElse_of_some ?_
      rw [bind_of_some hfirst, bind_of_some (hothers bound (Nat.le_of_succ_le_succ hbound))]
      rfl

/-- Items that have characters are at most as many as these. -/
theorem length_le_length_flatMap {write : ι → List Char} {items : List ι} (h : ∀ item ∈ items, write item ≠ []) :
    items.length ≤ (items.flatMap write).length := by
  induction items with
  | nil => exact Nat.zero_le _
  | cons item others ih =>
    have hothers := ih fun other hother => h other (List.mem_cons_of_mem _ hother)
    have hitem : 0 < (write item).length := List.length_pos_iff.mpr (h item List.mem_cons_self)
    rw [List.flatMap_cons, List.length_append, List.length_cons]
    omega

/-- The same without a bound, since each item has a character. -/
theorem many_flatMap {write : ι → List Char} {value : ι → α} {items : List ι}
    (hitem : ∀ item ∈ items, Reads admits parser (write item) (value item))
    (hadmits : ∀ item ∈ items, ∀ rest, admits (write item ++ rest)) (hwrite : ∀ item ∈ items, write item ≠ [])
    (hrest : admits rest) (hend : parser rest = none) :
    many parser (items.flatMap write ++ rest) = some (items.map value, rest) := by
  refine upTo_flatMap hitem hadmits hrest hend _ ?_
  rw [List.length_append]
  exact Nat.le_trans (length_le_length_flatMap hwrite) (Nat.le_add_right _ _)

end Parse

end MethodLowering
