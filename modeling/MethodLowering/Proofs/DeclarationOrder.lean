import Mathlib.Data.List.Pairwise
import MethodLowering.Signature.ParameterList

/-!
# The order of declaration

A list of parameters is checked one parameter after the other. What passes is what is in order, and blocks of rising
rank are in order.

* `ParameterList.ofList_eq_ok_iff` -- the check accepts exactly what is in order;
* `Parameter.OfRank`, `Parameter.ordered_blocks` -- parameters of one rank, and blocks that stand at the places of their
  ranks.
-/

namespace MethodLowering

/-! ## 1. The check of a list -/

namespace ParameterList

theorem Seen.admits_start (parameter : Parameter) : ({} : Seen).Admits parameter := by
  refine ⟨by simp, Nat.zero_le _, fun hvariadic => ?_⟩
  obtain ⟨name, kind, hint, default⟩ := parameter
  cases kind with
  | varPositional => exact Nat.zero_lt_succ 1
  | varKeyword => exact Nat.zero_lt_succ 3
  | positionalOrKeyword | keywordOnly => cases hvariadic

/-- **The check of a list accepts exactly what is in order**, and changes nothing. -/
theorem ofList_eq_ok_iff {parameters : List Parameter} {list : ParameterList} :
    ofList parameters = .ok list ↔ list.toList = parameters := by
  unfold ofList
  split
  · constructor
    · intro h
      cases h
      rfl
    · rintro rfl
      rfl
  · rename_i fault hfault
    constructor
    · exact nofun
    · rintro rfl
      have hadmits : ∀ parameter ∈ list.toList, ({} : Seen).Admits parameter :=
        fun parameter _ => Seen.admits_start parameter
      obtain ⟨after, hafter⟩ := (Seen.foldlM_add_eq_ok_iff list.toList {}).mpr ⟨hadmits, list.wellOrdered⟩
      rw [hafter] at hfault
      cases hfault

end ParameterList

/-! ## 2. Blocks of one rank -/

namespace Parameter

/-- Parameters of one rank, of which a variadic one stands alone. -/
structure OfRank (rank : Nat) (parameters : List Parameter) : Prop where
  rank_eq : ∀ parameter ∈ parameters, parameter.rank = rank
  alone : (∀ parameter ∈ parameters, ¬parameter.kind.isVariadic) ∨ parameters.length ≤ 1

theorem OfRank.ordered {rank : Nat} {parameters : List Parameter} (h : OfRank rank parameters) :
    parameters.Pairwise Precedes := by
  rcases h.alone with hplain | hone
  · refine List.pairwise_of_forall_mem_list fun first hfirst second hsecond => ⟨?_, fun hvariadic => ?_⟩
    · exact Nat.le_of_eq ((h.rank_eq first hfirst).trans (h.rank_eq second hsecond).symm)
    · exact absurd hvariadic (hplain second hsecond)
  · cases parameters with
    | nil => exact .nil
    | cons first rest =>
      obtain rfl : rest = [] := List.length_eq_zero_iff.mp (Nat.le_zero.mp (Nat.le_of_succ_le_succ hone))
      exact List.pairwise_singleton _ _

/-- **Blocks are in order where each has its place for its rank.** -/
theorem ordered_blocks {blocks : List (List Parameter)} (start : Nat)
    (h : ∀ place block, blocks[place]? = some block → OfRank (start + place) block) :
    blocks.flatten.Pairwise Precedes := by
  induction blocks generalizing start with
  | nil => exact .nil
  | cons block rest ih =>
    have hblock : OfRank start block := h 0 block rfl
    have hrest : ∀ place other, rest[place]? = some other → OfRank (start + 1 + place) other := by
      intro place other hother
      rw [Nat.add_assoc, Nat.add_comm 1]
      exact h (place + 1) other hother
    rw [List.flatten_cons]
    refine List.pairwise_append.mpr ⟨hblock.ordered, ih (start + 1) hrest, fun first hfirst second hsecond => ?_⟩
    obtain ⟨other, hother, hmem⟩ := List.mem_flatten.mp hsecond
    obtain ⟨place, hplace⟩ := List.getElem?_of_mem hother
    have hlt : first.rank < second.rank := by
      rw [hblock.rank_eq first hfirst, (hrest place other hplace).rank_eq second hmem]
      omega
    exact ⟨Nat.le_of_lt hlt, fun _ => hlt⟩

end Parameter

end MethodLowering
