import MethodLowering.Proofs.JsonForms
import MethodLowering.Proofs.ParameterGrammar
import MethodLowering.Signature.Forms

/-!
# Parameters that are read back

A parameter is written without what it does not have, and a member that is null is read as one left off. So a default
that is itself written as null is lost: the constant for no value, and a double that is no number or infinite. All else
is read back. A positional parameter whose default is lost has to stand in front of those that keep theirs, and a list
that was in order need not be afterwards.

* `Constant.isNull`, `Parameter.reread` -- what is written as null, and what is left of a parameter;
* `Parameter.ofJson?_toJson` -- a parameter is read back without such a default;
* `Parameter.LosesPlace`, `Parameter.precedes_reread_iff` -- which two parameters are then out of order;
* `ParameterList.reread_exact` -- **what reading back keeps of a parameter, and which lists are still accepted.**
-/

namespace MethodLowering

/-! ## 1. Hints and kinds -/

theorem TypeHint.nullable_toJson (hint : Option TypeHint) :
    Json.nullable (hint.map toJson) ofJson? = some hint := by
  cases hint with
  | none => rfl
  | some hint => cases hint <;> rfl

theorem Parameter.Kind.ofJson?_name (kind : Kind) : ofJson? (.string kind.name) = some kind := by
  cases kind <;> rfl

/-! ## 2. Constants -/

namespace Constant

/-- Whether a constant is written as null: the one for no value, and a double that is no number or infinite. -/
def isNull : Constant → Bool
  | none => true
  | float value => !value.isFinite
  | bool _ | int _ | str _ => false

/-- A number of 64 bits is read as itself, not as a double. -/
theorem ofInt?_toInt (value : Int64) : ofInt? value.toInt = some (int value) := by
  rw [ofInt?, if_pos ⟨value.minValue_le_toInt, value.toInt_le⟩, Int64.ofInt_toInt]

/-- **As a member that may be null, a constant is read back unless it is written as null.** -/
theorem nullable_toJson (constant : Option Constant) :
    Json.nullable (constant.map toJson) ofJson? = some (constant.filter (!·.isNull)) := by
  cases constant with
  | none => rfl
  | some constant =>
    cases constant with
    | none | bool value | str value => rfl
    | int value => exact congrArg (Option.map some) (ofInt?_toInt value)
    | float value =>
      have hnull : (float value).isNull = !value.isFinite := rfl
      cases hfinite : value.isFinite with
      | true => simp [Json.nullable, toJson, ofJson?, Option.filter, hnull, hfinite]
      | false => simp [Json.nullable, toJson, Option.filter, hnull, hfinite]

end Constant

/-! ## 3. Parameters -/

namespace Parameter

/-- Whether the default of a parameter is written as null. -/
def hasNullDefault (parameter : Parameter) : Bool :=
  parameter.default.any Constant.isNull

/-- What is left of a parameter: all of it but a default that is written as null. -/
def reread (parameter : Parameter) : Parameter :=
  { parameter with default := parameter.default.filter (!·.isNull) }

/-- The members of a parameter, each if it is there. -/
def members (parameter : Parameter) : List (String × Option Json) :=
  [("name", some (.string parameter.name)), ("kind", some (.string parameter.kind.name)),
    ("annotation", parameter.hint.map TypeHint.toJson), ("default", parameter.default.map Constant.toJson)]

theorem toJson_eq (parameter : Parameter) :
    parameter.toJson = .object (Bindings.present parameter.members).entries := by
  obtain ⟨name, kind, hint, default⟩ := parameter
  cases hint <;> cases default <;> rfl

/-- **A parameter is read back without a default that is written as null.** -/
theorem ofJson?_toJson (parameter : Parameter) : ofJson? parameter.toJson = some parameter.reread := by
  have hfields : parameter.toJson.fields? ["name", "kind", "annotation", "default"] =
      some (parameter.members.map Prod.snd) := by
    rw [toJson_eq]
    exact Json.fields?_present parameter.members rfl (by decide)
  simp [ofJson?, hfields, members, Json.required, Json.string?, Kind.ofJson?_name, TypeHint.nullable_toJson,
    Constant.nullable_toJson, reread]

theorem hasDefault_reread (parameter : Parameter) :
    parameter.reread.hasDefault = (parameter.hasDefault && !parameter.hasNullDefault) := by
  obtain ⟨name, kind, hint, default⟩ := parameter
  cases default with
  | none => rfl
  | some constant => cases h : constant.isNull <;> simp [reread, hasDefault, hasNullDefault, h]

theorem hasDefault_of_hasNullDefault {parameter : Parameter} (h : parameter.hasNullDefault) : parameter.hasDefault := by
  obtain ⟨name, kind, hint, default⟩ := parameter
  cases default with
  | none => cases h
  | some constant => rfl

theorem reread_eq_self_iff {parameter : Parameter} : parameter.reread = parameter ↔ ¬parameter.hasNullDefault := by
  constructor
  · intro hsame hnull
    have hdefault := hasDefault_reread parameter
    rw [hsame, hasDefault_of_hasNullDefault hnull, hnull] at hdefault
    cases hdefault
  · intro hnull
    obtain ⟨name, kind, hint, default⟩ := parameter
    cases default with
    | none => rfl
    | some constant => simp_all [reread, hasNullDefault]

theorem hasDefault_reread_eq_iff {parameter : Parameter} :
    parameter.reread.hasDefault = parameter.hasDefault ↔ ¬parameter.hasNullDefault := by
  constructor
  · intro hsame hnull
    rw [hasDefault_reread, hasDefault_of_hasNullDefault hnull, hnull] at hsame
    cases hsame
  · intro hnull
    rw [reread_eq_self_iff.mpr hnull]

/-- A positional parameter whose default is lost goes to the first block; no other changes its place. -/
theorem rank_reread (parameter : Parameter) :
    parameter.reread.rank =
      if parameter.kind = .positionalOrKeyword ∧ parameter.hasNullDefault then 0 else parameter.rank := by
  have hdefault := hasDefault_reread parameter
  have hkind : parameter.reread.kind = parameter.kind := rfl
  unfold rank
  rw [hkind]
  cases parameter.kind <;> cases h : parameter.hasNullDefault <;> simp_all

theorem rank_reread_eq_iff {parameter : Parameter} :
    parameter.reread.rank = parameter.rank ↔
      ¬(parameter.kind = .positionalOrKeyword ∧ parameter.hasNullDefault) := by
  rw [rank_reread]
  constructor
  · intro hsame hlost
    rw [if_pos hlost] at hsame
    have hplain := parameter.rank_iff.1.mp hsame.symm
    exact hplain.2 (hasDefault_of_hasNullDefault hlost.2)
  · intro hkept
    rw [if_neg hkept]

theorem rank_reread_le (parameter : Parameter) : parameter.reread.rank ≤ parameter.rank := by
  rw [rank_reread]
  split
  · exact Nat.zero_le _
  · exact Nat.le_refl _

/-! ## 4. The order of parameters -/

/-- Two positional parameters with default, of which only the second loses it: it then has to stand in front. -/
def LosesPlace (first second : Parameter) : Prop :=
  first.kind = .positionalOrKeyword ∧ first.hasDefault ∧ ¬first.hasNullDefault ∧
    second.kind = .positionalOrKeyword ∧ second.hasNullDefault

/-- **Two parameters in order stay so unless the second loses its place.** -/
theorem precedes_reread_iff {first second : Parameter} (h : first.Precedes second) :
    first.reread.Precedes second.reread ↔ ¬LosesPlace first second := by
  have hle := first.rank_reread_le
  by_cases hlost : second.kind = .positionalOrKeyword ∧ second.hasNullDefault
  · -- the second moves to the first block, so the first has to be there too
    have hsecond : second.rank = 1 :=
      second.rank_iff.2.1.mpr ⟨hlost.1, hasDefault_of_hasNullDefault hlost.2⟩
    have hreread : second.reread.rank = 0 := by rw [rank_reread, if_pos hlost]
    have hvariadic : ¬second.reread.kind.isVariadic := by
      rw [show second.reread.kind = second.kind from rfl, hlost.1]
      exact Bool.false_ne_true
    have hfirst : first.kind = .positionalOrKeyword := by
      have hrank : first.rank = 0 ∨ first.rank = 1 := by
        have hfirst := h.1
        omega
      rcases hrank with hrank | hrank
      · exact (first.rank_iff.1.mp hrank).1
      · exact (first.rank_iff.2.1.mp hrank).1
    have hprecedes : first.reread.Precedes second.reread ↔ first.reread.rank = 0 := by
      rw [Precedes, hreread, Nat.le_zero]
      exact and_iff_left fun htrue => absurd htrue hvariadic
    have hplain : first.reread.rank = 0 ↔ ¬(first.hasDefault ∧ ¬first.hasNullDefault) := by
      rw [first.reread.rank_iff.1, hasDefault_reread, Bool.and_eq_true, Bool.not_eq_true', ← Bool.not_eq_true]
      exact and_iff_right hfirst
    rw [hprecedes, hplain, LosesPlace]
    simp only [hfirst, hlost, true_and, and_true]
  · have hreread : second.reread.rank = second.rank := rank_reread_eq_iff.mpr hlost
    refine iff_of_true ⟨?_, fun hvariadic => ?_⟩ fun hloses => hlost hloses.2.2.2
    · have hordered := h.1
      omega
    · have hordered := h.2 hvariadic
      omega

/-- **A list in order stays so if and only if none of its parameters loses its place.** -/
theorem wellOrdered_map_reread_iff {parameters : List Parameter} (h : WellOrdered parameters) :
    WellOrdered (parameters.map reread) ↔
      parameters.Pairwise fun first second => ¬LosesPlace first second := by
  constructor
  · intro hreread
    have hordered := List.pairwise_map.mp hreread.ordered
    exact h.ordered.imp₂ (fun _ _ hprecedes hboth => (precedes_reread_iff hprecedes).mp hboth) hordered
  · intro hkept
    refine ⟨List.pairwise_map.mpr h.distinct, List.pairwise_map.mpr ?_, List.forall_mem_map.mpr ?_⟩
    · exact h.ordered.imp₂ (fun _ _ hprecedes hboth => (precedes_reread_iff hprecedes).mpr hboth) hkept
    · intro parameter hmem hvariadic hdefault
      rw [hasDefault_reread, Bool.and_eq_true] at hdefault
      exact h.plain parameter hmem hvariadic hdefault.1

end Parameter

namespace ParameterList

open Parameter (LosesPlace)

theorem exists_ofList_iff_wellOrdered {parameters : List Parameter} :
    (∃ list, ofList parameters = .ok list) ↔ Parameter.WellOrdered parameters := by
  rw [exists_ofList_iff, Parameter.grammatical_iff]

/-- **What reading back keeps of a parameter, and which lists are still accepted.** A parameter is read back as it was,
with or without default as it was, if and only if its default is not written as null; its rank changes only if it is
positional too. The parameters of a list are all read back, and are accepted again if and only if none with a lost
default stands behind a positional one that keeps its own. -/
theorem reread_exact (parameter : Parameter) (list : ParameterList) :
    (Parameter.ofJson? parameter.toJson = some parameter.reread ∧
      (parameter.reread = parameter ↔ ¬parameter.hasNullDefault) ∧
      (parameter.reread.hasDefault = parameter.hasDefault ↔ ¬parameter.hasNullDefault) ∧
      (parameter.reread.rank = parameter.rank ↔
        ¬(parameter.kind = .positionalOrKeyword ∧ parameter.hasNullDefault))) ∧
    ofList list.toList = .ok list ∧
    (list.toList.map Parameter.toJson).mapM Parameter.ofJson? = some (list.toList.map Parameter.reread) ∧
    ((∃ after, ofList (list.toList.map Parameter.reread) = .ok after) ↔
      list.toList.Pairwise fun first second => ¬LosesPlace first second) := by
  refine ⟨⟨parameter.ofJson?_toJson, Parameter.reread_eq_self_iff, Parameter.hasDefault_reread_eq_iff,
    Parameter.rank_reread_eq_iff⟩, ofList_eq_ok_iff.mpr rfl, ?_, ?_⟩
  · exact mapM_map_eq_some fun parameter _ => parameter.ofJson?_toJson
  · rw [exists_ofList_iff_wellOrdered]
    exact Parameter.wellOrdered_map_reread_iff list.wellOrdered

/-- A default of one, and behind it a default that stands for no value. -/
def nullBehindOne : List Parameter :=
  [{ Parameter.positional "a" with default := some (.int 1) }, { Parameter.positional "b" with default := some .none }]

/-- **The second of these parameters is not read back, and the list is accepted only before.** -/
theorem nullBehindOne_refused :
    (∃ list, ofList nullBehindOne = .ok list) ∧
      (nullBehindOne.map Parameter.toJson).mapM Parameter.ofJson? =
        some [{ Parameter.positional "a" with default := some (.int 1) }, Parameter.positional "b"] ∧
      ofList [{ Parameter.positional "a" with default := some (.int 1) }, Parameter.positional "b"] =
        .error (.outOfOrder "b" .positionalOrKeyword) := by
  have hordered : nullBehindOne.Pairwise Parameter.Precedes := List.pairwise_pair.mpr ⟨by decide, by decide⟩
  exact ⟨exists_ofList_iff_wellOrdered.mpr ⟨by decide, hordered, by decide⟩, rfl, ofList_eq_error_iff.mpr (by cbv)⟩

end ParameterList

end MethodLowering
