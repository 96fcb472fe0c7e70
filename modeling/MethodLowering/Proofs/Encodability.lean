import MethodLowering.Proofs.EncodingEffects
import MethodLowering.Proofs.FrameByPosition
import MethodLowering.Proofs.LoweringOutcome

/-!
# Which methods can be encoded

An operation holds constants of 16 bits, and a frame has more slots than that has positive numbers. So the code of a
method is encoded exactly if the constants of its body fit and the positions of its parameters do.

* `Prologue.layout_fits`, `Prologue.layout_unfit` -- a prologue fits up to a number of parameters, and no further;
* `Callable.encode_lower` -- **which methods are encoded.**
-/

namespace MethodLowering

/-! ## 1. The positions of parameters -/

/-- A position fits in 16 bits with a sign. -/
theorem fitsWord_ofNat_iff {index : Nat} (h : index < 65536) : FitsWord (Int32.ofNat index) ↔ index < 32768 := by
  have hvalue : (Int32.ofNat index).toInt = index := Int32.toInt_ofNat_of_lt (show index < 2 ^ 31 by omega)
  rw [FitsWord, hvalue]
  omega

theorem not_fitsWord_limit : ¬FitsWord 32768 := by
  have hlimit : FitsWord (Int32.ofNat 32768) ↔ 32768 < 32768 := fitsWord_ofNat_iff (by decide)
  exact fun h => Nat.lt_irrefl _ (hlimit.mp h)

namespace Prologue

theorem moves_fit {pairs : List (Nat × UInt16)} (h : ∀ pair ∈ pairs, pair.1 < 32768) (container : UInt16) :
    ∀ instruction ∈ pairs.flatMap fun (index, slot) => move container index slot, instruction.Fits := by
  intro instruction hmem value hvalue
  subst hvalue
  obtain ⟨⟨index, slot⟩, hpair, hmove⟩ := List.mem_flatMap.mp hmem
  have hindex : index < 32768 := h _ hpair
  simp only [move, List.mem_cons, List.not_mem_nil, reduceCtorEq, Instruction.pushInt.injEq, false_or, or_false]
    at hmove
  rw [hmove]
  exact (fitsWord_ofNat_iff (by omega)).mpr hindex

/-- Positions below a bound come first. -/
theorem transfers_eq_append {position count : Nat} (h : position < count) (hasReceiver : Bool) :
    ∃ rest, transfers hasReceiver count = transfers hasReceiver position ++
      (position, UInt16.ofNat (hasReceiver.toNat + 2 + position)) :: rest := by
  obtain ⟨behind, rfl⟩ := Nat.exists_eq_add_of_lt h
  unfold transfers
  rw [Nat.add_assoc, List.range_add, List.range_succ_eq_map, List.map_cons, List.map_append, List.map_cons,
    ← List.append_assoc]
  exact ⟨_, rfl⟩

theorem position_lt_of_mem_transfers {hasReceiver : Bool} {count bound : Nat} (hbound : 0 < bound)
    (hcount : count ≤ bound) : ∀ pair ∈ transfers hasReceiver count, pair.1 < bound := by
  rintro ⟨index, slot⟩ hmem
  rcases mem_transfers.mp hmem with ⟨_, rfl, _⟩ | ⟨hindex, _⟩
  · exact hbound
  · exact Nat.lt_of_lt_of_le hindex hcount

variable {kind : CallableKind} {count : Nat}

/-- A prologue fits up to a number of parameters. -/
theorem layout_fits (h : kind = .entryPoint ∨ count ≤ 32768) (initializer : Option MethodRef) :
    ∀ instruction ∈ layout kind count initializer, instruction.Fits := by
  intro instruction hmem
  rcases h with hkind | hcount
  · rw [layout, if_pos hkind] at hmem
    cases hmem
  · rcases mem_layout hmem with ⟨index, slot, hpair, hmove⟩ | ⟨_, rfl | ⟨method, rfl⟩⟩
    · have hpairs := position_lt_of_mem_transfers (by decide) hcount (index, slot) hpair
      exact moves_fit (List.forall_mem_singleton.mpr hpairs) _ instruction (List.mem_flatMap.mpr
        ⟨(index, slot), List.mem_singleton_self _, hmove⟩)
    · exact nofun
    · exact nofun

/-- Beyond it, the first constant that does not fit is the position behind all that do. -/
theorem layout_unfit (hkind : kind ≠ .entryPoint) (hcount : 32768 < count) (initializer : Option MethodRef) :
    ∃ front back, layout kind count initializer = front ++ .pushInt 32768 :: back ∧
      ∀ instruction ∈ front, instruction.Fits := by
  obtain ⟨rest, hrest⟩ := transfers_eq_append hcount kind.hasReceiver
  refine ⟨((transfers kind.hasReceiver 32768).flatMap fun (index, slot) =>
    move (UInt16.ofNat kind.hasReceiver.toNat) index slot) ++ [.loadLocal (UInt16.ofNat kind.hasReceiver.toNat)],
    ?_, ?_, ?_⟩
  · exact .arrayLoad :: .storeLocal (UInt16.ofNat (kind.hasReceiver.toNat + 2 + 32768)) ::
      (rest.flatMap (fun (index, slot) => move (UInt16.ofNat kind.hasReceiver.toNat) index slot) ++
        superCall kind initializer)
  · rw [layout, if_neg hkind, hrest, List.flatMap_append, List.flatMap_cons]
    simp only [List.append_assoc]
    rfl
  · intro instruction hmem
    rcases List.mem_append.mp hmem with hmem | hmem
    · exact moves_fit (position_lt_of_mem_transfers (by decide) (Nat.le_refl _)) _ instruction hmem
    · rw [List.mem_singleton.mp hmem]
      exact nofun

end Prologue

/-! ## 2. The code of a callable -/

namespace Callable

variable {callable : Callable} {scope : Scope} {target : Target} {record : MethodRecord}

/-- The constants of the body are those of the code behind the prologue. -/
theorem body_fits_iff :
    (∀ instruction ∈ callable.returnShape.apply callable.body.complete, instruction.Fits) ↔
      ∀ value, .pushInt value ∈ callable.body.instructions → FitsWord value := by
  have hmem (value : Int32) : .pushInt value ∈ callable.returnShape.apply callable.body.complete ↔
      .pushInt value ∈ callable.body.instructions := by
    have hkept : ¬(Instruction.pushInt value).isTerminator := nofun
    rw [ReturnShape.mem_apply_iff hkept nofun nofun]
    exact Block.mem_complete_iff nofun nofun
  simp only [forall_fits_iff, hmem]

/-- With more parameters than positions that fit, the code fails at the first position that does not. -/
theorem encode_code_of_wide (hkind : callable.kind ≠ .entryPoint) (hcount : 32768 < callable.visible.size)
    (symbols : SymbolTable) : ((callable.code scope target).encode symbols).1 = .error (.intOutOfRange 32768) := by
  obtain ⟨front, back, hsetup, hfront⟩ := Prologue.layout_unfit hkind hcount (callable.initializer? scope target)
  have hunit : (callable.code scope target).instructions =
      front ++ .pushInt 32768 :: (back ++ callable.returnShape.apply callable.body.complete) := by
    rw [code, setup, hsetup, List.append_assoc, List.cons_append]
  rw [CodeUnit.encode_of_unfit hfront not_fitsWord_limit hunit symbols]

/-- The code of a callable fits exactly if its body does and it has no more parameters than positions that fit. -/
theorem code_fits_iff :
    (∀ instruction ∈ (callable.code scope target).instructions, instruction.Fits) ↔
      (∀ value, .pushInt value ∈ callable.body.instructions → FitsWord value) ∧
        (callable.kind = .entryPoint ∨ callable.visible.size ≤ 32768) := by
  rw [code, List.forall_mem_append, body_fits_iff, and_comm]
  refine and_congr_right fun _ => ⟨fun hsetup => ?_, fun h => Prologue.layout_fits h _⟩
  by_cases hkind : callable.kind = .entryPoint
  · exact Or.inl hkind
  · refine Or.inr (Nat.le_of_not_lt fun hcount => ?_)
    obtain ⟨front, back, heq, _⟩ := Prologue.layout_unfit hkind hcount (callable.initializer? scope target)
    have hmem : .pushInt 32768 ∈ callable.setup scope target := by
      rw [setup, heq]
      exact List.mem_append_right _ List.mem_cons_self
    exact not_fitsWord_limit (hsetup _ hmem 32768 rfl)

/-- **Which methods are encoded**: those whose body has constants of 16 bits only, and that have no more parameters than
there are such positions; an entry point may have any number. A method with more parameters fails with the first
position beyond. What is encoded can be read again, as one operation for each instruction. -/
theorem encode_lower (hlower : callable.lower scope target = .ok record) (symbols : SymbolTable) :
    ((∃ bytes, (record.code.encode symbols).1 = .ok bytes) ↔
      (∀ value : Int32, .pushInt value ∈ callable.body.instructions → -32768 ≤ value.toInt ∧ value.toInt ≤ 32767) ∧
        (callable.kind = .entryPoint ∨ callable.visible.size ≤ 32768)) ∧
    (callable.kind ≠ .entryPoint → 32768 < callable.visible.size →
      (record.code.encode symbols).1 = .error (.intOutOfRange 32768)) ∧
    ∀ bytes, (record.code.encode symbols).1 = .ok bytes →
      ∃ ops, decode bytes.toList = .ok ops ∧ ops.size = record.code.instructions.length := by
  obtain ⟨_, _, _, rfl⟩ := lower_eq_ok_iff.mp hlower
  refine ⟨(CodeUnit.encode_ok_iff symbols).trans code_fits_iff,
    fun hkind hcount => encode_code_of_wide hkind hcount symbols, fun bytes hbytes => ?_⟩
  have hfits := (CodeUnit.encode_ok_iff symbols).mp ⟨bytes, hbytes⟩
  obtain ⟨other, ops, hother, hdecode, hsize⟩ := CodeUnit.encode_of_fits hfits symbols
  rw [hbytes] at hother
  cases hother
  exact ⟨ops, hdecode, hsize⟩

/-- A function with a number of parameters, which does nothing. -/
def wideFunction (count : Nat) : Callable :=
  .function "wide" (.positionals (lengthNames count) (nodup_lengthNames count)) none {}

theorem size_wideFunction (count : Nat) : (wideFunction count).visible.size = count :=
  (ParameterList.size_positionals _ (nodup_lengthNames count)).trans (length_lengthNames count)

theorem lower_wideFunction {count : Nat} (h : count ≤ 65533) (scope : Scope) (target : Target) :
    (wideFunction count).lower scope target = .ok ((wideFunction count).record scope target) := by
  have hlimit : (wideFunction count).frameSize ≤ SlotTable.limit := by
    rw [frameSize, SlotTable.frameSize, size_wideFunction, SlotTable.limit]
    show 0 + 2 + count ≤ 65535
    omega
  refine lower_of_inside hlimit (fun hlacks => ?_) fun instruction hmem => absurd hmem List.not_mem_nil
  exact CallableKind.noConfusion hlacks.1

/-- The last number of parameters with which a method is encoded, and the first with which it is not. -/
theorem encode_lower_wideFunction :
    ∃ fitting wide, (wideFunction 32768).lower { moduleName := "app" } {} = .ok fitting ∧
      (∃ bytes, (fitting.code.encode .empty).1 = .ok bytes) ∧
      (wideFunction 32769).lower { moduleName := "app" } {} = .ok wide ∧
      (wide.code.encode .empty).1 = .error (.intOutOfRange 32768) := by
  have hfitting := lower_wideFunction (show 32768 ≤ 65533 by decide) { moduleName := "app" } {}
  have hwide := lower_wideFunction (show 32769 ≤ 65533 by decide) { moduleName := "app" } {}
  have hmore : 32768 < (wideFunction 32769).visible.size := by
    rw [size_wideFunction]
    decide
  exact ⟨_, _, hfitting,
    (encode_lower hfitting .empty).1.mpr ⟨nofun, Or.inr (Nat.le_of_eq (size_wideFunction 32768))⟩, hwide,
    (encode_lower hwide .empty).2.1 nofun hmore⟩

end Callable

end MethodLowering
