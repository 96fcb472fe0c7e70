import MethodLowering.Proofs.TableRuns

/-!
# A frame is fixed by position

The table of a frame is made by reserving one role after another. This file says what comes out for every parameter
list: when there is a table, and what a lookup by any role gives.

* `SlotTable.allocate_cases` -- a table that is laid out, or a refusal for the size of the frame;
* `SlotTable.FrameOf.slot?_of_place`, `SlotTable.FrameOf.slot?_eq_none` -- the roles of a frame and all others;
* `ParameterList.positionals` -- a list of any length;
* `SlotTable.allocate_exact` -- **when a frame is laid out, and every slot of it.**
-/

namespace MethodLowering

namespace SlotTable

variable {table : SlotTable} {hasReceiver : Bool} {parameters : ParameterList}

/-! ## 1. Making a frame -/

/-- A frame is laid out within the limit, and refused for its size beyond it. -/
theorem allocate_cases (hasReceiver : Bool) (parameters : ParameterList) :
    (frameSize hasReceiver parameters ≤ limit ∧
      ∃ table, allocate hasReceiver parameters = .ok table ∧ FrameOf hasReceiver parameters table) ∨
    (limit < frameSize hasReceiver parameters ∧ allocate hasReceiver parameters = .error .tooManyLocals) := by
  rcases Nat.lt_or_ge limit (frameSize hasReceiver parameters) with hover | hfits
  · exact Or.inr ⟨hover, allocate_overflow hover⟩
  · exact Or.inl ⟨hfits, allocate_fits hfits⟩

/-- A table that allocation gives is laid out. -/
theorem frameOf_of_allocate (h : allocate hasReceiver parameters = .ok table) :
    FrameOf hasReceiver parameters table := by
  rcases allocate_cases hasReceiver parameters with ⟨_, other, hother, hframe⟩ | ⟨_, herror⟩
  · obtain rfl : other = table := Except.ok.inj (hother.symm.trans h)
    exact hframe
  · cases herror.symm.trans h

/-! ## 2. Looking roles up -/

theorem named_mem_frameRoles_iff {name : String} :
    SlotRole.named name ∈ frameRoles hasReceiver parameters ↔ name ∈ parameters.names := by
  cases hasReceiver <;> simp [frameRoles]

theorem receiver_not_mem_frameRoles : SlotRole.receiver ∉ frameRoles false parameters := by
  simp [frameRoles]

namespace FrameOf

/-- **A role of a frame has its place as its slot.** -/
theorem slot?_of_place (h : FrameOf hasReceiver parameters table) {place : Nat} {role : SlotRole}
    (hrole : (frameRoles hasReceiver parameters)[place]? = some role) :
    (table.slot? role).map UInt16.toNat = some place := by
  have hlt : place < table.size := by
    rw [h.size_eq, ← length_frameRoles]
    exact (List.getElem?_eq_some_iff.mp hrole).1
  rw [h.slot_of_frameRole hrole, Option.map_some, h.toNat_ofNat (Nat.le_of_lt hlt)]

/-- **Any other role has no slot.** -/
theorem slot?_eq_none (h : FrameOf hasReceiver parameters table) {role : SlotRole}
    (hrole : role ∉ frameRoles hasReceiver parameters) : table.slot? role = none := by
  rw [h.slot?_eq_none_iff, ← Array.mem_toList_iff, h.roles_eq]
  exact hrole

theorem slot?_receiver (h : FrameOf hasReceiver parameters table) :
    table.slot? .receiver = if hasReceiver then some 0 else none := by
  cases hasReceiver with
  | true => exact h.receiver
  | false => exact h.slot?_eq_none receiver_not_mem_frameRoles

end FrameOf

/-! ## 3. The frame of every list -/

/-- **When a frame is laid out, and every slot of it.** A frame has one slot for the receiver if there is one, two for
the containers and one for each parameter; it is laid out if that is at most 65535, and otherwise refused for its size,
never for a role. The receiver comes first, then the containers, then the parameters by position, and no other name has
a slot. -/
theorem allocate_exact (hasReceiver : Bool) (parameters : ParameterList) :
    let front := hasReceiver.toNat + 2
    ((∃ table, allocate hasReceiver parameters = .ok table) ↔ front + parameters.size ≤ 65535) ∧
    (∀ error, allocate hasReceiver parameters = .error error ↔
      65535 < front + parameters.size ∧ error = .tooManyLocals) ∧
    ∀ table, allocate hasReceiver parameters = .ok table →
      table.size = front + parameters.size ∧
      table.entries.map (fun entry => (entry.1, entry.2.toNat)) = (frameRoles hasReceiver parameters).zipIdx ∧
      table.slot? .receiver = (if hasReceiver then some 0 else none) ∧
      (table.slot? .positionalArgs).map UInt16.toNat = some hasReceiver.toNat ∧
      (table.slot? .keywordArgs).map UInt16.toNat = some (hasReceiver.toNat + 1) ∧
      (∀ position name, parameters.names[position]? = some name →
        (table.slot? (.named name)).map UInt16.toNat = some (front + position)) ∧
      ∀ name, name ∉ parameters.names → table.slot? (.named name) = none := by
  intro front
  refine ⟨?_, fun error => ?_, fun table htable => ?_⟩
  · rcases allocate_cases hasReceiver parameters with ⟨hfits, table, htable, _⟩ | ⟨hover, herror⟩
    · exact iff_of_true ⟨table, htable⟩ hfits
    · refine iff_of_false ?_ (Nat.not_le.mpr hover)
      rintro ⟨table, htable⟩
      cases herror.symm.trans htable
  · rcases allocate_cases hasReceiver parameters with ⟨hfits, table, htable, _⟩ | ⟨hover, herror⟩
    · refine iff_of_false (fun h => ?_) fun h => Nat.not_lt.mpr hfits h.1
      cases htable.symm.trans h
    · rw [herror]
      exact ⟨fun h => ⟨hover, (Except.error.inj h).symm⟩, fun h => congrArg Except.error h.2.symm⟩
  · have hframe := frameOf_of_allocate htable
    refine ⟨hframe.size_eq, ?_, hframe.slot?_receiver, ?_, ?_, fun position name hname => ?_, fun name hname => ?_⟩
    · rw [hframe.map_entries, hframe.roles_eq]
    · exact hframe.slot?_of_place (by cases hasReceiver <;> rfl)
    · exact hframe.slot?_of_place (by cases hasReceiver <;> rfl)
    · exact hframe.slot?_of_place (getElem?_frameRoles_named hname)
    · exact hframe.slot?_eq_none fun hmem => hname (named_mem_frameRoles_iff.mp hmem)

end SlotTable

/-- The list of positional parameters of given names. -/
def ParameterList.positionals (names : List String) (h : names.Nodup) : ParameterList where
  toList := names.map Parameter.positional
  wellOrdered :=
    { distinct := List.pairwise_map.mpr h
      ordered := List.pairwise_map.mpr (List.pairwise_of_forall fun _ _ => ⟨Nat.le_refl _, fun h => Bool.noConfusion h⟩)
      plain := fun parameter hmem hvariadic => by
        obtain ⟨name, _, rfl⟩ := List.mem_map.mp hmem
        cases hvariadic }

theorem ParameterList.names_positionals (names : List String) (h : names.Nodup) :
    (positionals names h).names = names := by
  rw [ParameterList.names, positionals, List.map_map]
  exact List.map_id _

theorem ParameterList.size_positionals (names : List String) (h : names.Nodup) :
    (positionals names h).size = names.length :=
  List.length_map _

/-- The largest frame with a receiver has 65532 parameters, the last one in slot 65534, and one more is refused. -/
theorem SlotTable.allocate_exact_fullFrame :
    (∃ table name, allocate true (.positionals (lengthNames 65532) (nodup_lengthNames _)) = .ok table ∧
      (lengthNames 65532)[65531]? = some name ∧ (table.slot? (.named name)).map UInt16.toNat = some 65534 ∧
      table.size = 65535) ∧
    allocate true (.positionals (lengthNames 65533) (nodup_lengthNames _)) = .error .tooManyLocals := by
  obtain ⟨hok, _, hlayout⟩ := allocate_exact true (.positionals (lengthNames 65532) (nodup_lengthNames _))
  obtain ⟨_, herror, _⟩ := allocate_exact true (.positionals (lengthNames 65533) (nodup_lengthNames _))
  rw [ParameterList.size_positionals, length_lengthNames] at hok hlayout herror
  rw [ParameterList.names_positionals] at hlayout
  obtain ⟨table, htable⟩ := hok.mpr (by decide)
  obtain ⟨hsize, _, _, _, _, hnamed, _⟩ := hlayout table htable
  have hlast : (lengthNames 65532)[65531]? = some _ :=
    List.getElem?_eq_getElem (by rw [length_lengthNames]; decide)
  exact ⟨⟨table, _, htable, hlast, hnamed 65531 _ hlast, hsize⟩, (herror _).mpr ⟨by decide, rfl⟩⟩

end MethodLowering
