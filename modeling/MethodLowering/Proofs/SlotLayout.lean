import MethodLowering.Frame.SlotTable

/-!
# The layout of a frame

A slot table keeps its roles twice: in order, and in an index by role. This file ties the two together and gives the
place of every role of a frame.

* `SlotTable.Coherent` -- what the two owe each other, kept by every reservation (`SlotTable.reserve_cases`);
* `SlotTable.reserveAll_fits`, `SlotTable.reserveAll_overflow` -- what reserving different roles comes to;
* `SlotTable.FrameOf` -- the frame of a parameter list, place by place (`FrameOf.receiver`, `FrameOf.positionalArgs`,
  `FrameOf.keywordArgs`, `FrameOf.named`), which is what allocation gives (`SlotTable.allocate_fits`).
-/

namespace MethodLowering

namespace SlotTable

/-! ## 1. Order and index -/

/-- **What the order and the index of a table owe each other**: a role has exactly the slot at which it stands in order,
and the frame is within its limit. -/
structure Coherent (table : SlotTable) : Prop where
  slot_iff : ∀ role slot, table.slot? role = some slot ↔ table.roles[slot.toNat]? = some role
  size_le : table.size ≤ limit

theorem coherent_empty : Coherent {} where
  slot_iff role slot := by simp [slot?]
  size_le := Nat.zero_le _

variable {table : SlotTable}

/-- A place within a coherent table is a 16-bit slot. -/
theorem Coherent.toNat_ofNat (h : table.Coherent) {place : Nat} (hplace : place ≤ table.size) :
    (UInt16.ofNat place).toNat = place := by
  have hsize := h.size_le
  unfold limit at hsize
  have hlt : place < 2 ^ 16 := by omega
  exact UInt16.toNat_ofNat_of_lt' hlt

/-- The role at a place has that place as its slot. -/
theorem Coherent.slot_of_place (h : table.Coherent) {place : Nat} {role : SlotRole}
    (hrole : table.roles[place]? = some role) : table.slot? role = some (UInt16.ofNat place) := by
  have hlt : place < table.size := (Array.getElem?_eq_some_iff.mp hrole).1
  rw [h.slot_iff, h.toNat_ofNat (Nat.le_of_lt hlt)]
  exact hrole

/-- Two roles never share a slot. -/
theorem Coherent.role_unique (h : table.Coherent) {first second : SlotRole} {slot : UInt16}
    (hfirst : table.slot? first = some slot) (hsecond : table.slot? second = some slot) : first = second := by
  have h1 := (h.slot_iff first slot).mp hfirst
  have h2 := (h.slot_iff second slot).mp hsecond
  rw [h1] at h2
  exact Option.some.inj h2

/-- The index knows the roles that stand in order, and no others. -/
theorem Coherent.contains_iff (h : table.Coherent) (role : SlotRole) :
    table.index.contains role = true ↔ role ∈ table.roles := by
  rw [Std.HashMap.contains_eq_isSome_getElem?, Option.isSome_iff_exists]
  constructor
  · rintro ⟨slot, hslot⟩
    exact Array.mem_of_getElem? ((h.slot_iff role slot).mp hslot)
  · intro hmem
    obtain ⟨place, hplace, hrole⟩ := Array.getElem_of_mem hmem
    exact ⟨_, h.slot_of_place (Array.getElem?_eq_some_iff.mpr ⟨hplace, hrole⟩)⟩

/-- A new role at the end keeps a table coherent. -/
theorem Coherent.push (h : table.Coherent) {role : SlotRole} (hnew : role ∉ table.roles)
    (hroom : table.size < limit) :
    Coherent { roles := table.roles.push role
               index := table.index.insert role (UInt16.ofNat table.size) } where
  slot_iff other slot := by
    show (table.index.insert role (UInt16.ofNat table.size))[other]? = some slot ↔ _
    rw [Std.HashMap.getElem?_insert, Array.getElem?_push]
    by_cases hrole : role = other
    · subst hrole
      simp only [beq_self_eq_true, if_true, Option.some.injEq]
      constructor
      · intro hslot
        rw [← hslot, h.toNat_ofNat (Nat.le_refl _)]
        exact if_pos rfl
      · intro hplace
        split at hplace
        · rename_i hsize
          rw [← UInt16.toNat_inj, h.toNat_ofNat (Nat.le_refl _)]
          exact hsize.symm
        · exact absurd (Array.mem_of_getElem? hplace) hnew
    · rw [if_neg (by simpa using hrole)]
      refine (h.slot_iff other slot).trans ?_
      split
      · rename_i hsize
        have hnone : table.roles[slot.toNat]? = none := by
          rw [Array.getElem?_eq_none_iff]
          exact Nat.le_of_eq hsize.symm
        simp [hnone, hrole]
      · exact Iff.rfl
  size_le := by
    show (table.roles.push role).size ≤ limit
    rw [Array.size_push]
    exact hroom

/-- **What a reservation can do**: refuse a role that has a slot, refuse any role once the frame is full, and otherwise
put the role at the end. -/
theorem reserve_cases (h : table.Coherent) (role : SlotRole) :
    (role ∈ table.roles ∧ table.reserve role = (.error (.internal (.slotReservedTwice role)), table)) ∨
    (role ∉ table.roles ∧ table.size = limit ∧ table.reserve role = (.error .tooManyLocals, table)) ∨
    (role ∉ table.roles ∧ table.size < limit ∧ ∃ after : SlotTable,
      table.reserve role = (.ok (UInt16.ofNat table.size), after) ∧
        after.roles = table.roles.push role ∧ after.Coherent) := by
  unfold reserve
  by_cases hrole : role ∈ table.roles
  · left
    rw [if_pos ((h.contains_iff role).mpr hrole)]
    exact ⟨hrole, rfl⟩
  · right
    rw [if_neg (fun hc => hrole ((h.contains_iff role).mp hc))]
    by_cases hfull : limit ≤ table.size
    · left
      rw [if_pos hfull]
      exact ⟨hrole, Nat.le_antisymm h.size_le hfull, rfl⟩
    · right
      rw [if_neg hfull]
      have hroom : table.size < limit := Nat.lt_of_not_le hfull
      exact ⟨hrole, hroom, _, rfl, rfl, h.push hrole hroom⟩

/-! ## 2. Reserving many slots -/

/-- The first of different new roles is placed while there is room; the rest are still different and new. -/
theorem reserveAll_cons {role : SlotRole} {rest : List SlotRole} (h : table.Coherent)
    (hnodup : (table.roles.toList ++ role :: rest).Nodup) :
    (table.size = limit ∧ reserveAll (role :: rest) table = .error .tooManyLocals) ∨
    ∃ next : SlotTable, reserveAll (role :: rest) table = reserveAll rest next ∧ next.Coherent ∧
      next.size = table.size + 1 ∧ next.roles.toList ++ rest = table.roles.toList ++ role :: rest := by
  have hnew : role ∉ table.roles := by
    rw [← Array.mem_toList_iff]
    intro hmem
    exact (List.nodup_append.mp hnodup).2.2 role hmem role List.mem_cons_self rfl
  rcases reserve_cases h role with ⟨hmem, _⟩ | ⟨_, hfull, hres⟩ | ⟨_, _, next, hres, hroles, hnext⟩
  · exact absurd hmem hnew
  · left
    exact ⟨hfull, by rw [reserveAll, hres]⟩
  · right
    refine ⟨next, by rw [reserveAll, hres], hnext, ?_, ?_⟩
    · rw [size, hroles, Array.size_push, size]
    · rw [hroles, Array.toList_push, List.append_assoc, List.singleton_append]

/-- **Different new roles that fit are all placed, in order, behind those already there.** -/
theorem reserveAll_fits (roles : List SlotRole) (h : table.Coherent) (hnodup : (table.roles.toList ++ roles).Nodup)
    (hfits : table.size + roles.length ≤ limit) :
    ∃ after : SlotTable, reserveAll roles table = .ok after ∧
      after.roles.toList = table.roles.toList ++ roles ∧ after.Coherent := by
  induction roles generalizing table with
  | nil => exact ⟨table, rfl, (List.append_nil _).symm, h⟩
  | cons role rest ih =>
    rw [List.length_cons] at hfits
    rcases reserveAll_cons h hnodup with ⟨hfull, _⟩ | ⟨next, hstep, hnext, hsize, hroles⟩
    · omega
    · rw [hstep, ← hroles]
      exact ih hnext (hroles ▸ hnodup) (by omega)

/-- **Different new roles that do not fit fill the frame and fail on its limit**, not on a role. -/
theorem reserveAll_overflow (roles : List SlotRole) (h : table.Coherent)
    (hnodup : (table.roles.toList ++ roles).Nodup) (hover : limit < table.size + roles.length) :
    reserveAll roles table = .error .tooManyLocals := by
  induction roles generalizing table with
  | nil => exact absurd hover (Nat.not_lt.mpr h.size_le)
  | cons role rest ih =>
    rw [List.length_cons] at hover
    rcases reserveAll_cons h hnodup with ⟨_, herror⟩ | ⟨next, hstep, hnext, hsize, hroles⟩
    · exact herror
    · rw [hstep]
      exact ih hnext (hroles ▸ hnodup) (by omega)

/-! ## 3. The frame of a parameter list -/

/-- The number of slots of a frame: the receiver if there is one, two containers, the parameters. -/
def frameSize (hasReceiver : Bool) (parameters : ParameterList) : Nat :=
  hasReceiver.toNat + 2 + parameters.size

theorem length_frameRoles (hasReceiver : Bool) (parameters : ParameterList) :
    (frameRoles hasReceiver parameters).length = frameSize hasReceiver parameters := by
  cases hasReceiver <;>
    simp [frameRoles, frameSize, ParameterList.names, ParameterList.size, Nat.add_comm, Nat.add_left_comm]

theorem nodup_map_named {names : List String} (h : names.Nodup) : (names.map SlotRole.named).Nodup :=
  List.pairwise_map.mpr (h.imp fun hne heq => hne (SlotRole.named.inj heq))

/-- The roles of a frame differ: the names of parameters do, and no name is a container. -/
theorem nodup_frameRoles (hasReceiver : Bool) (parameters : ParameterList) :
    (frameRoles hasReceiver parameters).Nodup := by
  have hnames : (parameters.names.map SlotRole.named).Nodup :=
    nodup_map_named (List.pairwise_map.mpr parameters.wellOrdered.distinct)
  have hother : ∀ role ∈ parameters.names.map SlotRole.named,
      role ≠ .receiver ∧ role ≠ .positionalArgs ∧ role ≠ .keywordArgs := by
    intro role hrole
    obtain ⟨name, _, rfl⟩ := List.mem_map.mp hrole
    exact ⟨nofun, nofun, nofun⟩
  rw [frameRoles, List.nodup_append]
  refine ⟨by cases hasReceiver <;> decide, hnames, ?_⟩
  rintro front hfront _ hback rfl
  obtain ⟨h1, h2, h3⟩ := hother front hback
  cases hasReceiver <;> simp_all

/-- The name at a position stands at that place behind the containers. -/
theorem getElem?_frameRoles_named {hasReceiver : Bool} {parameters : ParameterList} {position : Nat} {name : String}
    (h : parameters.names[position]? = some name) :
    (frameRoles hasReceiver parameters)[hasReceiver.toNat + 2 + position]? = some (.named name) := by
  have hfront : ((if hasReceiver then [SlotRole.receiver] else []) ++
      [SlotRole.positionalArgs, SlotRole.keywordArgs]).length = hasReceiver.toNat + 2 := by
    cases hasReceiver <;> rfl
  rw [frameRoles, List.getElem?_append_right (by omega), hfront, Nat.add_sub_cancel_left, List.getElem?_map, h]
  rfl

/-- **A table laid out as the frame of a parameter list.** -/
structure FrameOf (hasReceiver : Bool) (parameters : ParameterList) (table : SlotTable) : Prop
    extends Coherent table where
  roles_eq : table.roles.toList = frameRoles hasReceiver parameters

/-- **A frame within the limit is laid out.** -/
theorem allocate_fits {hasReceiver : Bool} {parameters : ParameterList}
    (h : frameSize hasReceiver parameters ≤ limit) :
    ∃ table, allocate hasReceiver parameters = .ok table ∧ FrameOf hasReceiver parameters table := by
  have hfits : (({} : SlotTable).size + (frameRoles hasReceiver parameters).length) ≤ limit := by
    rw [length_frameRoles]
    exact (Nat.zero_add _).symm ▸ h
  obtain ⟨after, hall, hroles, hcoherent⟩ :=
    reserveAll_fits (frameRoles hasReceiver parameters) coherent_empty (nodup_frameRoles _ _) hfits
  exact ⟨after, hall, hcoherent, hroles⟩

/-- **A frame beyond the limit is refused for its size.** -/
theorem allocate_overflow {hasReceiver : Bool} {parameters : ParameterList}
    (h : limit < frameSize hasReceiver parameters) :
    allocate hasReceiver parameters = .error .tooManyLocals := by
  refine reserveAll_overflow _ coherent_empty (nodup_frameRoles _ _) ?_
  rw [length_frameRoles]
  exact (Nat.zero_add _).symm ▸ h

namespace FrameOf

variable {hasReceiver : Bool} {parameters : ParameterList}

theorem size_eq (h : FrameOf hasReceiver parameters table) : table.size = frameSize hasReceiver parameters := by
  rw [size, ← Array.length_toList, h.roles_eq, length_frameRoles]

/-- A frame that is laid out is within the limit. -/
theorem fits (h : FrameOf hasReceiver parameters table) : hasReceiver.toNat + 2 + parameters.size ≤ limit := by
  have hsize := h.size_le
  rw [h.size_eq] at hsize
  exact hsize

/-- A role at a place of the frame has that place as its slot. -/
theorem slot_of_frameRole (h : FrameOf hasReceiver parameters table) {place : Nat} {role : SlotRole}
    (hrole : (frameRoles hasReceiver parameters)[place]? = some role) :
    table.slot? role = some (UInt16.ofNat place) := by
  refine h.slot_of_place ?_
  rw [← Array.getElem?_toList, h.roles_eq]
  exact hrole

theorem receiver (h : FrameOf true parameters table) : table.slot? .receiver = some 0 :=
  h.slot_of_frameRole (show (frameRoles true parameters)[0]? = some .receiver from rfl)

theorem positionalArgs (h : FrameOf hasReceiver parameters table) :
    table.slot? .positionalArgs = some (UInt16.ofNat (hasReceiver.toNat)) :=
  h.slot_of_frameRole (by cases hasReceiver <;> rfl)

theorem keywordArgs (h : FrameOf hasReceiver parameters table) :
    table.slot? .keywordArgs = some (UInt16.ofNat (hasReceiver.toNat + 1)) :=
  h.slot_of_frameRole (by cases hasReceiver <;> rfl)

/-- **The parameter at a position has the slot at that position behind the containers.** -/
theorem named (h : FrameOf hasReceiver parameters table) {position : Nat} {parameter : Parameter}
    (hparameter : parameters.toList[position]? = some parameter) :
    table.slot? (.named parameter.name) = some (UInt16.ofNat (hasReceiver.toNat + 2 + position)) := by
  refine h.slot_of_frameRole (getElem?_frameRoles_named ?_)
  rw [ParameterList.names, List.getElem?_map, hparameter]
  rfl

end FrameOf

end SlotTable

end MethodLowering
