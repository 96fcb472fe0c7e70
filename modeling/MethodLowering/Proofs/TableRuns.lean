import MethodLowering.Proofs.SlotLayout
import MethodLowering.Proofs.SymbolIndices

/-!
# Tables after any run

A symbol table and a slot table both keep what they hold twice, in order and in an index, and both only grow. This file
says what they hold after any sequence of calls, also behind calls that found or refused something.

* `SymbolTable.internAll`, `SlotTable.reserveEach` -- the tables behind a sequence of calls;
* `SymbolTable.Coherent.toList_methods_internAll`, `SlotTable.Coherent.toList_roles_reserveEach` -- they hold the
  different items of the sequence in the order of their first occurrence, a slot table as many as it has slots;
* `SymbolTable.Coherent.faithful_iff` -- up to which size indices tell references apart;
* `SymbolTable.internAll_exact` -- **what a symbol table means behind every run**;
* `SlotTable.reserveEach_exact` -- **what a slot table means behind every run.**
-/

namespace MethodLowering

/-! ## 1. First occurrences -/

section FirstOccurrences

variable {α : Type} [BEq α] [LawfulBEq α] {front rest : List α} {item : α}

theorem eraseDups_of_nodup (h : front.Nodup) : front.eraseDups = front := by
  induction front with
  | nil => rfl
  | cons first rest ih =>
    obtain ⟨hfirst, hrest⟩ := List.nodup_cons.mp h
    have hkeep : rest.filter (fun other => !other == first) = rest := by
      refine List.filter_eq_self.mpr fun other hother => ?_
      have hne : other ≠ first := fun heq => hfirst (heq ▸ hother)
      simp [hne]
    rw [List.eraseDups_cons, hkeep, ih hrest]

/-- Different items stay in front of whatever is erased behind them. -/
theorem eraseDups_append_of_nodup (h : front.Nodup) :
    (front ++ rest).eraseDups = front ++ (rest.removeAll front).eraseDups := by
  rw [List.eraseDups_append, eraseDups_of_nodup h]

/-- An item that occurred before adds nothing. -/
theorem eraseDups_append_cons_of_mem (h : item ∈ front) :
    (front ++ item :: rest).eraseDups = (front ++ rest).eraseDups := by
  have hremove : (item :: rest).removeAll front = rest.removeAll front := by
    simp [List.removeAll, h]
  rw [List.eraseDups_append, hremove, ← List.eraseDups_append]

end FirstOccurrences

/-- Where not all items have a property, there is a first one that does not. -/
theorem forall_or_first {α : Type} (property : α → Prop) (items : List α) :
    (∀ item ∈ items, property item) ∨
    ∃ front item back, items = front ++ item :: back ∧ (∀ other ∈ front, property other) ∧ ¬property item := by
  classical
  cases hfind : items.find? (fun item => !decide (property item)) with
  | none =>
    left
    simpa using List.find?_eq_none.mp hfind
  | some item =>
    right
    obtain ⟨hitem, front, back, hitems, hfront⟩ := List.find?_eq_some_iff_append.mp hfind
    exact ⟨front, item, back, hitems, by simpa using hfront, by simpa using hitem⟩

/-- Names that differ in their lengths. -/
def lengthNames (count : Nat) : List String :=
  (List.range count).map fun length => String.ofList (List.replicate length 'x')

theorem length_lengthNames (count : Nat) : (lengthNames count).length = count := by
  rw [lengthNames, List.length_map, List.length_range]

theorem nodup_lengthNames (count : Nat) : (lengthNames count).Nodup := by
  refine List.pairwise_map.mpr (List.pairwise_lt_range.imp fun {first second} hlt heq => ?_)
  have hlength := congrArg List.length (String.ofList_injective heq)
  simp only [List.length_replicate] at hlength
  omega

/-! ## 2. Symbol tables -/

namespace SymbolTable

variable {table : SymbolTable}

/-- The table behind a sequence of calls. -/
def internAll : List MethodRef → SymbolTable → SymbolTable
  | [], table => table
  | method :: rest, table => internAll rest (table.intern method).2

theorem internAll_append (first second : List MethodRef) (table : SymbolTable) :
    internAll (first ++ second) table = internAll second (internAll first table) := by
  induction first generalizing table with
  | nil => rfl
  | cons method rest ih => exact ih (table.intern method).2

theorem Coherent.internAll (h : table.Coherent) (calls : List MethodRef) : (internAll calls table).Coherent := by
  induction calls generalizing table with
  | nil => exact h
  | cons method rest ih => exact ih (h.intern method)

theorem extends_internAll (calls : List MethodRef) (table : SymbolTable) : table.Extends (internAll calls table) := by
  induction calls generalizing table with
  | nil => exact .refl table
  | cons method rest ih => exact (table.extends_intern method).trans (ih (table.intern method).2)

/-- **A run adds the references that are new, in the order of their first occurrence.** -/
theorem Coherent.toList_methods_internAll (h : table.Coherent) (calls : List MethodRef) :
    (SymbolTable.internAll calls table).methods.toList = (table.methods.toList ++ calls).eraseDups := by
  induction calls generalizing table with
  | nil => rw [List.append_nil, eraseDups_of_nodup h.nodup]; rfl
  | cons method rest ih =>
    refine (ih (h.intern method)).trans ?_
    rcases table.intern_cases method with ⟨index, hget, heq⟩ | ⟨_, heq⟩
    · obtain ⟨place, hplace, _⟩ := (h.get?_iff method index).mp hget
      have hmem : method ∈ table.methods.toList := Array.mem_toList_iff.mpr (Array.mem_of_getElem? hplace)
      rw [heq, eraseDups_append_cons_of_mem hmem]
    · rw [heq, ← List.singleton_append, ← List.append_assoc, SymbolTable.push, Array.toList_push]

/-- The reference at a place is looked up at the next index. -/
theorem Coherent.get?_of_place (h : table.Coherent) {place : Nat} {method : MethodRef}
    (hplace : table.methods[place]? = some method) : table.get? method = some (UInt16.ofNat (place + 1)) :=
  (h.get?_iff method _).mpr ⟨place, hplace, rfl⟩

/-- **A call gives the index of the place that its reference has in any later table.** -/
theorem Coherent.intern_of_place (h : table.Coherent) {method : MethodRef} {later : SymbolTable}
    (hlater : (table.intern method).2.Extends later) (hcoherent : later.Coherent) {place : Nat}
    (hplace : later.methods[place]? = some method) : (table.intern method).1 = UInt16.ofNat (place + 1) := by
  obtain ⟨own, hown, hindex⟩ := h.place_intern method
  -- the reference stands once in the later table, so it has not moved
  have hsame : later.get? method = some (table.intern method).1 := by
    rw [hindex]
    exact hcoherent.get?_of_place (hlater.getElem? hown)
  rw [hcoherent.get?_of_place hplace] at hsame
  exact (Option.some.inj hsame).symm

theorem toNat_index (place : Nat) : (UInt16.ofNat (place + 1)).toNat = (place + 1) % 65536 :=
  UInt16.toNat_ofNat'

/-- Two places have one index exactly if they are congruent. -/
theorem index_eq_iff {first second : Nat} :
    UInt16.ofNat (first + 1) = UInt16.ofNat (second + 1) ↔ first % 65536 = second % 65536 := by
  rw [← UInt16.toNat_inj, toNat_index, toNat_index]
  omega

/-- **Whether the indices of a table tell its references apart**: none is zero, no two are equal, and each leads back to
its reference. -/
structure Faithful (table : SymbolTable) : Prop where
  nonzero : ∀ method index, table.get? method = some index → index ≠ 0
  distinct : ∀ first second index, table.get? first = some index → table.get? second = some index → first = second
  leads_back : ∀ method index, table.get? method = some index → table.methods[index.toNat - 1]? = some method

/-- **Indices tell references apart up to 65535 of them, and no further.** -/
theorem Coherent.faithful_iff (h : table.Coherent) : table.Faithful ↔ table.size ≤ 65535 := by
  constructor
  · -- the reference behind the first 65535 has the index zero
    intro hfaithful
    refine Nat.le_of_not_lt fun hlt => hfaithful.nonzero table.methods[65535] 0 ?_ rfl
    exact h.get?_of_place (Array.getElem?_eq_getElem hlt)
  · intro hsize
    have hindex : ∀ method index, table.get? method = some index →
        ∃ place, table.methods[place]? = some method ∧ index.toNat = place + 1 := by
      intro method index hget
      obtain ⟨place, hplace, rfl⟩ := (h.get?_iff method index).mp hget
      have hlt : place < table.size := (Array.getElem?_eq_some_iff.mp hplace).1
      exact ⟨place, hplace, by rw [toNat_index, Nat.mod_eq_of_lt (by omega)]⟩
    refine ⟨fun method index hget hzero => ?_, fun first second index hfirst hsecond => ?_, fun method index hget => ?_⟩
    · obtain ⟨place, _, htoNat⟩ := hindex method index hget
      rw [hzero] at htoNat
      exact absurd htoNat (Nat.succ_ne_zero place).symm
    · obtain ⟨place, hplace, htoNat⟩ := hindex first index hfirst
      obtain ⟨other, hother, htoNat'⟩ := hindex second index hsecond
      obtain rfl : place = other := by omega
      exact Option.some.inj (hplace.symm.trans hother)
    · obtain ⟨place, hplace, htoNat⟩ := hindex method index hget
      rw [htoNat, Nat.add_sub_cancel]
      exact hplace

/-- **What a symbol table means behind every run.** It holds the different references in the order of their first
occurrence, and knows no others. The reference of a rank has the next number modulo 65536 for its index: every call of
the run gives it, and no later call changes it. The indices tell the references apart exactly up to 65535 of them, and
beyond that those of congruent ranks share one. -/
theorem internAll_exact (calls : List MethodRef) :
    let table := internAll calls empty
    table.methods.toList = calls.eraseDups ∧
    (∀ method, table.get? method = none ↔ method ∉ calls) ∧
    (∀ rank method, calls.eraseDups[rank]? = some method →
      ∃ index : UInt16, index.toNat = (rank + 1) % 65536 ∧
        (∀ before after, calls = before ++ method :: after → ((internAll before empty).intern method).1 = index) ∧
        ∀ later, (internAll later table).get? method = some index ∧
          (internAll later table).intern method = (index, internAll later table)) ∧
    (table.Faithful ↔ calls.eraseDups.length ≤ 65535) ∧
    ∀ first second method other, calls.eraseDups[first]? = some method → calls.eraseDups[second]? = some other →
      (table.get? method = table.get? other ↔ first % 65536 = second % 65536) := by
  intro table
  have hcoherent : table.Coherent := coherent_empty.internAll calls
  have hmethods : table.methods.toList = calls.eraseDups := coherent_empty.toList_methods_internAll calls
  have hplace : ∀ {rank : Nat} {method}, calls.eraseDups[rank]? = some method → table.methods[rank]? = some method := by
    intro rank method hrank
    rw [← Array.getElem?_toList, hmethods]
    exact hrank
  refine ⟨hmethods, fun method => ?_, fun rank method hrank => ?_, ?_,
    fun first second method other hfirst hsecond => ?_⟩
  · rw [hcoherent.get?_eq_none_iff, ← Array.mem_toList_iff, hmethods, List.mem_eraseDups]
  · refine ⟨UInt16.ofNat (rank + 1), toNat_index rank, fun before after hcalls => ?_, fun later => ?_⟩
    · refine (coherent_empty.internAll before).intern_of_place ?_ hcoherent (hplace hrank)
      show Extends _ (internAll calls empty)
      rw [hcalls, internAll_append]
      exact extends_internAll after _
    · have hget := (hcoherent.internAll later).get?_of_place ((extends_internAll later table).getElem? (hplace hrank))
      refine ⟨hget, ?_⟩
      rw [intern, hget]
  · rw [hcoherent.faithful_iff, ← hmethods]
    exact Iff.rfl
  · rw [hcoherent.get?_of_place (hplace hfirst), hcoherent.get?_of_place (hplace hsecond), Option.some.injEq]
    exact index_eq_iff

/-- References to methods of one class. -/
def crowd (count : Nat) : List MethodRef :=
  (lengthNames count).map fun name => { owner := "C", name, descriptor := "()V" }

theorem nodup_crowd (count : Nat) : (crowd count).Nodup :=
  List.pairwise_map.mpr ((nodup_lengthNames count).imp fun hne heq => hne (congrArg MethodRef.name heq))

/-- The first reference that an index does not tell apart from another one. -/
theorem internAll_exact_crowd :
    ¬(internAll (crowd 65537) empty).Faithful ∧
    ∃ first last, (crowd 65537)[0]? = some first ∧ (crowd 65537)[65536]? = some last ∧
      (internAll (crowd 65537) empty).get? first = (internAll (crowd 65537) empty).get? last := by
  obtain ⟨_, _, _, hfaithful, hshared⟩ := internAll_exact (crowd 65537)
  rw [eraseDups_of_nodup (nodup_crowd _)] at hfaithful hshared
  have hlength : (crowd 65537).length = 65537 := by rw [crowd, List.length_map, length_lengthNames]
  have hfirst : (crowd 65537)[0]? = some _ := List.getElem?_eq_getElem (by rw [hlength]; decide)
  have hlast : (crowd 65537)[65536]? = some _ := List.getElem?_eq_getElem (by rw [hlength]; decide)
  refine ⟨fun h => ?_, _, _, hfirst, hlast, (hshared 0 65536 _ _ hfirst hlast).mpr rfl⟩
  have hle := hfaithful.mp h
  rw [hlength] at hle
  exact absurd hle (by decide)

end SymbolTable

/-! ## 3. Slot tables -/

namespace SlotTable

variable {table : SlotTable}

/-- The table behind a sequence of reservations, any of which may fail. -/
def reserveEach : List SlotRole → SlotTable → SlotTable
  | [], table => table
  | role :: rest, table => reserveEach rest (table.reserve role).2

/-- The roles of a sequence whose reservations succeed, in order. -/
def granted : List SlotRole → SlotTable → List SlotRole
  | [], _ => []
  | role :: rest, table =>
    (if (table.reserve role).1.isOk then [role] else []) ++ granted rest (table.reserve role).2

theorem Coherent.reserve (h : table.Coherent) (role : SlotRole) : (table.reserve role).2.Coherent := by
  rcases reserve_cases h role with ⟨_, heq⟩ | ⟨_, _, heq⟩ | ⟨_, _, after, heq, _, hafter⟩
  · rw [heq]
    exact h
  · rw [heq]
    exact h
  · rw [heq]
    exact hafter

theorem Coherent.reserveEach (h : table.Coherent) (calls : List SlotRole) : (reserveEach calls table).Coherent := by
  induction calls generalizing table with
  | nil => exact h
  | cons role rest ih => exact ih (h.reserve role)

/-- A run puts the roles that are granted behind those already there, and moves none. -/
theorem Coherent.toList_roles_granted (h : table.Coherent) (calls : List SlotRole) :
    (SlotTable.reserveEach calls table).roles.toList = table.roles.toList ++ granted calls table := by
  induction calls generalizing table with
  | nil => exact (List.append_nil _).symm
  | cons role rest ih =>
    refine (ih (h.reserve role)).trans ?_
    rw [granted]
    rcases reserve_cases h role with ⟨_, heq⟩ | ⟨_, _, heq⟩ | ⟨_, _, after, heq, hroles, _⟩
    · rw [heq]
      rfl
    · rw [heq]
      rfl
    · rw [heq, hroles, Array.toList_push, List.append_assoc]
      rfl

theorem Coherent.nodup (h : table.Coherent) : table.roles.toList.Nodup := by
  refine List.pairwise_iff_getElem.mpr fun first second hfirst hsecond hlt heq => ?_
  rw [Array.length_toList] at hfirst hsecond
  have hone := h.slot_of_place (Array.getElem?_eq_getElem hfirst)
  have hother := h.slot_of_place (Array.getElem?_eq_getElem hsecond)
  rw [Array.getElem_toList, Array.getElem_toList] at heq
  rw [heq, hother, Option.some.injEq, ← UInt16.toNat_inj, h.toNat_ofNat (Nat.le_of_lt hfirst),
    h.toNat_ofNat (Nat.le_of_lt hsecond)] at hone
  omega

/-- **A run grants the first roles that are new, in the order of their first occurrence, until the frame is full.** -/
theorem Coherent.toList_roles_reserveEach (h : table.Coherent) (calls : List SlotRole) :
    (SlotTable.reserveEach calls table).roles.toList = (table.roles.toList ++ calls).eraseDups.take limit := by
  have htake : ∀ {table : SlotTable}, table.Coherent → table.roles.toList.take limit = table.roles.toList :=
    fun {table} h => List.take_of_length_le (by rw [Array.length_toList]; exact h.size_le)
  induction calls generalizing table with
  | nil => rw [List.append_nil, eraseDups_of_nodup h.nodup, htake h]; rfl
  | cons role rest ih =>
    refine (ih (h.reserve role)).trans ?_
    rcases reserve_cases h role with ⟨hmem, heq⟩ | ⟨_, hfull, heq⟩ | ⟨_, _, after, heq, hroles, _⟩
    · rw [heq, eraseDups_append_cons_of_mem (Array.mem_toList_iff.mpr hmem)]
    · -- what stands behind a full frame is cut off on both sides
      have hlength : table.roles.toList.length = limit := by rw [Array.length_toList]; exact hfull
      rw [heq, eraseDups_append_of_nodup h.nodup, eraseDups_append_of_nodup h.nodup, List.take_left' hlength,
        List.take_left' hlength]
    · rw [heq, hroles, Array.toList_push, List.append_assoc, List.singleton_append]

theorem Coherent.mem_entries_iff (h : table.Coherent) {role : SlotRole} {slot : UInt16} :
    (role, slot) ∈ table.entries ↔ table.roles[slot.toNat]? = some role := by
  rw [entries, List.mem_map]
  constructor
  · rintro ⟨⟨other, place⟩, hmem, heq⟩
    obtain ⟨rfl, rfl⟩ := Prod.mk.inj heq
    have hplace := List.mem_zipIdx_iff_getElem?.mp hmem
    rw [Array.getElem?_toList] at hplace
    have hlt : place < table.size := (Array.getElem?_eq_some_iff.mp hplace).1
    rw [h.toNat_ofNat (Nat.le_of_lt hlt)]
    exact hplace
  · intro hplace
    refine ⟨(role, slot.toNat), List.mem_zipIdx_iff_getElem?.mpr ?_, congrArg (Prod.mk role) UInt16.ofNat_toNat⟩
    rw [Array.getElem?_toList]
    exact hplace

theorem map_fst_entries (table : SlotTable) : table.entries.map Prod.fst = table.roles.toList := by
  rw [entries, List.map_map]
  exact List.zipIdx_map_fst 0 _

/-- The entries of a table are its roles, each with its place. -/
theorem Coherent.map_entries (h : table.Coherent) :
    table.entries.map (fun entry => (entry.1, entry.2.toNat)) = table.roles.toList.zipIdx := by
  rw [entries, List.map_map]
  refine (List.map_congr_left fun pair hpair => ?_).trans (List.map_id _)
  have hplace := List.mem_zipIdx_iff_getElem?.mp hpair
  rw [Array.getElem?_toList] at hplace
  exact congrArg (Prod.mk pair.1) (h.toNat_ofNat (Nat.le_of_lt (Array.getElem?_eq_some_iff.mp hplace).1))

/-- The slots are the places, counted from 0. -/
theorem Coherent.map_slot_entries (h : table.Coherent) :
    table.entries.map (fun entry => entry.2.toNat) = List.range table.size := by
  have hplaces := congrArg (List.map Prod.snd) h.map_entries
  rw [List.map_map, List.zipIdx_map_snd, Array.length_toList, ← List.range_eq_range'] at hplaces
  exact hplaces

theorem Coherent.slot?_eq_none_iff (h : table.Coherent) (role : SlotRole) :
    table.slot? role = none ↔ role ∉ table.roles := by
  rw [← h.contains_iff, Std.HashMap.contains_eq_isSome_getElem?, Bool.not_eq_true, Option.isSome_eq_false_iff,
    Option.isNone_iff_eq_none]
  rfl

/-- **When a reservation succeeds and with what, when it fails and for what**; one that fails changes nothing. -/
theorem Coherent.reserve_outcome (h : table.Coherent) (role : SlotRole) :
    (∀ fault, (table.reserve role).1 = .error (.internal fault) ↔
      table.slot? role ≠ none ∧ fault = .slotReservedTwice role) ∧
    ((table.reserve role).1 = .error .tooManyLocals ↔ table.slot? role = none ∧ table.size = limit) ∧
    (∀ slot, (table.reserve role).1 = .ok slot ↔
      table.slot? role = none ∧ table.size < limit ∧ slot.toNat = table.size) ∧
    ∀ error, (table.reserve role).1 = .error error → (table.reserve role).2 = table := by
  simp only [ne_eq, h.slot?_eq_none_iff]
  rcases reserve_cases h role with ⟨hmem, heq⟩ | ⟨hnew, hfull, heq⟩ | ⟨hnew, hroom, after, heq, _⟩
  · rw [heq]
    simp [hmem, eq_comm]
  · rw [heq]
    simp [hnew, hfull]
  · rw [heq]
    have hslot : ∀ slot, UInt16.ofNat table.size = slot ↔ slot.toNat = table.size := by
      intro slot
      rw [← UInt16.toNat_inj, h.toNat_ofNat (Nat.le_refl _), eq_comm]
    simp [hnew, hroom, Nat.ne_of_lt hroom, hslot]

/-- **What a slot table means behind every run**, whether its reservations succeeded or failed. A lookup gives what
stands in order; the slots are the places from 0 on, and the roles are those that were granted, which are the first ones
to occur, up to the limit. The size of the frame is a 16-bit number. A role that is there is refused, then any role by a
full frame, and otherwise the next slot is given; a refusal changes nothing, and no reservation moves an earlier role.
So a name never has the slot of the receiver or of a container. -/
theorem reserveEach_exact (calls : List SlotRole) :
    let table := reserveEach calls {}
    (∀ role slot, table.slot? role = some slot ↔ (role, slot) ∈ table.entries) ∧
    table.entries.map (fun entry => entry.2.toNat) = List.range table.size ∧
    (table.entries.map Prod.fst).Nodup ∧
    table.entries.map Prod.fst = granted calls {} ∧
    table.entries.map Prod.fst = calls.eraseDups.take 65535 ∧
    (table.size ≤ 65535 ∧ table.maxLocals.toNat = table.size) ∧
    (∀ role,
      (∀ fault, (table.reserve role).1 = .error (.internal fault) ↔
        table.slot? role ≠ none ∧ fault = .slotReservedTwice role) ∧
      ((table.reserve role).1 = .error .tooManyLocals ↔ table.slot? role = none ∧ table.size = 65535) ∧
      (∀ slot, (table.reserve role).1 = .ok slot ↔
        table.slot? role = none ∧ table.size < 65535 ∧ slot.toNat = table.size) ∧
      ∀ error, (table.reserve role).1 = .error error → (table.reserve role).2 = table) ∧
    (∀ later role slot, table.slot? role = some slot → (reserveEach later table).slot? role = some slot) ∧
    ∀ name slot, table.slot? (.named name) = some slot →
      table.slot? .receiver ≠ some slot ∧ table.slot? .positionalArgs ≠ some slot ∧
        table.slot? .keywordArgs ≠ some slot := by
  intro table
  have h : table.Coherent := coherent_empty.reserveEach calls
  have hroles := map_fst_entries table
  refine ⟨fun role slot => (h.slot_iff role slot).trans h.mem_entries_iff.symm, h.map_slot_entries, ?_, ?_, ?_,
    ⟨h.size_le, h.toNat_ofNat (Nat.le_refl _)⟩, h.reserve_outcome, fun later role slot hslot => ?_,
    fun name slot hslot => ?_⟩
  · rw [hroles]
    exact h.nodup
  · exact hroles.trans (coherent_empty.toList_roles_granted calls)
  · exact hroles.trans (coherent_empty.toList_roles_reserveEach calls)
  · rw [h.slot_iff] at hslot
    rw [(h.reserveEach later).slot_iff, ← Array.getElem?_toList, h.toList_roles_granted later,
      List.getElem?_append_left, Array.getElem?_toList]
    · exact hslot
    · rw [Array.length_toList]
      exact (Array.getElem?_eq_some_iff.mp hslot).1
  · exact ⟨fun hother => SlotRole.noConfusion (h.role_unique hslot hother),
      fun hother => SlotRole.noConfusion (h.role_unique hslot hother),
      fun hother => SlotRole.noConfusion (h.role_unique hslot hother)⟩

/-- A frame that is full refuses the receiver, which has no slot yet. -/
theorem reserveEach_exact_fullFrame :
    let table := reserveEach ((lengthNames 65536).map .named) {}
    table.size = 65535 ∧ table.slot? .receiver = none ∧
      (table.reserve .receiver).1 = .error .tooManyLocals := by
  intro table
  obtain ⟨hslot, hslots, _, _, hroles, _, hreserve, _⟩ := reserveEach_exact ((lengthNames 65536).map .named)
  have hnodup : ((lengthNames 65536).map SlotRole.named).Nodup :=
    List.pairwise_map.mpr ((nodup_lengthNames 65536).imp fun hne heq => hne (SlotRole.named.inj heq))
  rw [eraseDups_of_nodup hnodup] at hroles
  have hsize : table.size = 65535 := by
    have hlength := congrArg List.length hroles
    rw [List.length_map, List.length_take, List.length_map, length_lengthNames] at hlength
    have hentries := congrArg List.length hslots
    rw [List.length_map, List.length_range] at hentries
    exact hentries.symm.trans hlength
  have hnone : table.slot? .receiver = none := by
    refine Option.eq_none_iff_forall_ne_some.mpr fun slot hreceiver => ?_
    have hmem := List.mem_map_of_mem (f := Prod.fst) ((hslot _ _).mp hreceiver)
    rw [hroles] at hmem
    obtain ⟨name, _, heq⟩ := List.mem_map.mp (List.mem_of_mem_take hmem)
    exact SlotRole.noConfusion heq
  exact ⟨hsize, hnone, (hreserve .receiver).2.1.mpr ⟨hnone, hsize⟩⟩

end SlotTable

end MethodLowering
