import MethodLowering.Bytecode.SymbolTable

/-!
# What the indices of a symbol table mean

The two parts of a symbol table, the references in order and the index over them, say the same at every point of a run.

* `SymbolTable.Coherent` -- no reference stands twice, and a lookup gives the place of a reference, counted from 1;
* `SymbolTable.intern_cases` -- what interning does;
* `SymbolTable.Extends` -- a table that has the references of another one and maybe more behind them;
* `SymbolTable.method?` -- the reference that an index stands for;
* `SymbolTable.Coherent.method?_intern` -- **an index handed out stands for its reference in every later table**, as
  long as there are no more references than indices.
-/

namespace MethodLowering

namespace SymbolTable

variable {table : SymbolTable}

/-! ## 1. The two parts agree -/

/-- **What the references and the index of a table owe each other**: no reference stands twice, and the lookup of a
reference gives its place, counted from 1 and held in 16 bits. -/
structure Coherent (table : SymbolTable) : Prop where
  nodup : table.methods.toList.Nodup
  get?_iff : ∀ method index,
    table.get? method = some index ↔
      ∃ place, table.methods[place]? = some method ∧ index = UInt16.ofNat (place + 1)

theorem coherent_empty : empty.Coherent where
  nodup := List.nodup_nil
  get?_iff method index := by simp [get?, empty]

/-- A reference is looked up without success exactly when it is not there. -/
theorem Coherent.get?_eq_none_iff (h : table.Coherent) (method : MethodRef) :
    table.get? method = none ↔ method ∉ table.methods := by
  rw [Option.eq_none_iff_forall_ne_some]
  refine ⟨fun hnone hmem => ?_, fun hnew index hget => ?_⟩
  · obtain ⟨place, hplace, hmethod⟩ := Array.getElem_of_mem hmem
    have hget := (h.get?_iff method _).mpr ⟨place, Array.getElem?_eq_some_iff.mpr ⟨hplace, hmethod⟩, rfl⟩
    exact hnone _ hget
  · obtain ⟨place, hmethod, -⟩ := (h.get?_iff method index).mp hget
    exact hnew (Array.mem_of_getElem? hmethod)

/-- The table with a new reference at the end. -/
def push (table : SymbolTable) (method : MethodRef) : SymbolTable where
  methods := table.methods.push method
  index := table.index.insert method (UInt16.ofNat (table.size + 1))

theorem get?_push (table : SymbolTable) (method other : MethodRef) :
    (table.push method).get? other =
      if method = other then some (UInt16.ofNat (table.size + 1)) else table.get? other := by
  simp [get?, push, Std.HashMap.getElem?_insert]

theorem getElem?_methods_push (table : SymbolTable) (method : MethodRef) (place : Nat) :
    (table.push method).methods[place]? = if place = table.size then some method else table.methods[place]? :=
  Array.getElem?_push

theorem Coherent.push (h : table.Coherent) {method : MethodRef} (hnew : method ∉ table.methods) :
    (table.push method).Coherent where
  nodup := by
    show (table.methods.push method).toList.Nodup
    rw [Array.toList_push, List.nodup_append]
    refine ⟨h.nodup, List.pairwise_singleton _ method, fun other hother last hlast heq => ?_⟩
    obtain rfl := List.mem_singleton.mp hlast
    exact hnew (heq ▸ Array.mem_toList_iff.mp hother)
  get?_iff other index := by
    rw [get?_push]
    simp only [getElem?_methods_push]
    by_cases hmethod : method = other
    · subst hmethod
      rw [if_pos rfl, Option.some.injEq]
      refine ⟨fun hindex => ⟨table.size, if_pos rfl, hindex.symm⟩, ?_⟩
      rintro ⟨place, hplace, rfl⟩
      split at hplace
      · rename_i hsize
        rw [hsize]
      · exact absurd (Array.mem_of_getElem? hplace) hnew
    · rw [if_neg hmethod, h.get?_iff]
      refine exists_congr fun place => and_congr_left fun _ => ?_
      split
      · rename_i hsize
        have hnone : table.methods[place]? = none := Array.getElem?_eq_none_iff.mpr (Nat.le_of_eq hsize.symm)
        simp [hnone, hmethod]
      · exact Iff.rfl

/-- **What interning does**: a reference that is there is found, and a new one goes to the end. -/
theorem intern_cases (table : SymbolTable) (method : MethodRef) :
    (∃ index, table.get? method = some index ∧ table.intern method = (index, table)) ∨
      (table.get? method = none ∧
        table.intern method = (UInt16.ofNat (table.size + 1), table.push method)) := by
  unfold intern
  cases hget : table.get? method with
  | some index => exact .inl ⟨index, rfl, rfl⟩
  | none =>
    refine .inr ⟨rfl, ?_⟩
    simp only [Array.size_push]
    rfl

theorem Coherent.intern (h : table.Coherent) (method : MethodRef) : (table.intern method).2.Coherent := by
  rcases table.intern_cases method with ⟨index, -, heq⟩ | ⟨hnone, heq⟩
  · rw [heq]
    exact h
  · rw [heq]
    exact h.push ((h.get?_eq_none_iff method).mp hnone)

/-- The index that interning gives is the place of the reference behind it. -/
theorem Coherent.place_intern (h : table.Coherent) (method : MethodRef) :
    ∃ place, (table.intern method).2.methods[place]? = some method ∧
      (table.intern method).1 = UInt16.ofNat (place + 1) := by
  rcases table.intern_cases method with ⟨index, hget, heq⟩ | ⟨-, heq⟩
  · rw [heq]
    exact (h.get?_iff method index).mp hget
  · rw [heq]
    exact ⟨table.size, by rw [getElem?_methods_push, if_pos rfl], rfl⟩

/-! ## 2. Later tables -/

/-- Whether a table has the references of an earlier one, and maybe more behind them. -/
def Extends (earlier later : SymbolTable) : Prop :=
  earlier.methods.toList <+: later.methods.toList

theorem Extends.refl (table : SymbolTable) : table.Extends table :=
  List.prefix_rfl

theorem Extends.trans {first second third : SymbolTable} (h : first.Extends second) (h' : second.Extends third) :
    first.Extends third :=
  List.IsPrefix.trans h h'

theorem extends_intern (table : SymbolTable) (method : MethodRef) : table.Extends (table.intern method).2 := by
  rcases table.intern_cases method with ⟨index, -, heq⟩ | ⟨-, heq⟩
  · rw [heq]
    exact .refl table
  · rw [heq]
    exact ⟨[method], Array.toList_push.symm⟩

theorem Extends.getElem? {earlier later : SymbolTable} (h : earlier.Extends later) {place : Nat} {method : MethodRef}
    (hplace : earlier.methods[place]? = some method) : later.methods[place]? = some method := by
  obtain ⟨added, hadded⟩ := h
  rw [← Array.getElem?_toList] at hplace ⊢
  rw [← hadded, List.getElem?_append_left (List.getElem?_eq_some_iff.mp hplace).1]
  exact hplace

/-- The reference that an index stands for. -/
def method? (table : SymbolTable) (index : UInt16) : Option MethodRef :=
  if index = 0 then none else table.methods[index.toNat - 1]?

/-- **An index stands for its reference in every later table** that has no more references than there are indices. -/
theorem Coherent.method?_intern (h : table.Coherent) (method : MethodRef) {later : SymbolTable}
    (hlater : (table.intern method).2.Extends later) (hsize : later.size ≤ 65535) :
    later.method? (table.intern method).1 = some method := by
  obtain ⟨place, hplace, hindex⟩ := h.place_intern method
  have hmethod := hlater.getElem? hplace
  have hlt : place < later.size := (Array.getElem?_eq_some_iff.mp hmethod).1
  have hfits : place + 1 < 2 ^ 16 := by omega
  have htoNat : (UInt16.ofNat (place + 1)).toNat = place + 1 := UInt16.toNat_ofNat_of_lt' hfits
  have hne : UInt16.ofNat (place + 1) ≠ 0 := by
    intro hzero
    rw [hzero] at htoNat
    cases htoNat
  rw [hindex, method?, if_neg hne, htoNat, Nat.add_sub_cancel]
  exact hmethod

end SymbolTable

end MethodLowering
