import Mathlib.Data.List.Nodup
import MethodLowering.Bindings

/-!
# Tables of what is there

Where things with different names may have something or nothing, only what is there is bound. This file says what is
found in such a table.

* `Bindings.present` -- the table of what is there, by name;
* `Bindings.get?_present_eq_some_iff`, `Bindings.get?_present` -- under each name is found what it has;
* `Bindings.countP_present_le` -- no name is bound twice.
-/

namespace MethodLowering

namespace Bindings

variable {α : Type}

/-- What is there of named things, each of which may have nothing. -/
def present (items : List (String × Option α)) : Bindings α :=
  ⟨items.filterMap fun (name, value) => value.map (name, ·)⟩

/-- Names of a table are names of the things, in their order. -/
theorem sublist_names_present (items : List (String × Option α)) :
    ((present items).entries.map Prod.fst).Sublist (items.map Prod.fst) := by
  induction items with
  | nil => exact .slnil
  | cons first rest ih =>
    obtain ⟨name, value⟩ := first
    cases value with
    | none => exact ih.cons name
    | some value => exact ih.cons_cons name

theorem mem_present_iff {items : List (String × Option α)} {name : String} {value : α} :
    (name, value) ∈ (present items).entries ↔ (name, some value) ∈ items := by
  unfold present
  rw [List.mem_filterMap]
  constructor
  · intro ⟨⟨own, found⟩, hmem, heq⟩
    obtain ⟨item, rfl, hitem⟩ := Option.map_eq_some_iff.mp heq
    cases hitem
    exact hmem
  · intro hmem
    exact ⟨(name, some value), hmem, rfl⟩

variable {items : List (String × Option α)} (hdistinct : (items.map Prod.fst).Nodup)
include hdistinct

theorem nodup_present : ((present items).entries.map Prod.fst).Nodup :=
  hdistinct.sublist (sublist_names_present items)

/-- **A name is bound to what its thing has**, if all names differ. -/
theorem get?_present_eq_some_iff {name : String} {value : α} :
    (present items).get? name = some value ↔ (name, some value) ∈ items := by
  have hfound : ∀ found, (present items).entries.lookup name = some found →
      (name, found) ∈ (present items).entries := by
    intro found hlookup
    obtain ⟨before, behind, hentries, _⟩ := List.lookup_eq_some_iff.mp hlookup
    rw [hentries]
    exact List.mem_append_right _ List.mem_cons_self
  rw [← mem_present_iff, get?]
  constructor
  · exact hfound value
  · intro hmem
    cases hlookup : (present items).entries.lookup name with
    | none =>
      have hnone := List.lookup_eq_none_iff.mp hlookup (name, value) hmem
      simp at hnone
    | some other =>
      -- what is found is another entry of the name, and there is but one
      have heq := List.inj_on_of_nodup_map (nodup_present hdistinct) (hfound other hlookup) hmem rfl
      rw [(Prod.mk.inj heq).2]

/-- Under a name is found what its thing has, also if that is nothing. -/
theorem get?_present {item : String × Option α} (hmem : item ∈ items) : (present items).get? item.1 = item.2 := by
  refine Option.ext fun value => ?_
  rw [get?_present_eq_some_iff hdistinct]
  constructor
  · intro hvalue
    exact congrArg Prod.snd (List.inj_on_of_nodup_map hdistinct hmem hvalue rfl)
  · intro hvalue
    rw [← hvalue]
    exact hmem

/-- No name is bound twice. -/
theorem countP_present_le (name : String) : (present items).entries.countP (·.1 == name) ≤ 1 := by
  have hcount := List.nodup_iff_count_le_one.mp (nodup_present hdistinct) name
  rwa [List.count, List.countP_map] at hcount

end Bindings

end MethodLowering
