import Kestrel.Proofs.Store
import Mathlib.Data.List.Basic

/-!
# Containers that have not been opened yet

Going through a value from the outside in, one may come back to a container that is open already. A
container that is opened anew is one of finitely many: each time, fewer are left.
-/

namespace Kestrel

/-- How many of some things have not been opened yet. -/
def unopened {α : Type} [DecidableEq α] (all opened : List α) : Nat :=
  (all.filter fun thing => thing ∉ opened).length

/-- Before anything has been opened, all is left. -/
theorem unopened_nil {α : Type} [DecidableEq α] (all : List α) : unopened all [] = all.length := by
  simp [unopened]

/-- After something new was opened, fewer things are left. -/
theorem unopened_cons_lt {α : Type} [DecidableEq α] {all opened : List α} {thing : α}
    (hmem : thing ∈ all) (hnew : thing ∉ opened) :
    unopened all (thing :: opened) < unopened all opened := by
  have hsplit : (all.filter fun other => other ∉ thing :: opened) =
      (all.filter fun other => other ∉ opened).filter fun other => other ≠ thing := by
    rw [List.filter_filter]
    refine List.filter_congr fun other _ => ?_
    simp [not_or]
  unfold unopened
  rw [hsplit]
  apply List.length_filter_lt_length_iff_exists.mpr
  exact ⟨thing, by simpa using ⟨hmem, hnew⟩, by simp⟩

namespace Store

variable {kind : CellKind} {store : Store} {ref : Ref kind}

/-- The references to the cells of a kind. -/
def refs (store : Store) (kind : CellKind) : List (Ref kind) :=
  (List.range (store.size kind)).map Ref.mk

/-- There are as many references to cells of a kind as there are cells. -/
theorem length_refs (store : Store) (kind : CellKind) :
    (store.refs kind).length = store.size kind := by
  simp [refs]

/-- The references of a kind are those to the cells there are. -/
theorem mem_refs : ref ∈ store.refs kind ↔ ref.index < store.size kind := by
  constructor
  · intro hmem
    obtain ⟨index, hindex, rfl⟩ := List.mem_map.mp hmem
    exact List.mem_range.mp hindex
  · intro hlt
    exact List.mem_map.mpr ⟨ref.index, List.mem_range.mpr hlt, rfl⟩

/-- A reference to no cell stands for a blank one. -/
theorem get_of_size_le (hle : store.size kind ≤ ref.index) : store.get ref = kind.blank := by
  have hnone : (store.table kind)[ref.index]? = none := Array.getElem?_eq_none hle
  rw [get, hnone]
  rfl

/-- What is not blank is a cell of the store. -/
theorem mem_refs_of_get_ne_blank (hget : store.get ref ≠ kind.blank) : ref ∈ store.refs kind :=
  mem_refs.mpr (Nat.lt_of_not_le fun hle => hget (get_of_size_le hle))

/-- An array that holds an item is in the store. -/
theorem mem_refs_of_item {array : Ref .array} {item : Value}
    (hitem : item ∈ (store.get array).toList) : array ∈ store.refs .array := by
  apply mem_refs_of_get_ne_blank
  intro hblank
  rw [hblank] at hitem
  cases hitem

/-- A dictionary that has an entry is in the store. -/
theorem mem_refs_of_entry {dictionary : Ref .dictionary} {entry : String × Value}
    (hentry : entry ∈ (store.get dictionary).entries) :
    dictionary ∈ store.refs .dictionary := by
  apply mem_refs_of_get_ne_blank
  intro hblank
  rw [hblank] at hentry
  cases hentry

/-- An object that has a field is in the store. -/
theorem mem_refs_of_field {object : Ref .object} {field : String × Value}
    (hfield : field ∈ (store.get object).fields.entries) : object ∈ store.refs .object := by
  apply mem_refs_of_get_ne_blank
  intro hblank
  rw [hblank] at hfield
  cases hfield

end Store

end Kestrel
