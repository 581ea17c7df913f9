import Kestrel.Scope

/-!
# Cells of the store

A new cell holds what it was made with, and a changed one what it was changed to. All other cells
hold what they held before.
-/

namespace Kestrel

/-- References to cells of one kind differ in their places only. -/
theorem Ref.eq_of_index_eq {kind : CellKind} {left right : Ref kind}
    (hindex : left.index = right.index) : left = right := by
  cases left
  cases right
  cases hindex
  rfl

namespace Store

variable {kind other : CellKind} {store : Store}

/-- The cells of a kind after a change to them. -/
theorem table_mapTable (store : Store) (kind : CellKind)
    (f : Array kind.Content → Array kind.Content) :
    (store.mapTable kind f).table kind = f (store.table kind) := by
  cases kind <;> rfl

/-- The cells of a kind after a change to another one. -/
theorem table_mapTable_of_ne (hother : other ≠ kind)
    (f : Array kind.Content → Array kind.Content) :
    (store.mapTable kind f).table other = store.table other := by
  cases kind <;> cases other <;> first | rfl | exact absurd rfl hother

/-- The number of cells grows by one. -/
theorem size_add (store : Store) (kind : CellKind) (content : kind.Content) :
    (store.add kind content).size kind = store.size kind + 1 := by
  unfold size add
  rw [table_mapTable, Array.size_push]

/-- The number of cells of other kinds stays. -/
theorem size_add_of_ne (hother : other ≠ kind) (content : kind.Content) :
    (store.add kind content).size other = store.size other := by
  unfold size add
  rw [table_mapTable_of_ne hother]

/-- No cell is lost when one is added. -/
theorem size_le_size_add (store : Store) (kind other : CellKind) (content : kind.Content) :
    store.size other ≤ (store.add kind content).size other := by
  by_cases hother : other = kind
  · subst hother
    rw [size_add]
    omega
  · exact Nat.le_of_eq (size_add_of_ne hother content).symm

/-- No cell is lost or added when one is changed. -/
theorem size_modify (store : Store) (ref : Ref kind) (f : kind.Content → kind.Content)
    (other : CellKind) : (store.modify ref f).size other = store.size other := by
  unfold size modify
  by_cases hother : other = kind
  · subst hother
    rw [table_mapTable, Array.size_modify]
  · rw [table_mapTable_of_ne hother]

/-- A new cell is there. -/
theorem next_lt_size_add (store : Store) (kind : CellKind) (content : kind.Content) :
    (store.next kind).index < (store.add kind content).size kind := by
  rw [size_add]
  exact Nat.lt_succ_self _

/-- A new cell holds what it was made with. -/
theorem get_add_next (store : Store) (kind : CellKind) (content : kind.Content) :
    (store.add kind content).get (store.next kind) = content := by
  unfold get add next size
  rw [table_mapTable, Array.getElem?_push_size, Option.getD_some]

/-- The cells that were there hold what they held before a new one was added. -/
theorem get_add_of_lt {ref : Ref other} (hlt : ref.index < store.size other)
    (content : kind.Content) : (store.add kind content).get ref = store.get ref := by
  unfold get add
  by_cases hkind : other = kind
  · subst hkind
    have hne : ref.index ≠ (store.table other).size := Nat.ne_of_lt hlt
    rw [table_mapTable, Array.getElem?_push, if_neg hne]
  · rw [table_mapTable_of_ne hkind]

/-- The cells of other kinds hold what they held before a new one was added. -/
theorem get_add_of_ne {ref : Ref other} (hother : other ≠ kind) (content : kind.Content) :
    (store.add kind content).get ref = store.get ref := by
  unfold get add
  rw [table_mapTable_of_ne hother]

/-- What holds of the cells that were there and of a new one holds of all cells then. -/
theorem forall_get_add {content : kind.Content}
    {motive : (other : CellKind) → Ref other → other.Content → Prop}
    (hold : ∀ {other : CellKind} (ref : Ref other), ref.index < store.size other →
      motive other ref (store.get ref)) (hnew : motive kind (store.next kind) content)
    {ref : Ref other} (hlt : ref.index < (store.add kind content).size other) :
    motive other ref ((store.add kind content).get ref) := by
  by_cases hthere : ref.index < store.size other
  · rw [get_add_of_lt hthere]
    exact hold ref hthere
  · have hother : other = kind := by
      refine Decidable.byContradiction fun hne => hthere ?_
      rwa [size_add_of_ne hne] at hlt
    subst hother
    have hnext : ref = store.next other := by
      rw [size_add] at hlt
      exact Ref.eq_of_index_eq (show ref.index = store.size other by omega)
    rw [hnext, get_add_next]
    exact hnew

/-- A cell holds what it was changed to. -/
theorem get_modify_self {ref : Ref kind} (hlt : ref.index < store.size kind)
    (f : kind.Content → kind.Content) : (store.modify ref f).get ref = f (store.get ref) := by
  obtain ⟨content, hcell⟩ : ∃ content, (store.table kind)[ref.index]? = some content :=
    ⟨_, Array.getElem?_eq_getElem hlt⟩
  unfold get modify
  rw [table_mapTable, Array.getElem?_modify, if_pos rfl, hcell]
  rfl

/-- Where there is no cell, none is changed. -/
theorem get_modify_of_size_le {ref : Ref kind} (hle : store.size kind ≤ ref.index)
    (f : kind.Content → kind.Content) : (store.modify ref f).get ref = store.get ref := by
  have hnone : (store.table kind)[ref.index]? = none := Array.getElem?_eq_none hle
  unfold get modify
  rw [table_mapTable, Array.getElem?_modify, if_pos rfl, hnone]
  rfl

/-- A change of one cell leaves those of other kinds and those with other places alone. -/
theorem get_modify_of_ne {ref : Ref kind} {left : Ref other}
    (hne : other = kind → left.index ≠ ref.index) (f : kind.Content → kind.Content) :
    (store.modify ref f).get left = store.get left := by
  unfold get modify
  by_cases hkind : other = kind
  · subst hkind
    rw [table_mapTable, Array.getElem?_modify, if_neg (hne rfl).symm]
  · rw [table_mapTable_of_ne hkind]

/-- What holds of the cells that were there and of what one of them was changed to holds of all
cells then. -/
theorem forall_get_modify {ref : Ref kind} {f : kind.Content → kind.Content}
    {motive : (other : CellKind) → Ref other → other.Content → Prop}
    (hold : ∀ {other : CellKind} (left : Ref other), left.index < store.size other →
      motive other left (store.get left))
    (hnew : ref.index < store.size kind → motive kind ref (f (store.get ref))) {left : Ref other}
    (hlt : left.index < (store.modify ref f).size other) :
    motive other left ((store.modify ref f).get left) := by
  rw [size_modify] at hlt
  by_cases hsame : ∃ heq : other = kind, heq ▸ left = ref
  · obtain ⟨rfl, rfl⟩ := hsame
    rw [get_modify_self hlt]
    exact hnew hlt
  · have hne : other = kind → left.index ≠ ref.index := by
      rintro rfl hindex
      exact hsame ⟨rfl, Ref.eq_of_index_eq hindex⟩
    rw [get_modify_of_ne hne]
    exact hold left hlt

end Store

end Kestrel
