import Kestrel.Proofs.Value.Growth

/-!
# Slots

A binding of a name, an item of an array, an entry of a dictionary and a field of an object are
slots: each has one value, and can get another one. Writing to a slot that is there changes this
slot only. No other one is added or lost, none gets another place among those beside it, and what
cells hold besides slots stays as it is.
-/

namespace Kestrel

/-- A place in a cell that has a value. -/
inductive Slot where
  | binding (ref : Ref .scope) (name : String)
  | item (ref : Ref .array) (place : Nat)
  | entry (ref : Ref .dictionary) (key : String)
  | field (ref : Ref .object) (name : String)
  deriving DecidableEq, Repr

/-- The slots of a cell, in order. -/
def Store.slots (store : Store) : {kind : CellKind} → Ref kind → List Slot
  | .scope, ref => OrderedMap.keys (store.get ref) |>.map (.binding ref)
  | .array, ref => List.range (Array.size (store.get ref)) |>.map (.item ref)
  | .dictionary, ref => OrderedMap.keys (store.get ref) |>.map (.entry ref)
  | .object, ref => (store.get ref).fields.keys.map (.field ref)
  | _, _ => []

/-- Two contents of a cell are the same besides the slots. -/
def CellKind.SameBesidesSlots : (kind : CellKind) → kind.Content → kind.Content → Prop
  | .scope, _, _ => True
  | .array, _, _ => True
  | .dictionary, _, _ => True
  | .object, left, right => left.template = right.template
  | _, left, right => left = right

/-- Every content is the same as itself besides the slots. -/
theorem CellKind.SameBesidesSlots.refl (kind : CellKind) (content : kind.Content) :
    kind.SameBesidesSlots content content := by
  cases kind <;> simp only [CellKind.SameBesidesSlots]

namespace Slot

/-- The cell that a slot is in. -/
def cell : Slot → Mention
  | binding ref _ => .cell ref
  | item ref _ => .cell ref
  | entry ref _ => .cell ref
  | field ref _ => .cell ref

/-- The value of a slot, if the slot is there. -/
def value? (store : Store) : Slot → Option Value
  | binding ref name => OrderedMap.get? (store.get ref) name
  | item ref place => (store.get ref : Array Value)[place]?
  | entry ref key => OrderedMap.get? (store.get ref) key
  | field ref name => (store.get ref).fields.get? name

/-- Gives a slot that is there a value. -/
def put (slot : Slot) (value : Value) (store : Store) : Store :=
  match slot with
  | binding ref name => Scope.rebind store ref name value
  | item ref place =>
    store.modify ref fun (items : Array Value) => items.setIfInBounds place value
  | entry ref key =>
    store.modify ref fun (entries : OrderedMap Value) => entries.insert key value
  | field ref name =>
    store.modify ref fun (made : Instance) => { made with fields := made.fields.insert name value }

/-- A slot got a value, and apart from new cells nothing else changed. -/
structure Written (slot : Slot) (value : Value) (before after : Store) : Prop where
  value : slot.value? after = some value
  others {other : Slot} :
    before.Has other.cell → other ≠ slot → other.value? after = other.value? before
  slots {kind : CellKind} {ref : Ref kind} :
    ref.index < before.size kind → after.slots ref = before.slots ref
  besides {kind : CellKind} {ref : Ref kind} :
    ref.index < before.size kind → kind.SameBesidesSlots (before.get ref) (after.get ref)

variable {store before after : Store} {slot other : Slot} {value : Value} {kind : CellKind}

/-- The slots of a cell depend on what it holds. -/
theorem slots_congr {ref : Ref kind} (hsame : after.get ref = before.get ref) :
    after.slots ref = before.slots ref := by
  cases kind <;> simp only [Store.slots, hsame]

/-- A slot keeps its value when another cell is changed. -/
theorem value?_modify_of_ne {ref : Ref kind} (hne : other.cell ≠ .cell ref)
    (f : kind.Content → kind.Content) : other.value? (store.modify ref f) = other.value? store := by
  have hkeeps : ∀ {kind' : CellKind} (left : Ref kind'), other.cell = .cell left →
      (store.modify ref f).get left = store.get left := by
    intro kind' left hleft
    apply Store.get_modify_of_ne
    rintro rfl hindex
    exact hne (hleft.trans (congrArg Mention.cell (Ref.eq_of_index_eq hindex)))
  cases other with
  | binding left name => simp only [value?, hkeeps left rfl]
  | item left place => simp only [value?, hkeeps left rfl]
  | entry left key => simp only [value?, hkeeps left rfl]
  | field left name => simp only [value?, hkeeps left rfl]

/-- What a slot that is there was given is its value then. -/
theorem value?_put_self (hhere : store.Has slot.cell) (hthere : (slot.value? store).isSome) :
    slot.value? (slot.put value store) = some value := by
  cases slot with
  | binding ref name =>
    simp only [value?, put, Scope.rebind, Store.get_modify_self hhere, OrderedMap.get?_insert,
      if_true]
  | item ref place =>
    have hlt : place < Array.size (store.get ref) := by
      simpa [value?] using hthere
    simp only [value?, put, Store.get_modify_self hhere, Array.getElem?_setIfInBounds, if_true,
      if_pos hlt]
  | entry ref key =>
    simp only [value?, put, Store.get_modify_self hhere, OrderedMap.get?_insert, if_true]
  | field ref name =>
    simp only [value?, put, Store.get_modify_self hhere, OrderedMap.get?_insert, if_true]

/-- Any other slot keeps its value. -/
theorem value?_put_of_ne (hhere : store.Has slot.cell) (hne : other ≠ slot) :
    other.value? (slot.put value store) = other.value? store := by
  by_cases hcell : other.cell = slot.cell
  · cases slot with
    | binding ref name =>
      cases other with
      | binding left first =>
        cases hcell
        have hname : first ≠ name := fun heq => hne (heq ▸ rfl)
        simp only [value?, put, Scope.rebind, Store.get_modify_self hhere, OrderedMap.get?_insert,
          if_neg hname]
      | _ => cases hcell
    | item ref place =>
      cases other with
      | item left first =>
        cases hcell
        have hplace : place ≠ first := fun heq => hne (heq ▸ rfl)
        simp only [value?, put, Store.get_modify_self hhere, Array.getElem?_setIfInBounds,
          if_neg hplace]
      | _ => cases hcell
    | entry ref key =>
      cases other with
      | entry left first =>
        cases hcell
        have hkey : first ≠ key := fun heq => hne (heq ▸ rfl)
        simp only [value?, put, Store.get_modify_self hhere, OrderedMap.get?_insert, if_neg hkey]
      | _ => cases hcell
    | field ref name =>
      cases other with
      | field left first =>
        cases hcell
        have hname : first ≠ name := fun heq => hne (heq ▸ rfl)
        simp only [value?, put, Store.get_modify_self hhere, OrderedMap.get?_insert, if_neg hname]
      | _ => cases hcell
  · cases slot <;> exact value?_modify_of_ne hcell _

/-- A cell keeps its slots in their order, and what it holds besides. -/
theorem slots_put (hhere : store.Has slot.cell) (hthere : (slot.value? store).isSome)
    (ref : Ref kind) :
    (slot.put value store).slots ref = store.slots ref ∧
      kind.SameBesidesSlots (store.get ref) ((slot.put value store).get ref) := by
  by_cases hcell : slot.cell = .cell ref
  · cases slot with
    | binding ref name =>
      cases hcell
      have hkey : name ∈ OrderedMap.keys (store.get ref) := OrderedMap.contains_iff.mp hthere
      simp only [put, Scope.rebind, Store.slots, Store.get_modify_self hhere,
        OrderedMap.keys_insert_of_mem hkey, CellKind.SameBesidesSlots, and_self]
    | item ref place =>
      cases hcell
      simp only [put, Store.slots, Store.get_modify_self hhere, Array.size_setIfInBounds,
        CellKind.SameBesidesSlots, and_self]
    | entry ref key =>
      cases hcell
      have hkey : key ∈ OrderedMap.keys (store.get ref) := OrderedMap.contains_iff.mp hthere
      simp only [put, Store.slots, Store.get_modify_self hhere, OrderedMap.keys_insert_of_mem hkey,
        CellKind.SameBesidesSlots, and_self]
    | field ref name =>
      cases hcell
      have hkey : name ∈ (store.get ref).fields.keys := OrderedMap.contains_iff.mp hthere
      simp only [put, Store.slots, Store.get_modify_self hhere, OrderedMap.keys_insert_of_mem hkey,
        CellKind.SameBesidesSlots, and_self]
  · have hkeeps : (slot.put value store).get ref = store.get ref := by
      have hne : ∀ {kind' : CellKind} (left : Ref kind'), slot.cell = .cell left →
          kind = kind' → ref.index ≠ left.index := by
        rintro kind' left hleft rfl hindex
        exact hcell (hleft.trans (congrArg Mention.cell (Ref.eq_of_index_eq hindex.symm)))
      cases slot <;> exact Store.get_modify_of_ne (hne _ rfl) _
    rw [slots_congr hkeeps, hkeeps]
    exact ⟨rfl, .refl kind _⟩

/-- A slot that is there is written to alone. -/
theorem written_put (hhere : store.Has slot.cell) (hthere : (slot.value? store).isSome) :
    slot.Written value store (slot.put value store) where
  value := value?_put_self hhere hthere
  others _ hne := value?_put_of_ne hhere hne
  slots {_ ref} _ := (slots_put hhere hthere ref).1
  besides {_ ref} _ := (slots_put hhere hthere ref).2

/-- A slot of a store that grows keeps its value. -/
theorem value?_of_grows (hgrows : before.Grows after) (hhere : before.Has slot.cell) :
    slot.value? after = slot.value? before := by
  cases slot with
  | binding ref name => simp only [value?, hgrows.get_eq hhere]
  | item ref place => simp only [value?, hgrows.get_eq hhere]
  | entry ref key => simp only [value?, hgrows.get_eq hhere]
  | field ref name => simp only [value?, hgrows.get_eq hhere]

/-- New cells that come before a slot is written to make no difference. -/
theorem Written.of_grows {middle : Store} (hgrows : before.Grows middle)
    (hwritten : slot.Written value middle after) : slot.Written value before after where
  value := hwritten.value
  others {other} hhere hne := by
    have hmiddle : middle.Has other.cell := by
      cases other <;> exact Nat.lt_of_lt_of_le hhere (hgrows.size_le _)
    rw [hwritten.others hmiddle hne, value?_of_grows hgrows hhere]
  slots {kind ref} hhere := by
    have hmiddle : ref.index < middle.size kind := Nat.lt_of_lt_of_le hhere (hgrows.size_le kind)
    rw [hwritten.slots hmiddle, slots_congr (hgrows.get_eq hhere)]
  besides {kind ref} hhere := by
    have hmiddle : ref.index < middle.size kind := Nat.lt_of_lt_of_le hhere (hgrows.size_le kind)
    rw [← hgrows.get_eq hhere]
    exact hwritten.besides hmiddle

end Slot

end Kestrel
