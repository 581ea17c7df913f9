import Kestrel.Proofs.Discipline.Shape
import Kestrel.Proofs.Value.Rendering

/-!
# Text of values while the store grows

New cells make no difference to what the cells that were there hold. So a value that is there keeps
its picture, and with it its text.
-/

namespace Kestrel

open Discipline

namespace Store

/-- Every cell that is there stays there, and holds what it held. -/
structure Grows (before after : Store) : Prop where
  size_le (kind : CellKind) : before.size kind ≤ after.size kind
  get_eq {kind : CellKind} {ref : Ref kind} :
    ref.index < before.size kind → after.get ref = before.get ref

/-- Nothing has to be added. -/
theorem Grows.refl (store : Store) : Grows store store := ⟨fun _ => Nat.le_refl _, fun _ => rfl⟩

/-- A store that grew can grow again. -/
theorem Grows.trans {before middle after : Store} (hfirst : Grows before middle)
    (hsecond : Grows middle after) : Grows before after where
  size_le kind := Nat.le_trans (hfirst.size_le kind) (hsecond.size_le kind)
  get_eq {kind ref} hthere := by
    have hmiddle : ref.index < middle.size kind := Nat.lt_of_lt_of_le hthere (hfirst.size_le kind)
    exact (hsecond.get_eq hmiddle).trans (hfirst.get_eq hthere)

/-- A store grows when a cell is added. -/
theorem Grows.add (store : Store) (kind : CellKind) (content : kind.Content) :
    Grows store (store.add kind content) where
  size_le other := size_le_size_add store kind other content
  get_eq hthere := get_add_of_lt hthere content

end Store

namespace Value

variable {before after : Store} {value : Value}

/-- What a container that is there holds is there. -/
theorem knows_held (hsound : before.Sound) (hknown : shapes.Knows before value) {layout : Layout}
    (hcontainer : value.face before = .container layout) :
    ∀ item ∈ layout.items, shapes.Knows before item.2 := by
  intro item hitem
  have hholds : shapes.holds before := hsound
  cases value with
  | array ref =>
    cases hcontainer
    obtain ⟨held, hheld, rfl⟩ := List.mem_map.mp hitem
    have hitems := knows_items hholds (knows_value_array.mp hknown)
    exact knows_array.mp hitems held hheld
  | dictionary ref =>
    cases hcontainer
    obtain ⟨entry, hentry, rfl⟩ := List.mem_map.mp hitem
    have hentries := knows_entries hholds (knows_value_dictionary.mp hknown)
    exact knows_map.mp hentries entry.2 (List.mem_map_of_mem hentry)
  | object ref =>
    cases hcontainer
    obtain ⟨field, hfield, rfl⟩ := List.mem_map.mp hitem
    have hobject := knows_object hholds (knows_value_object.mp hknown)
    exact knows_map.mp hobject.2 field.2 (List.mem_map_of_mem hfield)
  | _ => cases hcontainer

/-- A value that is there keeps its face. -/
theorem face_of_grows (hgrows : before.Grows after) (hsound : before.Sound)
    (hknown : shapes.Knows before value) : value.face after = value.face before := by
  cases value with
  | text content =>
    cases content with
    | fixed text => rfl
    | buffer ref =>
      have hthere := knows_text_buffer.mp (knows_value_text.mp hknown)
      simp only [face, TextValue.content, hgrows.get_eq hthere]
  | array ref => simp only [face, hgrows.get_eq (knows_value_array.mp hknown)]
  | dictionary ref => simp only [face, hgrows.get_eq (knows_value_dictionary.mp hknown)]
  | struct ref => simp only [face, hgrows.get_eq (knows_value_struct.mp hknown)]
  | object ref =>
    have hobject := knows_value_object.mp hknown
    have htemplate := (@knows_object shapes before ref hsound hobject).1
    simp only [face, hgrows.get_eq hobject, hgrows.get_eq htemplate]
  | function ref => simp only [face, hgrows.get_eq (knows_value_function.mp hknown)]
  | native ref => simp only [face, hgrows.get_eq (knows_value_native.mp hknown)]
  | exports ref => simp only [face, hgrows.get_eq (knows_value_exports.mp hknown)]
  | _ => rfl

/-- A value that is there keeps its picture. -/
theorem Unfolds.of_grows (hgrows : before.Grows after) (hsound : before.Sound)
    {enclosing : List Value} {picture : Picture}
    (hunfolds : Unfolds before enclosing value picture) :
    shapes.Knows before value → Unfolds after enclosing value picture := by
  induction hunfolds with
  | plain hplain =>
    intro hknown
    exact .plain ((face_of_grows hgrows hsound hknown).trans hplain)
  | ellipsis hcontainer hagain =>
    intro hknown
    exact .ellipsis ((face_of_grows hgrows hsound hknown).trans hcontainer) hagain
  | full hcontainer hnew hitems ih =>
    intro hknown
    apply Unfolds.full ((face_of_grows hgrows hsound hknown).trans hcontainer) hnew
    intro i
    exact ih i (knows_held hsound hknown hcontainer _ (List.get_mem _ _))

/-- A value that is there is shown as before. -/
theorem display_of_grows (hgrows : before.Grows after) (hsound : before.Sound)
    (hknown : shapes.Knows before value) : value.display after = value.display before := by
  have hrepr : value.repr after = value.repr before := by
    obtain ⟨picture, hpicture⟩ := exists_unfolds before [] value
    rw [hpicture.repr_eq, (hpicture.of_grows hgrows hsound hknown).repr_eq]
  cases value with
  | text content =>
    cases content with
    | fixed text => rfl
    | buffer ref => exact hgrows.get_eq (knows_text_buffer.mp (knows_value_text.mp hknown))
  | _ => exact hrepr

end Value

end Kestrel
