import Kestrel.Proofs.Value.Opened
import Kestrel.Value.Display
import Mathlib.Data.List.OfFn
import Mathlib.Logic.Relation

/-!
# Text of values that may hold themselves

What a value holds, what that holds in turn, and so on, make up a tree, which has no end if a
container is inside itself. The text of a value shows this tree, cut off wherever a container comes
back inside itself: there, an ellipsis stands for it. A container that comes back beside itself is
shown again.
-/

namespace Kestrel

/-- How a container is shown: the marks around its items, and the items, each with what stands
before it. -/
structure Layout where
  opening : String
  closing : String
  items : List (String × Value)

/-- How a value is shown if one does not look into what it holds: as a text, or as a container. -/
inductive Face where
  | plain (text : String)
  | container (layout : Layout)

/-- The face of a value. -/
def Value.face (store : Store) : Value → Face
  | .number n => .plain (numberText n)
  | .text s => .plain ("\"" ++ s.content store ++ "\"")
  | .bool b => .plain (if b then "true" else "false")
  | .nothing => .plain "nothing"
  | .error kind message => .plain (kind.name ++ ": " ++ message)
  | .array ref => .container ⟨"[", "]", (store.get ref).toList.map fun item => ("", item)⟩
  | .dictionary ref => .container ⟨"\x7b", "\x7d",
      (store.get ref).entries.map fun entry => ("\"" ++ entry.1 ++ "\": ", entry.2)⟩
  | .struct ref => .plain ("<struct " ++ (store.get ref).name ++ ">")
  | .object ref => .container ⟨(store.get (store.get ref).template).name ++ "\x7b", "\x7d",
      (store.get ref).fields.entries.map fun field => (field.1 ++ ": ", field.2)⟩
  | .function ref => .plain ("<fn " ++ (store.get ref).displayName ++ ">")
  | .native ref => .plain ("<native fn " ++ (store.get ref).name ++ ">")
  | .exports ref => .plain ("<namespace " ++ (store.get ref).name ++ ">")

/-- What is shown of a value: it itself, an ellipsis for a container, or all that a container
holds. -/
inductive Picture where
  | plain (text : String)
  | ellipsis (layout : Layout)
  | full (layout : Layout) (inside : Fin layout.items.length → Picture)

namespace Picture

/-- A picture as text. -/
def text : Picture → String
  | plain text => text
  | ellipsis layout => layout.opening ++ "..." ++ layout.closing
  | full layout inside =>
      layout.opening ++
        ", ".intercalate (List.ofFn fun i => (layout.items.get i).1 ++ (inside i).text) ++
        layout.closing

/-- A picture without an ellipsis shows everything. -/
def Complete : Picture → Prop
  | plain _ => True
  | ellipsis _ => False
  | full _ inside => ∀ i, (inside i).Complete

end Picture

namespace Value

/-- The picture of a value inside some containers: where one of these comes back there is an
ellipsis, and any other container is shown with the pictures of all that it holds, in order. -/
inductive Unfolds (store : Store) : List Value → Value → Picture → Prop
  | plain {enclosing : List Value} {value : Value} {text : String}
      (hplain : value.face store = .plain text) : Unfolds store enclosing value (.plain text)
  | ellipsis {enclosing : List Value} {value : Value} {layout : Layout}
      (hcontainer : value.face store = .container layout) (hagain : value ∈ enclosing) :
      Unfolds store enclosing value (.ellipsis layout)
  | full {enclosing : List Value} {value : Value} {layout : Layout}
      {inside : Fin layout.items.length → Picture}
      (hcontainer : value.face store = .container layout) (hnew : value ∉ enclosing)
      (hitems : ∀ i, Unfolds store (value :: enclosing) (layout.items.get i).2 (inside i)) :
      Unfolds store enclosing value (.full layout inside)

/-- A container directly holds a value. -/
def Holds (store : Store) (outer inner : Value) : Prop :=
  ∃ layout, outer.face store = .container layout ∧ ∃ item ∈ layout.items, item.2 = inner

/-- Nothing that a value holds, however deep inside, holds itself. -/
def Acyclic (store : Store) (value : Value) : Prop :=
  ∀ inner, Relation.ReflTransGen (Holds store) value inner →
    ¬ Relation.TransGen (Holds store) inner inner

variable {store : Store} {value inner : Value} {enclosing : List Value} {layout : Layout}
  {picture : Picture}

/-! ### Going inwards -/

/-- The containers of a store. -/
def containers (store : Store) : List Value :=
  (store.refs .array).map array ++ (store.refs .dictionary).map dictionary ++
    (store.refs .object).map object

/-- At first no container has been opened. -/
theorem unopened_containers (store : Store) :
    unopened (containers store) [] = nestingBound store := by
  simp [unopened_nil, containers, nestingBound, Store.length_refs, Nat.add_assoc]

/-- What holds something is one of the containers of the store. -/
theorem Holds.mem_containers (hholds : Holds store value inner) : value ∈ containers store := by
  obtain ⟨layout, hface, item, hitem, -⟩ := hholds
  cases value with
  | array ref =>
    cases hface
    obtain ⟨held, hheld, rfl⟩ := List.mem_map.mp hitem
    have hmem : ref ∈ store.refs .array := Store.mem_refs_of_item hheld
    simp [containers, hmem]
  | dictionary ref =>
    cases hface
    obtain ⟨entry, hentry, rfl⟩ := List.mem_map.mp hitem
    have hmem : ref ∈ store.refs .dictionary := Store.mem_refs_of_entry hentry
    simp [containers, hmem]
  | object ref =>
    cases hface
    obtain ⟨field, hfield, rfl⟩ := List.mem_map.mp hitem
    have hmem : ref ∈ store.refs .object := Store.mem_refs_of_field hfield
    simp [containers, hmem]
  | _ => cases hface

/-- A value that is to be shown, inside the containers around it. -/
structure Showing where
  enclosing : List Value
  value : Value

/-- Showing a container that is not open yet asks for showing what it holds. -/
inductive Showing.Asks (store : Store) : Showing → Showing → Prop
  | held {enclosing : List Value} {outer inner : Value} (hnew : outer ∉ enclosing)
      (hholds : Holds store outer inner) : Asks store ⟨outer :: enclosing, inner⟩ ⟨enclosing, outer⟩

/-- Each time that something inside is to be shown, fewer containers are left to open. -/
theorem Showing.Asks.unopened_lt {inner outer : Showing} (hasks : inner.Asks store outer) :
    unopened (containers store) inner.enclosing < unopened (containers store) outer.enclosing := by
  cases hasks with
  | held hnew hholds => exact unopened_cons_lt hholds.mem_containers hnew

/-- Showing a value does not ask for showing others without end. -/
theorem wellFounded_showing (store : Store) : WellFounded (Showing.Asks store) :=
  Subrelation.wf (fun hasks => hasks.unopened_lt)
    (measure fun showing : Showing => unopened (containers store) showing.enclosing).wf

/-! ### The picture of a value -/

/-- A container holds its items. -/
theorem holds_get (hcontainer : value.face store = .container layout)
    (i : Fin layout.items.length) :
    Holds store value (layout.items.get i).2 :=
  ⟨layout, hcontainer, layout.items.get i, List.get_mem _ _, rfl⟩

/-- Every value has a picture, inside any containers. -/
theorem exists_unfolds (store : Store) (enclosing : List Value) (value : Value) :
    ∃ picture, Unfolds store enclosing value picture := by
  suffices h : ∀ showing : Showing,
      ∃ picture, Unfolds store showing.enclosing showing.value picture from h ⟨enclosing, value⟩
  intro showing
  induction showing using (wellFounded_showing store).induction with
  | _ showing ih =>
    obtain ⟨enclosing, value⟩ := showing
    cases hface : value.face store with
    | plain text => exact ⟨_, .plain hface⟩
    | container layout =>
      by_cases hagain : value ∈ enclosing
      · exact ⟨_, .ellipsis hface hagain⟩
      · have hitems : ∀ i : Fin layout.items.length,
            ∃ picture, Unfolds store (value :: enclosing) (layout.items.get i).2 picture :=
          fun i => ih _ (.held hagain (holds_get hface i))
        choose inside hinside using hitems
        exact ⟨_, .full hface hagain hinside⟩

/-- A value has one picture only. -/
theorem Unfolds.unique (hunfolds : Unfolds store enclosing value picture) :
    ∀ {other : Picture}, Unfolds store enclosing value other → picture = other := by
  induction hunfolds with
  | plain hplain =>
    intro other hother
    cases hother with
    | plain hplain' => cases hplain.symm.trans hplain'; rfl
    | ellipsis hcontainer => cases hplain.symm.trans hcontainer
    | full hcontainer => cases hplain.symm.trans hcontainer
  | ellipsis hcontainer hagain =>
    intro other hother
    cases hother with
    | plain hplain => cases hplain.symm.trans hcontainer
    | ellipsis hcontainer' => cases hcontainer.symm.trans hcontainer'; rfl
    | full _ hnew => exact absurd hagain hnew
  | full hcontainer hnew _ ih =>
    intro other hother
    cases hother with
    | plain hplain => cases hplain.symm.trans hcontainer
    | ellipsis _ hagain => exact absurd hagain hnew
    | full hcontainer' _ hitems' =>
      cases hcontainer.symm.trans hcontainer'
      congr
      funext i
      exact ih i (hitems' i)

/-! ### The text of a picture -/

/-- What is no container is shown by its face. -/
theorem reprWithin_plain {text : String} (hplain : value.face store = .plain text) (depth : Nat) :
    reprWithin store (depth + 1) enclosing value = text := by
  cases value <;> cases hplain <;> rfl

/-- A container is shown by an ellipsis inside itself, and else with what it holds. -/
theorem reprWithin_container (hcontainer : value.face store = .container layout) (depth : Nat) :
    reprWithin store (depth + 1) enclosing value =
      if value ∈ enclosing then layout.opening ++ "..." ++ layout.closing
      else layout.opening ++
        ", ".intercalate (layout.items.map fun item =>
          item.1 ++ reprWithin store depth (value :: enclosing) item.2) ++ layout.closing := by
  cases value with
  | array ref =>
    cases hcontainer
    rw [reprWithin, List.map_map]
    split_ifs with hagain
    · rfl
    · have hitems : (store.get ref).toList.map (reprWithin store depth (array ref :: enclosing)) =
          (store.get ref).toList.map
            ((fun item => item.1 ++ reprWithin store depth (array ref :: enclosing) item.2) ∘
              fun item => ("", item)) := by
        apply List.map_congr_left
        intro item _
        exact (String.empty_append).symm
      rw [hitems]
      rfl
  | dictionary ref =>
    cases hcontainer
    rw [reprWithin, List.map_map]
    split_ifs with hagain <;> rfl
  | object ref =>
    cases hcontainer
    rw [reprWithin, List.map_map]
    split_ifs with hagain
    · dsimp only
      rw [String.append_assoc, String.append_assoc]
      rfl
    · rfl
  | _ => cases hcontainer

/-- Deep enough inwards, a value is shown by the text of its picture. -/
theorem Unfolds.reprWithin_eq (hunfolds : Unfolds store enclosing value picture) :
    ∀ {depth : Nat}, unopened (containers store) enclosing ≤ depth →
      reprWithin store (depth + 1) enclosing value = picture.text := by
  induction hunfolds with
  | plain hplain =>
    intro depth _
    exact reprWithin_plain hplain depth
  | ellipsis hcontainer hagain =>
    intro depth _
    rw [reprWithin_container hcontainer, if_pos hagain, Picture.text]
  | @full enclosing value layout inside hcontainer hnew hitems ih =>
    intro depth hdepth
    have hinside : ∀ i : Fin layout.items.length,
        (layout.items.get i).1 ++ reprWithin store depth (value :: enclosing)
          (layout.items.get i).2 = (layout.items.get i).1 ++ (inside i).text := by
      intro i
      have hfewer := (Showing.Asks.held hnew (holds_get hcontainer i)).unopened_lt
      dsimp only at hfewer
      obtain ⟨depth, rfl⟩ := Nat.exists_eq_add_one_of_ne_zero (show depth ≠ 0 by omega)
      rw [ih i (by omega)]
    rw [reprWithin_container hcontainer, if_neg hnew, Picture.text, ← funext hinside,
      ← List.ofFn_getElem_eq_map]
    rfl

/-- The text of a value is that of its picture. -/
theorem Unfolds.repr_eq (hunfolds : Unfolds store [] value picture) :
    value.repr store = picture.text := by
  apply hunfolds.reprWithin_eq
  rw [unopened_containers]
  omega

/-! ### Sharing and cycles -/

/-- Containers that a value does not hold, however deep inside, make no difference to its
picture. -/
theorem Unfolds.of_not_held (hunfolds : Unfolds store enclosing value picture) :
    ∀ {fewer : List Value}, fewer ⊆ enclosing →
      (∀ outer ∈ enclosing, outer ∉ fewer →
        ¬ Relation.ReflTransGen (Holds store) value outer) →
      Unfolds store fewer value picture := by
  induction hunfolds with
  | plain hplain =>
    intro fewer _ _
    exact .plain hplain
  | @ellipsis enclosing value layout hcontainer hagain =>
    intro fewer _ hothers
    apply Unfolds.ellipsis hcontainer
    by_contra hnew'
    exact hothers value hagain hnew' .refl
  | @full enclosing value layout inside hcontainer hnew hitems ih =>
    intro fewer hfewer hothers
    refine .full hcontainer (fun hmem => hnew (hfewer hmem)) ?_
    intro i
    apply ih i (List.cons_subset_cons value hfewer)
    intro outer houter hnew' hheld
    -- what an item holds is held by the container, too
    rcases List.mem_cons.mp houter with rfl | houter
    · exact hnew' List.mem_cons_self
    · apply hothers outer houter fun hmem => hnew' (List.mem_cons_of_mem _ hmem)
      exact .head (holds_get hcontainer i) hheld

/-- Nothing is left out of the picture of a value that holds nothing that holds itself. -/
theorem Unfolds.complete_of_acyclic (hunfolds : Unfolds store enclosing value picture) :
    Acyclic store value → (∀ outer ∈ enclosing, Relation.TransGen (Holds store) outer value) →
      picture.Complete := by
  induction hunfolds with
  | plain =>
    intro _ _
    trivial
  | @ellipsis enclosing value layout hcontainer hagain =>
    intro hacyclic hopen
    exact absurd (hopen value hagain) (hacyclic value .refl)
  | @full enclosing value layout inside hcontainer hnew hitems ih =>
    intro hacyclic hopen i
    have hholds := holds_get hcontainer i
    apply ih i
    · intro inner hinner
      exact hacyclic inner (.head hholds hinner)
    · intro outer houter
      rcases List.mem_cons.mp houter with rfl | houter
      · exact .single hholds
      · exact (hopen outer houter).tail hholds

/-- A value is acyclic if what it directly holds is. -/
theorem acyclic_of_held (hheld : ∀ inner, Holds store value inner → Acyclic store inner) :
    Acyclic store value := by
  intro inner hreach hcycle
  rcases hreach.cases_head with rfl | ⟨next, hnext, hrest⟩
  · -- a cycle through the value passes through something that it directly holds
    obtain ⟨next, hnext, hback⟩ := Relation.TransGen.head'_iff.mp hcycle
    exact hheld next hnext value hback hcycle
  · exact hheld next hnext inner hrest hcycle

/-- A value in whose picture nothing is left out holds nothing that holds itself. -/
theorem Unfolds.acyclic_of_complete (hunfolds : Unfolds store enclosing value picture) :
    picture.Complete → Acyclic store value := by
  induction hunfolds with
  | plain hplain =>
    intro _
    apply acyclic_of_held
    rintro inner ⟨layout, hcontainer, -⟩
    cases hplain.symm.trans hcontainer
  | ellipsis =>
    intro hcomplete
    cases hcomplete
  | full hcontainer hnew hitems ih =>
    intro hcomplete
    apply acyclic_of_held
    rintro inner ⟨layout, hcontainer', item, hitem, rfl⟩
    cases hcontainer.symm.trans hcontainer'
    obtain ⟨i, rfl⟩ := List.get_of_mem hitem
    exact ih i (hcomplete i)

end Value

/-- Showing a value always ends, however containers hold each other: it does not ask for showing
others without end, and the depth that is allowed for never matters. What comes out is the text of
the only picture that unfolds all containers and has an ellipsis exactly where a container comes
back inside itself. A container that comes back elsewhere is shown with all that it holds: as it is
shown on its own, if it does not hold what is around it. The picture is complete exactly if the
value holds nothing that holds itself. -/
theorem repr_shows_unfolding (store : Store) (value : Value) :
    WellFounded (Value.Showing.Asks store) ∧
      (∀ depth > Value.nestingBound store,
        Value.reprWithin store depth [] value = value.repr store) ∧
      (∃! picture, Value.Unfolds store [] value picture) ∧
      (∀ picture, Value.Unfolds store [] value picture →
        value.repr store = picture.text ∧ (picture.Complete ↔ Value.Acyclic store value)) ∧
      ∀ (enclosing : List Value) (shared : Value) (part : Picture),
        Value.Unfolds store enclosing shared part →
        (∀ outer ∈ enclosing, ¬ Relation.ReflTransGen (Value.Holds store) shared outer) →
        part.text = shared.repr store := by
  obtain ⟨picture, hpicture⟩ := Value.exists_unfolds store [] value
  refine ⟨Value.wellFounded_showing store, ?_, ⟨picture, hpicture, ?_⟩, ?_, ?_⟩
  · intro depth hdepth
    obtain ⟨depth, rfl⟩ := Nat.exists_eq_add_one_of_ne_zero (Nat.ne_zero_of_lt hdepth)
    rw [hpicture.repr_eq]
    apply hpicture.reprWithin_eq
    rw [Value.unopened_containers]
    omega
  · intro other hother
    exact hother.unique hpicture
  · intro other hother
    constructor
    · exact hother.repr_eq
    · constructor
      · exact hother.acyclic_of_complete
      · intro hacyclic
        exact hother.complete_of_acyclic hacyclic (by simp)
  · intro enclosing shared part hpart hothers
    have halone : Value.Unfolds store [] shared part :=
      hpart.of_not_held (List.nil_subset _) fun outer houter _ => hothers outer houter
    exact halone.repr_eq.symm

end Kestrel
