import Kestrel.Proofs.Native.Failure
import Kestrel.Proofs.Value.Growth

/-!
# Computations that only add cells

A look at the store, a property and an operator leave every cell that is there as it is. At most
they add a cell: a property that is a method is bound to its object anew, and the sum of two arrays
is a new array.
-/

namespace Kestrel

open Eval

/-- Nothing changed but for new cells. -/
structure State.Grows (before after : State) : Prop where
  store : before.store.Grows after.store
  calls : after.calls = before.calls
  output : after.output = before.output

namespace State.Grows

variable {before middle after : State}

/-- Where nothing was done, nothing changed. -/
theorem refl (state : State) : state.Grows state := ⟨.refl _, rfl, rfl⟩

/-- What grows twice has grown. -/
theorem trans (hfirst : before.Grows middle) (hsecond : middle.Grows after) : before.Grows after :=
  ⟨hfirst.store.trans hsecond.store, hsecond.calls.trans hfirst.calls,
    hsecond.output.trans hfirst.output⟩

/-- A new cell is all that changes when one is made. -/
theorem add (state : State) (kind : CellKind) (content : kind.Content) :
    state.Grows { state with store := state.store.add kind content } :=
  ⟨.add _ _ _, rfl, rfl⟩

end State.Grows

namespace Result

variable {α β : Type} {before middle : State}

/-- The end of a computation that only adds cells and may fail. -/
def GrowsOnly (before : State) : Result α → Prop
  | .value _ after => before.Grows after
  | .interrupted (.error _) after => before.Grows after
  | _ => False

/-- The end of a computation that adds at most cells and then fails. -/
def Fails (before : State) (result : Result α) : Prop :=
  ∃ error after, result = .interrupted (.error error) after ∧ before.Grows after

/-- A computation that only adds cells ends in a state that has grown. -/
theorem GrowsOnly.of_after {result : Result α} {after : State} (hgrows : result.GrowsOnly before)
    (hafter : result.after? = some after) : before.Grows after := by
  cases result with
  | value value final =>
    cases hafter
    exact hgrows
  | interrupted interrupt final =>
    cases hafter
    cases interrupt with
    | error error => exact hgrows
    | loopExit exit => cases hgrows
  | halted reason => cases hafter

/-- What fails after cells were added fails. -/
theorem Fails.of_grows {result : Result α} (hgrows : before.Grows middle)
    (hfails : result.Fails middle) : result.Fails before := by
  obtain ⟨error, after, hend, hgrows'⟩ := hfails
  exact ⟨error, after, hend, hgrows.trans hgrows'⟩

/-- A computation that only adds cells, and another one that then fails whatever it is given. -/
theorem GrowsOnly.andThen_fails {first : Result α} {next : α → Eval β}
    (hgrows : first.GrowsOnly before)
    (hnext : ∀ value after, first = .value value after → before.Grows after →
      (next value after).Fails after) : (first.andThen next).Fails before := by
  cases first with
  | value value after => exact (hnext value after rfl hgrows).of_grows hgrows
  | interrupted interrupt after =>
    cases interrupt with
    | error error => exact ⟨error, after, rfl, hgrows⟩
    | loopExit exit => cases hgrows
  | halted reason => cases hgrows

end Result

namespace Eval

variable {α : Type} {state : State}

/-- A look at the store adds no cell. -/
theorem viewOrFail_growsOnly (f : Store → Except Cause α) (state : State) :
    (viewOrFail f state).GrowsOnly state := by
  unfold viewOrFail
  cases f state.store <;> exact .refl state

/-- A value or a failure adds no cell. -/
theorem lift_growsOnly (outcome : Except Cause α) (state : State) :
    (lift outcome state).GrowsOnly state := by
  cases outcome <;> exact State.Grows.refl state

/-- A look at the store that finds nothing fails. -/
theorem viewOrFail_fails {f : Store → Except Cause α} {cause : Cause}
    (hview : f state.store = .error cause) : (viewOrFail f state).Fails state :=
  ⟨_, state, viewOrFail_of_error hview, .refl state⟩

/-- A failure fails. -/
theorem fail_fails (cause : Cause) (state : State) : (fail cause : Eval α) state |>.Fails state :=
  ⟨_, state, rfl, .refl state⟩

/-- What follows a look at the store that finds nothing does not begin. -/
theorem bind_fails {β : Type} {first : Eval α} (hfirst : (first state).Fails state)
    (next : α → Eval β) : ((first >>= next) state).Fails state := by
  obtain ⟨error, after, hend, hgrows⟩ := hfirst
  exact ⟨error, after, bind_of_interrupted hend next, hgrows⟩

end Eval

/-- A name stands for the property under it. -/
theorem getProperty_of_some {value : Value} {name : String} {property : Property} {state : State}
    (hproperty : property? state.store value name = some property) :
    getProperty value name state = property.toValue state := by
  unfold getProperty
  rw [Eval.bind_of_value (Eval.viewOrFail_of_ok (by rw [hproperty]))]

/-- A property at most adds a cell, for a method. -/
theorem getProperty_growsOnly (value : Value) (name : String) (state : State) :
    (getProperty value name state).GrowsOnly state := by
  cases hproperty : property? state.store value name with
  | none =>
    unfold getProperty
    rw [bind_apply]
    simp only [viewOrFail, hproperty]
    exact .refl state
  | some property =>
    rw [getProperty_of_some hproperty]
    cases property with
    | value given => exact .refl state
    | native method => exact .add state .native _
    | method function object => exact .add state .function _

/-- An operator at most adds a cell, for the sum of two arrays. -/
theorem applyBinary_growsOnly (operator : BinaryOperator) (left right : Value) (state : State) :
    (applyBinary operator left right state).GrowsOnly state := by
  unfold applyBinary
  split
  · exact .add state .array _
  · exact viewOrFail_growsOnly _ state

end Kestrel
