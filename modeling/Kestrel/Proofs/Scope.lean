import Kestrel.Scope
import Mathlib.Tactic.SplitIfs

/-!
# What names are bound to

A name that has a meaning in a scope, or can be assigned to there, is bound by a cell of the scope's
chain.
-/

namespace Kestrel

namespace Scope

variable {scope : Scope} {store : Store} {name : String}

/-- A scope that binds a name among others is one of them and binds the name. -/
theorem binderAmong_eq_some {chain : List (Ref .scope)} {ref : Ref .scope}
    (hbinder : binderAmong store name chain = some ref) :
    ref ∈ chain ∧ (store.get ref).contains name := by
  induction chain with
  | nil => cases hbinder
  | cons first others ih =>
    rw [binderAmong] at hbinder
    split_ifs at hbinder with hcontains
    · cases hbinder
      exact ⟨by simp, hcontains⟩
    · exact ⟨List.mem_cons_of_mem _ (ih hbinder).1, (ih hbinder).2⟩

/-- What a name means is bound to it in a cell of the chain. -/
theorem lookup_eq_ok {value : Value} (hlookup : scope.lookup store name = .ok value) :
    ∃ ref ∈ scope.here :: scope.outer, (store.get ref).get? name = some value := by
  unfold lookup at hlookup
  split at hlookup
  · next found hfound =>
    cases hlookup
    obtain ⟨ref, hbinder, hvalue⟩ := Option.bind_eq_some_iff.mp hfound
    exact ⟨ref, (binderAmong_eq_some hbinder).1, hvalue⟩
  · cases hlookup

/-- The cell in which an assignment finds a name is one of the chain, and binds the name. -/
theorem assignable_eq_ok {ref : Ref .scope} (hassignable : scope.assignable store name = .ok ref) :
    ref ∈ scope.here :: scope.outer ∧ (store.get ref).contains name := by
  unfold assignable at hassignable
  split at hassignable
  · next found hfound =>
    cases hassignable
    exact binderAmong_eq_some hfound
  · cases hassignable

end Scope

end Kestrel
