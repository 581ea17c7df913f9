import Kestrel.Eval.Statement
import Kestrel.Proofs.Discipline.Basic

/-!
# Natives, operators and properties under a discipline

What a native function does with data that the program may know is a change of a cell that it may
know, or gives data that it may know. The same goes for operators, properties and assignments to
parts of a value.
-/

namespace Kestrel

namespace Discipline

open Mentioning (mentions)

variable {D : Discipline} {state : State} {store : Store}

section Lists

variable {α : Type} [Mentioning α]

/-- A list of members of a list that the program may know. -/
theorem Knows.subset {parts others : List α} (hparts : D.Knows store parts)
    (hsubset : others ⊆ parts) : D.Knows store others :=
  knows_list.mpr fun part hpart => knows_list.mp hparts part (hsubset hpart)

/-- The members of two lists. -/
theorem Knows.append {first second : List α} (hfirst : D.Knows store first)
    (hsecond : D.Knows store second) : D.Knows store (first ++ second) := by
  refine knows_list.mpr fun part hpart => ?_
  rcases List.mem_append.mp hpart with hpart | hpart
  · exact knows_list.mp hfirst part hpart
  · exact knows_list.mp hsecond part hpart

/-- The member of a list at some place. -/
theorem Knows.getElem? {parts : List α} {position : Nat} {part : α} (hparts : D.Knows store parts)
    (hpart : parts[position]? = some part) : D.Knows store part :=
  knows_list.mp hparts part (List.mem_of_getElem? hpart)

end Lists

/-- Text is known to everyone. -/
theorem knows_strings {γ : Type} (parts : List γ) (f : γ → String) :
    D.Knows store (parts.map fun part => Value.string (f part)) := by
  refine knows_list.mpr fun value hvalue => ?_
  obtain ⟨part, _, rfl⟩ := List.mem_map.mp hvalue
  exact knows_value_string _

/-- The member of a list at some place, or nothing. -/
theorem Knows.getD {parts : List Value} (hparts : D.Knows store parts) (position : Nat) :
    D.Knows store (parts[position]?.getD .nothing) := by
  cases hpart : parts[position]? with
  | none => exact knows_value_nothing
  | some part => exact hparts.getElem? hpart

section Cells

/-- What a scope that the program may know binds. -/
theorem knows_bindings {ref : Ref .scope} (hholds : D.holds store)
    (href : D.admits store (.cell ref)) : D.Knows store (store.get ref : OrderedMap Value) :=
  fun _ hmention => D.admits_held hholds href hmention

/-- What an array that the program may know holds. -/
theorem knows_items {ref : Ref .array} (hholds : D.holds store)
    (href : D.admits store (.cell ref)) : D.Knows store (store.get ref : Array Value) :=
  fun _ hmention => D.admits_held hholds href hmention

/-- What a dictionary that the program may know holds. -/
theorem knows_entries {ref : Ref .dictionary} (hholds : D.holds store)
    (href : D.admits store (.cell ref)) : D.Knows store (store.get ref : OrderedMap Value) :=
  fun _ hmention => D.admits_held hholds href hmention

/-- The methods of a struct that the program may know. -/
theorem knows_methods {ref : Ref .struct} (hholds : D.holds store)
    (href : D.admits store (.cell ref)) : D.Knows store (store.get ref).methods :=
  fun _ hmention => D.admits_held hholds href hmention

/-- The struct and the fields of an object that the program may know. -/
theorem knows_object {ref : Ref .object} (hholds : D.holds store)
    (href : D.admits store (.cell ref)) :
    D.admits store (.cell (store.get ref).template) ∧ D.Knows store (store.get ref).fields :=
  knows_instance.mp fun _ hmention => D.admits_held hholds href hmention

/-- A function that the program may know. -/
theorem knows_function {ref : Ref .function} (hholds : D.holds store)
    (href : D.admits store (.cell ref)) : D.Knows store (store.get ref : Closure) :=
  fun _ hmention => D.admits_held hholds href hmention

/-- A native function that the program may know. -/
theorem knows_native {ref : Ref .native} (hholds : D.holds store)
    (href : D.admits store (.cell ref)) : D.Knows store (store.get ref : Native) :=
  fun _ hmention => D.admits_held hholds href hmention

/-- The members of a namespace that the program may know. -/
theorem knows_members {ref : Ref .exports} (hholds : D.holds store)
    (href : D.admits store (.cell ref)) : D.Knows store (store.get ref).members :=
  fun _ hmention => D.admits_held hholds href hmention

end Cells

section Changes

variable {kind : CellKind}

/-- A change of the items of an array. -/
theorem Obeys.modifyItems {ref : Ref .array} {f : Array Value → Array Value}
    (href : D.admits state.store (.cell ref))
    (hitems : ∀ items : Array Value, D.Knows state.store items → D.Knows state.store (f items)) :
    D.Obeys state (Eval.modifyCell ref f) D.Knows :=
  modifyCell (by simp) (by simp) href (fun hholds => hitems _ (knows_items hholds href)) trivial

/-- A change of the entries of a dictionary. -/
theorem Obeys.modifyEntries {ref : Ref .dictionary} {f : OrderedMap Value → OrderedMap Value}
    (href : D.admits state.store (.cell ref))
    (hentries : ∀ entries : OrderedMap Value, D.Knows state.store entries →
      D.Knows state.store (f entries)) : D.Obeys state (Eval.modifyCell ref f) D.Knows :=
  modifyCell (by simp) (by simp) href (fun hholds => hentries _ (knows_entries hholds href)) trivial

end Changes

/-- An array into which an item was inserted holds the item and what it held before. -/
theorem mem_insertIdxIfInBounds {items : Array Value} {place : Nat} {value other : Value}
    (hother : other ∈ (items.insertIdxIfInBounds place value).toList) :
    other = value ∨ other ∈ items.toList := by
  rw [Array.mem_toList_iff] at hother ⊢
  unfold Array.insertIdxIfInBounds at hother
  split at hother
  · exact Array.mem_insertIdx.mp hother
  · exact .inr hother

section Natives

variable {args : Arguments}

/-- A required argument is one of the arguments. -/
theorem gives_required (hargs : D.Knows store args.values) (position : Nat) :
    Gives (args.required position) (D.Knows store) := by
  unfold Arguments.required
  split
  · next value hvalue => exact gives_ok.mpr (hargs.getElem? hvalue)
  · exact gives_error

/-- A method of a text gives the text, or a value that mentions nothing. -/
theorem gives_textResult {receiver : TextValue} (hreceiver : D.Knows store receiver)
    (method : TextMethod) : Gives (textResult receiver method args store) (D.Knows store) := by
  unfold textResult
  cases method with
  | find =>
    simp only [gives_bind]
    intro needle _
    split <;> simp
  | _ => simp [hreceiver]

/-- A method of a text. -/
theorem Obeys.callTextMethod {receiver : TextValue} (hreceiver : D.Knows state.store receiver)
    (method : TextMethod) :
    D.Obeys state (Kestrel.callTextMethod receiver method args) D.Knows := by
  unfold Kestrel.callTextMethod
  cases method with
  | split => exact afterViewOrFail fun parts _ => newArray (knows_strings parts _)
  | mutable =>
    have hbuffer : ∀ mention ∈ CellKind.mentions .buffer (receiver.content state.store),
        D.admits state.store mention := by
      rintro mention ⟨⟩
    exact afterView (bind (newCell (by simp) hbuffer trivial) fun _ _ _ hmade => pure hmade)
  | append =>
    refine afterViewOrFail fun suffix _ => ?_
    cases receiver with
    | fixed text => exact pure hreceiver
    | buffer ref =>
      have hbuffer : D.Obeys state (Eval.modifyCell ref fun (content : String) => content ++ suffix)
          D.Knows :=
        modifyCell (by simp) (by simp) (knows_text_buffer.mp hreceiver) (by rintro _ mention ⟨⟩)
          trivial
      exact bind hbuffer fun _ _ hpasses _ => pure (hreceiver.later hpasses)
  | _ => exact viewOrFail fun _ => gives_textResult hreceiver _

/-- A method of an array. -/
theorem Obeys.callArrayMethod {receiver : Ref .array}
    (hreceiver : D.admits state.store (.cell receiver)) (hargs : D.Knows state.store args.values)
    (method : ArrayMethod) :
    D.Obeys state (Kestrel.callArrayMethod receiver method args) D.Knows := by
  refine of_holds fun hholds => ?_
  have hitems : D.Knows state.store (state.store.get receiver).toList :=
    knows_items hholds hreceiver
  have hself {after : State} (hpasses : D.Passes state.store after.store) :
      D.Obeys after (Pure.pure (Value.array receiver)) D.Knows :=
    pure (knows_value_array.mpr (D.admits_later hpasses.2 hreceiver))
  unfold Kestrel.callArrayMethod
  cases method with
  | len => exact afterView (pure (knows_value_count _))
  | add =>
    refine bind (modifyItems hreceiver fun items hitems => ?_) fun _ _ hpasses _ => hself hpasses
    rw [knows_array, Array.toList_append, ← knows_list]
    exact Knows.append hitems hargs
  | insert =>
    refine afterViewOrFail ?_
    simp only [gives_bind, gives_pure]
    intro index _ value hvalue place _
    refine bind (modifyItems hreceiver fun items hitems => ?_) fun _ _ hpasses _ => hself hpasses
    rw [knows_array] at hitems ⊢
    intro part hpart
    rcases mem_insertIdxIfInBounds hpart with rfl | hpart
    · exact gives_required hargs 1 _ hvalue
    · exact hitems part hpart
  | remove =>
    refine afterViewOrFail ?_
    simp only [gives_bind, gives_pure]
    intro index _ place _
    have hvalue := hitems.getD place
    rw [Array.getElem?_toList] at hvalue
    refine bind (modifyItems hreceiver fun items hitems => ?_) fun _ _ hpasses _ =>
      pure (hvalue.later hpasses)
    rw [knows_array, Array.toList_eraseIdxIfInBounds, ← knows_list]
    exact Knows.subset hitems (List.eraseIdx_sublist _ _).subset
  | pop =>
    refine afterViewOrFail fun value hlast => ?_
    have hvalue : D.Knows state.store value := by
      split at hlast
      · next last hback =>
        cases hlast
        rw [Array.back?_eq_getElem?, ← Array.getElem?_toList] at hback
        exact hitems.getElem? hback
      · cases hlast
    refine bind (modifyItems hreceiver fun items hitems => ?_) fun _ _ hpasses _ =>
      pure (hvalue.later hpasses)
    rw [knows_array, Array.toList_pop, ← knows_list]
    exact Knows.subset hitems (List.dropLast_subset _)
  | has => exact viewOrFail fun _ => by simp
  | find =>
    refine viewOrFail fun _ => ?_
    simp only [gives_bind]
    intro needle _
    split <;> simp
  | slice =>
    refine afterViewOrFail ?_
    simp only [gives_bind, gives_pure]
    intro start _ stop _
    exact newArray (hitems.subset fun _ hpart => List.mem_of_mem_take (List.mem_of_mem_drop hpart))
  | join => exact viewOrFail fun _ => by simp
  | reverse =>
    refine bind (modifyItems hreceiver fun items hitems => ?_) fun _ _ hpasses _ => hself hpasses
    rw [knows_array, Array.toList_reverse, ← knows_list]
    exact Knows.subset hitems fun _ hpart => List.mem_reverse.mp hpart
  | copy => exact afterView (newArray hitems)

/-- A method of a dictionary. -/
theorem Obeys.callDictionaryMethod {receiver : Ref .dictionary}
    (hreceiver : D.admits state.store (.cell receiver)) (hargs : D.Knows state.store args.values)
    (method : DictionaryMethod) :
    D.Obeys state (Kestrel.callDictionaryMethod receiver method args) D.Knows := by
  refine of_holds fun hholds => ?_
  have hentries : D.Knows state.store (state.store.get receiver : OrderedMap Value) :=
    knows_entries hholds hreceiver
  unfold Kestrel.callDictionaryMethod
  cases method with
  | len => exact afterView (pure (knows_value_count _))
  | add =>
    refine afterViewOrFail ?_
    simp only [gives_bind, gives_pure]
    intro key _ value hvalue
    refine bind (modifyEntries hreceiver fun entries hentries => ?_) fun _ _ hpasses _ =>
      pure (knows_value_dictionary.mpr (D.admits_later hpasses.2 hreceiver))
    exact hentries.insert (gives_required hargs 1 _ hvalue)
  | remove =>
    refine afterViewOrFail ?_
    simp only [gives_bind]
    intro key _
    split
    · next value hvalue =>
      have hknown := hentries.get? hvalue
      exact gives_pure.mpr (bind (modifyEntries hreceiver fun entries hentries => hentries.erase)
        fun _ _ hpasses _ => pure (hknown.later hpasses))
    · exact gives_error
  | has => exact viewOrFail fun _ => by simp
  | keys => exact afterView (newArray (knows_strings _ _))
  | values => exact afterView (newArray (knows_list.mpr (knows_map.mp hentries)))
  | get =>
    refine viewOrFail fun _ => ?_
    simp only [gives_bind]
    intro key _
    split
    · next value hvalue => exact gives_pure.mpr (hentries.get? hvalue)
    · exact gives_pure.mpr (hargs.getD 1)

/-- Printing several texts. -/
theorem Obeys.printPieces (callee : String) (pieces : List String) :
    D.Obeys state (Kestrel.printPieces callee pieces) D.Knows := by
  unfold Kestrel.printPieces
  have hprint : D.Obeys state (forIn pieces PUnit.unit fun piece _ => do
      Eval.print piece (.outputFailed callee "output closed")
      return ForInStep.yield PUnit.unit) fun _ _ => True := by
    induction pieces generalizing state with
    | nil => exact pure trivial
    | cons piece pieces ih =>
      rw [List.forIn_cons, bind_assoc]
      exact bind (print piece _) fun _ _ _ _ => ih
  exact bind hprint fun _ _ _ _ => pure knows_value_nothing

/-- Numbers in a row are known to everyone. -/
theorem knows_countFrom (start : Float) (count : Nat) : D.Knows store (countFrom start count) := by
  refine knows_list.mpr fun value hvalue => ?_
  obtain ⟨offset, _, rfl⟩ := List.mem_map.mp hvalue
  exact knows_value_number _

/-- The numbers of a range. -/
theorem gives_rangeOf : Gives (rangeOf args) (D.Knows store) := by
  unfold rangeOf
  simp only [gives_bind]
  intro stop? _
  split <;> simp [knows_countFrom]

/-- Combined numbers. -/
theorem gives_foldNumbers (combine : Float → Float → Float) :
    Gives (foldNumbers args combine) (D.Knows store) := by
  unfold foldNumbers
  simp only [gives_bind]
  intro _ _ numbers _
  split <;> simp

/-- An error value that a program asks for. -/
theorem gives_makeError (D : Discipline) : Gives (makeError args store) (D.Knows store) := by
  unfold makeError
  simp only [gives_bind]
  intro message _ name? _
  split
  · simp
  · split <;> simp

/-- A condition that holds. -/
theorem gives_checkAssertion (D : Discipline) :
    Gives (checkAssertion args store) (D.Knows store) := by
  unfold checkAssertion
  simp only [gives_bind]
  intro condition _ truth _
  split <;> simp

/-- A built-in function. -/
theorem Obeys.callBuiltin (function : Builtin) :
    D.Obeys state (Kestrel.callBuiltin function args) D.Knows := by
  unfold Kestrel.callBuiltin
  cases function with
  | print => exact afterView (printPieces _ _)
  | println => exact afterView (printPieces _ _)
  | error => exact viewOrFail fun _ => gives_makeError D
  | range => exact bind (lift gives_rangeOf) fun _ _ _ hnumbers => newArray hnumbers
  | assert => exact viewOrFail fun _ => gives_checkAssertion D
  | min => exact viewOrFail fun _ => gives_foldNumbers _
  | max => exact viewOrFail fun _ => gives_foldNumbers _
  | _ => exact viewOrFail fun _ => by simp

/-- A native function with its arguments. -/
theorem Obeys.runNative {native : Native} {values : List Value}
    (hnative : D.Knows state.store native) (hvalues : D.Knows state.store values) :
    D.Obeys state (Kestrel.runNative native values) D.Knows := by
  unfold Kestrel.runNative
  cases native with
  | builtin function => exact callBuiltin function
  | ofNumber receiver method => exact pure (by cases method <;> simp [callNumberMethod])
  | ofText receiver method => exact callTextMethod hnative method
  | ofArray receiver method => exact callArrayMethod (knows_ref.mp hnative) hvalues method
  | ofDictionary receiver method => exact callDictionaryMethod (knows_ref.mp hnative) hvalues method

/-- A call of a native function. -/
theorem Obeys.callNative {ref : Ref .native} {values : List Value}
    (href : D.admits state.store (.cell ref)) (hvalues : D.Knows state.store values) :
    D.Obeys state (Kestrel.callNative ref values) D.Knows := by
  refine of_holds fun hholds => afterView ?_
  refine bind (runNative (knows_native hholds href) hvalues) fun value after _ hvalue => ?_
  cases value with
  | error kind message => exact fail _
  | _ => exact pure hvalue

end Natives

section Operators

/-- An operator gives a value that mentions nothing, apart from the sum of two arrays. -/
theorem gives_operate (operator : BinaryOperator) (left right : Value) :
    Gives (operate store operator left right) (D.Knows store) := by
  have harithmetic (x y : Float) :
      Gives ((arithmetic operator x y).map Value.number) (D.Knows store) :=
    gives_map.mpr fun _ _ => knows_value_number _
  unfold operate
  cases operator with
  | equal => simp
  | notEqual => simp
  | and =>
    simp only [gives_bind]
    intro truth _
    split <;> simp
  | or =>
    simp only [gives_bind]
    intro truth _
    split <;> simp
  | _ =>
    dsimp only
    split
    all_goals first | exact harithmetic _ _ | simp

/-- An operator on two values. -/
theorem Obeys.applyBinary {left right : Value} (hleft : D.Knows state.store left)
    (hright : D.Knows state.store right) (operator : BinaryOperator) :
    D.Obeys state (Kestrel.applyBinary operator left right) D.Knows := by
  unfold Kestrel.applyBinary
  split
  · refine of_holds fun hholds => afterView (newArray ?_)
    exact Knows.append (knows_items hholds (knows_value_array.mp hleft))
      (knows_items hholds (knows_value_array.mp hright))
  · exact viewOrFail fun _ => gives_operate _ _ _

/-- An operator on one value. -/
theorem gives_applyUnary (operator : UnaryOperator) (operand : Value) :
    Gives (applyUnary operator operand) (D.Knows store) := by
  unfold applyUnary
  cases operator with
  | negate => cases operand <;> simp
  | not => simp

/-- What a value holds at an index. -/
theorem gives_indexValue {object : Value} (hholds : D.holds store) (hobject : D.Knows store object)
    (index : Value) : Gives (indexValue store object index) (D.Knows store) := by
  unfold indexValue
  cases object with
  | dictionary ref =>
    dsimp only
    split
    · next value hvalue =>
      have hentries := knows_entries hholds (knows_value_dictionary.mp hobject)
      exact gives_ok.mpr (hentries.get? hvalue)
    · exact gives_error
  | array ref =>
    have hitems := knows_items hholds (knows_value_array.mp hobject)
    simp only [gives_bind, gives_pure, ← Array.getElem?_toList]
    intro number _ place _
    exact Knows.getD hitems place
  | text text => simp
  | _ => exact gives_error

end Operators

section Properties

/-- A method that is to be bound to an object. -/
theorem knows_property_method {function : Ref .function} {object : Ref .object} :
    D.Knows store (Property.method function object) ↔
      D.admits store (.cell function) ∧ D.admits store (.cell object) := by
  simp [Knows, mentions, Property.mentions]

/-- A property of a value that the program may know. -/
theorem knows_property? {value : Value} {name : String} {property : Property}
    (hholds : D.holds store) (hvalue : D.Knows store value)
    (hproperty : property? store value name = some property) : D.Knows store property := by
  unfold property? at hproperty
  cases value with
  | number x =>
    obtain ⟨method, _, rfl⟩ := Option.map_eq_some_iff.mp hproperty
    exact Knows.of_nil rfl
  | text text =>
    obtain ⟨method, _, rfl⟩ := Option.map_eq_some_iff.mp hproperty
    exact hvalue
  | array ref =>
    obtain ⟨method, _, rfl⟩ := Option.map_eq_some_iff.mp hproperty
    exact hvalue
  | dictionary ref =>
    dsimp only at hproperty
    split at hproperty
    · cases hproperty
      exact hvalue
    · obtain ⟨entry, hentry, rfl⟩ := Option.map_eq_some_iff.mp hproperty
      exact (knows_entries hholds (knows_value_dictionary.mp hvalue)).get? hentry
  | error kind message =>
    dsimp only at hproperty
    split_ifs at hproperty
    · cases hproperty
      exact Knows.of_nil rfl
    · cases hproperty
      exact Knows.of_nil rfl
  | struct ref =>
    dsimp only at hproperty
    split at hproperty
    · next function hfunction =>
      cases hproperty
      exact (knows_methods hholds (knows_value_struct.mp hvalue)).get? hfunction
    · split_ifs at hproperty
      cases hproperty
      exact Knows.of_nil rfl
  | object ref =>
    obtain ⟨htemplate, hfields⟩ := knows_object hholds (knows_value_object.mp hvalue)
    dsimp only at hproperty
    split at hproperty
    · next field hfield =>
      cases hproperty
      exact hfields.get? hfield
    · obtain ⟨function, hfunction, rfl⟩ := Option.map_eq_some_iff.mp hproperty
      have hmethod := (knows_methods hholds htemplate).get? hfunction
      exact knows_property_method.mpr ⟨knows_ref.mp hmethod, knows_value_object.mp hvalue⟩
  | exports ref =>
    obtain ⟨member, hmember, rfl⟩ := Option.map_eq_some_iff.mp hproperty
    exact (knows_members hholds (knows_value_exports.mp hvalue)).get? hmember
  | bool b => cases hproperty
  | nothing => cases hproperty
  | function ref => cases hproperty
  | native ref => cases hproperty

/-- A property as a value. -/
theorem Obeys.toValue {property : Property} (hproperty : D.Knows state.store property) :
    D.Obeys state property.toValue D.Knows := by
  unfold Property.toValue
  cases property with
  | value given => exact pure hproperty
  | native method =>
    exact bind (newCell (by simp) hproperty trivial) fun _ _ _ hmade => pure hmade
  | method function object =>
    refine of_holds fun hholds => afterView ?_
    obtain ⟨hfunction, hobject⟩ := knows_property_method.mp hproperty
    have hclosure := knows_closure.mp (knows_function hholds hfunction)
    have hbound : D.Knows state.store
        { state.store.get function with receiver? := some object } :=
      knows_closure.mpr ⟨hclosure.1, knows_some.mpr (knows_ref.mpr hobject)⟩
    exact bind (newCell (by simp) hbound trivial) fun _ _ _ hmade => pure hmade

/-- The property of a value under a name. -/
theorem Obeys.getProperty {value : Value} (hvalue : D.Knows state.store value) (name : String) :
    D.Obeys state (Kestrel.getProperty value name) D.Knows := by
  refine of_holds fun hholds => afterViewOrFail ?_
  split
  · next property hproperty =>
      exact gives_ok.mpr (toValue (knows_property? hholds hvalue hproperty))
  · exact gives_error

end Properties

end Discipline

end Kestrel
