import Kestrel.Proofs.Dictionary.History
import Kestrel.Proofs.Eval.Growing
import Kestrel.Proofs.Number.Text

/-!
# What a dictionary answers

A dictionary is read through an index, through a name after a dot, by its methods and by a loop. The
main theorem says that all of these tell of one map, which is the one that the changes to the
dictionary led to.
-/

namespace Kestrel

/-- The value that a computation ends with, if it ends with one. -/
def Result.value? {α : Type} : Result α → Option α
  | .value given _ => some given
  | _ => none

open DictionaryChange in
/-- Every way to read a dictionary in a state tells of the map that some changes led to. -/
structure DictionaryAnswers (ref : Ref .dictionary) (changes : List DictionaryChange)
    (state : State) : Prop where
  /-- What is listed are the keys that have a value, each once. -/
  listed : ((listing changes).map Prod.fst).Nodup ∧
    ∀ key value, (key, value) ∈ listing changes ↔ lastWritten key changes = some value
  /-- Under its name there is always the method. -/
  method (kind : DictionaryMethod) : ∃ bound after,
    getProperty (.dictionary ref) kind.name state = .value (.native bound) after ∧
      after.store.get bound = .ofDictionary ref kind ∧ DictionaryHistory ref changes after
  /-- Under any other name there is the value of that key. -/
  member {name : String} (hother : ∀ kind : DictionaryMethod, name ≠ kind.name) :
    (getProperty (.dictionary ref) name state).value? = lastWritten name changes ∧
      (indexValue state.store (.dictionary ref) (.string name)).toOption =
        lastWritten name changes
  index (key : Value) : (indexValue state.store (.dictionary ref) key).toOption =
    lastWritten (key.display state.store) changes
  has {method : Ref .native} (hbound : state.store.get method = .ofDictionary ref .has)
    (evaluator : Evaluator) (key : Value) (more : List Value) (module : String) (line : Nat) :
    callValue evaluator (.native method) (key :: more) module line state =
      .value (.bool (lastWritten (key.display state.store) changes).isSome) state
  remove {method : Ref .native} (hbound : state.store.get method = .ofDictionary ref .remove)
    (evaluator : Evaluator) (key : Value) (more : List Value) (module : String) (line : Nat) :
    (callValue evaluator (.native method) (key :: more) module line state).value? =
      lastWritten (key.display state.store) changes
  /-- A default that is an error is raised, but no value of the dictionary is. -/
  get {method : Ref .native} (hbound : state.store.get method = .ofDictionary ref .get)
    (evaluator : Evaluator) (key : Value) (more : List Value) (module : String) (line : Nat) :
    (∀ value, lastWritten (key.display state.store) changes = some value →
      callValue evaluator (.native method) (key :: more) module line state =
        .value value state) ∧
      (lastWritten (key.display state.store) changes = none →
        callValue evaluator (.native method) (key :: more) module line state =
          (Result.value (more[0]?.getD .nothing) state).raised)
  len {method : Ref .native} (hbound : state.store.get method = .ofDictionary ref .len)
    (evaluator : Evaluator) (arguments : List Value) (module : String) (line : Nat) :
    callValue evaluator (.native method) arguments module line state =
      .value (.count (listing changes).length) state
  keys {method : Ref .native} (hbound : state.store.get method = .ofDictionary ref .keys)
    (evaluator : Evaluator) (arguments : List Value) (module : String) (line : Nat) :
    ∃ items after,
      callValue evaluator (.native method) arguments module line state =
        .value (.array items) after ∧
      (after.store.get items).toList = (listing changes).map fun entry => .string entry.1
  values {method : Ref .native} (hbound : state.store.get method = .ofDictionary ref .values)
    (evaluator : Evaluator) (arguments : List Value) (module : String) (line : Nat) :
    ∃ items after,
      callValue evaluator (.native method) arguments module line state =
        .value (.array items) after ∧
      (after.store.get items).toList = (listing changes).map Prod.snd
  /-- A loop goes through the entries. -/
  loop : iterationEntries state.store (.dictionary ref) =
    .ok ((listing changes).map fun entry => (.string entry.1, entry.2))
  /-- A literal turns a number that stands as a key to the text of this number. -/
  numberKey {text : String} {x : Float} (hread : readNumber? text.toList = some x)
    (hunsigned : text.toList.head? ≠ some '-') (span : Span) :
    Part.entryKey ⟨.number, span, text, .ok (.number x)⟩ =
      .ok ((Value.number x).display state.store)

section Reading

variable {changes : List DictionaryChange} {ref : Ref .dictionary} {state : State}

/-- The methods of dictionaries are found by their names. -/
theorem DictionaryMethod.ofName?_name (kind : DictionaryMethod) :
    DictionaryMethod.ofName? kind.name = some kind := by
  cases kind <;> rfl

/-- A name that no method has is the name of no method. -/
theorem DictionaryMethod.ofName?_of_ne {name : String}
    (hother : ∀ kind : DictionaryMethod, name ≠ kind.name) :
    DictionaryMethod.ofName? name = none := by
  apply List.find?_eq_none.mpr
  intro kind _ hname
  exact hother kind (of_decide_eq_true hname).symm

/-- The name of a method stands for the method, bound to the dictionary. -/
theorem getProperty_method (kind : DictionaryMethod) :
    getProperty (.dictionary ref) kind.name state =
      .value (.native (state.store.next .native)) { state with
        store := state.store.add .native (.ofDictionary ref kind) } := by
  have hproperty : property? state.store (.dictionary ref) kind.name =
      some (.native (.ofDictionary ref kind)) := by
    rw [property?, DictionaryMethod.ofName?_name]
  rw [getProperty_of_some hproperty]
  rfl

/-- Any other name stands for the value of a key. -/
theorem getProperty_entry {name : String} (hother : ∀ kind : DictionaryMethod, name ≠ kind.name) :
    (getProperty (.dictionary ref) name state).value? = (state.store.get ref).get? name := by
  have hproperty : property? state.store (.dictionary ref) name =
      ((state.store.get ref).get? name).map .value := by
    rw [property?, DictionaryMethod.ofName?_of_ne hother]
  cases hthere : (state.store.get ref).get? name with
  | none =>
    rw [hthere] at hproperty
    unfold getProperty
    rw [Eval.bind_of_interrupted (Eval.viewOrFail_of_error (by rw [hproperty]; rfl))]
    rfl
  | some value =>
    rw [hthere] at hproperty
    rw [getProperty_of_some hproperty]
    rfl

/-- An index gives the value of a key. -/
theorem indexValue_dictionary (store : Store) (key : Value) :
    (indexValue store (.dictionary ref) key).toOption =
      (store.get ref).get? (key.display store) := by
  rw [indexValue]
  cases (store.get ref).get? (key.display store) <;> rfl

/-- The method `get` gives the value of a key, or its second argument. -/
theorem callDictionaryMethod_get (callee : String) (key : Value) (more : List Value) :
    callDictionaryMethod ref .get ⟨callee, key :: more⟩ state =
      .value (((state.store.get ref).get? (key.display state.store)).getD
        (more[0]?.getD .nothing)) state := by
  unfold callDictionaryMethod
  apply Eval.viewOrFail_of_ok
  cases hthere : (state.store.get ref).get? (key.display state.store) <;>
    simp [Arguments.display, Arguments.required, Except.map, bind, Except.bind, pure,
      Except.pure, hthere]

/-- A method that makes a new array gives it, with the items that it was made of. -/
theorem callValue_newArray {method : Ref .native} {kind : DictionaryMethod}
    {arguments items : List Value} (hbound : state.store.get method = .ofDictionary ref kind)
    (hmakes : callDictionaryMethod ref kind ⟨kind.name, arguments⟩ state =
      Eval.newArray items state) (evaluator : Evaluator) (module : String) (line : Nat) :
    ∃ made after,
      callValue evaluator (.native method) arguments module line state =
        .value (.array made) after ∧
      (after.store.get made).toList = items := by
  rw [callValue_bound hbound, hmakes]
  refine ⟨_, _, rfl, ?_⟩
  rw [Store.get_add_next]

/-- After a history, a dictionary answers as the map of its changes, in whatever way it is asked. -/
theorem dictionary_is_map_of_changes (hhistory : DictionaryHistory ref changes state) :
    DictionaryAnswers ref changes state := by
  obtain ⟨hlive, hfollows⟩ := hhistory.follows
  have hlookup (key : Value) : (state.store.get ref).get? (key.display state.store) =
      DictionaryChange.lastWritten (key.display state.store) changes := hfollows.get? _
  constructor
  case listed =>
    rw [← hfollows.entries]
    constructor
    · exact (state.store.get ref).nodup_keys
    · intro key value
      rw [← OrderedMap.get?_eq_some_iff, hfollows.get?]
  case method =>
    intro kind
    refine ⟨_, _, getProperty_method kind, Store.get_add_next _ _ _, ?_⟩
    apply hhistory.other
    · exact Store.get_add_of_ne (by decide) _
    · exact Store.size_le_size_add _ _ _ _
  case member =>
    intro name hother
    constructor
    · rw [getProperty_entry hother, hfollows.get?]
    · rw [indexValue_dictionary]
      exact hfollows.get? name
  case index =>
    intro key
    rw [indexValue_dictionary, hlookup]
  case has =>
    intro method hbound evaluator key more module line
    rw [callValue_bound hbound, ← hlookup]
    rfl
  case remove =>
    intro method hbound evaluator key more module line
    rw [← hlookup]
    cases hthere : (state.store.get ref).get? (key.display state.store) with
    | none =>
      rw [callValue_remove_of_none hbound hthere]
      rfl
    | some value =>
      rw [callValue_remove_of_some hbound hthere (hfollows.keepable hthere)]
      rfl
  case get =>
    intro method hbound evaluator key more module line
    rw [← hlookup, callValue_bound hbound, callDictionaryMethod_get]
    constructor
    · intro value hthere
      rw [hthere]
      exact (hfollows.keepable hthere).raised
    · intro hmissing
      rw [hmissing]
      rfl
  case len =>
    intro method hbound evaluator arguments module line
    rw [callValue_bound hbound, ← hfollows.entries]
    rfl
  case keys =>
    intro method hbound evaluator arguments module line
    have hkeys : (state.store.get ref).keys.map Value.string =
        (state.store.get ref).entries.map fun entry => .string entry.1 := by
      rw [OrderedMap.keys, List.map_map]
      rfl
    rw [← hfollows.entries, ← hkeys]
    exact callValue_newArray hbound rfl evaluator module line
  case values =>
    intro method hbound evaluator arguments module line
    rw [← hfollows.entries]
    exact callValue_newArray hbound rfl evaluator module line
  case loop =>
    rw [← hfollows.entries]
    rfl
  case numberKey =>
    intro text x hread hunsigned span
    change Except.ok (NumberLayout.plain.format x) = Except.ok (numberText x)
    rw [numberText_of_read hread hunsigned]

/-- A truth value and its text are one key: what is written under the one replaces what a literal
gave under the other, in its place. -/
theorem truth_value_is_key_by_its_text :
    let unset : Expression := ⟨.nothing, default⟩
    let literal : Expression :=
      ⟨.dictionary [⟨"true", unset, default⟩, ⟨"b", unset, default⟩], default⟩
    let host : Host := ⟨false, .fromMemory [], []⟩
    ∃ made after ref,
      evaluateExpression host (.ofSteps host 1) default literal default =
        .value (.dictionary ref) made ∧
      assignIndex (.dictionary ref) (.bool true) (.bool false) made = .value () after ∧
      (indexValue after.store (.dictionary ref) (.string "true")).toOption =
        some (.bool false) ∧
      iterationEntries after.store (.dictionary ref) =
        .ok [(.string "true", .bool false), (.string "b", .nothing)] := by
  intro unset literal host
  obtain ⟨made, hmade⟩ : ∃ made,
      evaluateExpression host (.ofSteps host 1) default literal default =
        .value (.dictionary ⟨0⟩) made := ⟨_, rfl⟩
  have hkeepable : ∀ value ∈ [Value.nothing, .nothing], value.Keepable := by
    simp [Value.Keepable]
  have hliteral := DictionaryHistory.literal rfl rfl hkeepable hmade
  obtain ⟨after, hassigned⟩ : ∃ after,
      assignIndex (.dictionary ⟨0⟩) (.bool true) (.bool false) made = .value () after := ⟨_, rfl⟩
  have hwritten := hliteral.index (by simp [Value.Keepable]) hassigned
  have hanswers := dictionary_is_map_of_changes hwritten
  exact ⟨made, after, ⟨0⟩, hmade, hassigned, hanswers.index (.string "true"), hanswers.loop⟩

end Reading

end Kestrel
