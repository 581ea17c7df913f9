import Kestrel.Proofs.Native.Failure
import Kestrel.Proofs.OrderedMap
import Kestrel.Proofs.Store

/-!
# What a dictionary holds

A dictionary is written to by a literal, through an index, through a name after a dot and by two of
its methods. All of them write to one map in insertion order, whose keys are texts: a key of another
type stands for its text. After any history of changes, the dictionary is the map that these changes
lead to.
-/

namespace Kestrel

/-- An error value is raised where a call gives it, so it is not one to keep in a dictionary. -/
def Value.Keepable (value : Value) : Prop := ∀ kind message, value ≠ .error kind message

/-- A change to a dictionary, under the text of a key. -/
inductive DictionaryChange where
  | written (key : String) (value : Value)
  | removed (key : String)

namespace DictionaryChange

/-- The value that was last written under a key, unless the key was removed since then. The latest
change comes first. -/
def lastWritten (key : String) : List DictionaryChange → Option Value
  | [] => none
  | .written name value :: earlier => if key = name then some value else lastWritten key earlier
  | .removed name :: earlier => if key = name then none else lastWritten key earlier

/-- The entries that there are after some changes, of which the latest comes first. A key that is
written to keeps its place and a new one goes last; without a key, the others keep their order. -/
def listing : List DictionaryChange → List (String × Value)
  | [] => []
  | .written key value :: earlier =>
    if key ∈ (listing earlier).map Prod.fst then
      (listing earlier).map fun entry => if entry.1 = key then (key, value) else entry
    else listing earlier ++ [(key, value)]
  | .removed key :: earlier => (listing earlier).filter fun entry => entry.1 ≠ key

/-- The changes that a literal makes to a new dictionary. -/
def ofLiteral (entries : List DictionaryEntry) (values : List Value) : List DictionaryChange :=
  (List.zipWith (fun entry value => written entry.key value) entries values).reverse

end DictionaryChange

/-- The changes that led to what a dictionary holds in a state, the latest first. A dictionary
begins with a literal. It is changed by assignments to an index or to a member and by its methods
`add` and `remove`; whatever else happens leaves it as it is. The text of a key is its text at the
time of the change. -/
inductive DictionaryHistory (ref : Ref .dictionary) : List DictionaryChange → State → Prop
  | literal {host : Host} {evaluator : Evaluator} {scope : Scope} {expression : Expression}
      {entries : List DictionaryEntry} {values : List Value} {before evaluated after : State}
      (hform : expression.form = .dictionary entries)
      (hitems : (entries.mapM fun entry => evaluator.expression scope entry.value) before =
        .value values evaluated)
      (hkeepable : ∀ value ∈ values, value.Keepable)
      (hmade : evaluateExpression host evaluator scope expression before =
        .value (.dictionary ref) after) :
      DictionaryHistory ref (DictionaryChange.ofLiteral entries values) after
  | index {changes : List DictionaryChange} {key value : Value} {before after : State}
      (hhistory : DictionaryHistory ref changes before) (hkeepable : value.Keepable)
      (hassigned : assignIndex (.dictionary ref) key value before = .value () after) :
      DictionaryHistory ref (.written (key.display before.store) value :: changes) after
  | member {changes : List DictionaryChange} {name : String} {value : Value}
      {before after : State} (hhistory : DictionaryHistory ref changes before)
      (hkeepable : value.Keepable)
      (hassigned : assignMember (.dictionary ref) name value before = .value () after) :
      DictionaryHistory ref (.written name value :: changes) after
  | add {changes : List DictionaryChange} {evaluator : Evaluator} {method : Ref .native}
      {key value result : Value} {more : List Value} {module : String} {line : Nat}
      {before after : State} (hhistory : DictionaryHistory ref changes before)
      (hkeepable : value.Keepable) (hbound : before.store.get method = .ofDictionary ref .add)
      (hcalled : callValue evaluator (.native method) (key :: value :: more) module line before =
        .value result after) :
      DictionaryHistory ref (.written (key.display before.store) value :: changes) after
  | remove {changes : List DictionaryChange} {evaluator : Evaluator} {method : Ref .native}
      {key result : Value} {more : List Value} {module : String} {line : Nat}
      {before after : State} (hhistory : DictionaryHistory ref changes before)
      (hbound : before.store.get method = .ofDictionary ref .remove)
      (hcalled : callValue evaluator (.native method) (key :: more) module line before =
        .value result after) :
      DictionaryHistory ref (.removed (key.display before.store) :: changes) after
  | other {changes : List DictionaryChange} {before after : State}
      (hhistory : DictionaryHistory ref changes before)
      (hcontent : after.store.get ref = before.store.get ref)
      (hcells : before.store.size .dictionary ≤ after.store.size .dictionary) :
      DictionaryHistory ref changes after

/-- A map is what some changes led to. -/
structure OrderedMap.Follows (map : OrderedMap Value) (changes : List DictionaryChange) :
    Prop where
  entries : map.entries = DictionaryChange.listing changes
  get? (key : String) : map.get? key = DictionaryChange.lastWritten key changes
  keepable {key : String} {value : Value} (hthere : map.get? key = some value) : value.Keepable

namespace OrderedMap

open DictionaryChange

variable {map : OrderedMap Value} {changes : List DictionaryChange} {key : String} {value : Value}

/-- The empty map follows no changes. -/
theorem follows_nil : Follows .empty [] where
  entries := rfl
  get? _ := rfl
  keepable hthere := by cases hthere

/-- Writing an entry is a change. -/
theorem Follows.insert (hfollows : map.Follows changes) (hvalue : value.Keepable) :
    (map.insert key value).Follows (.written key value :: changes) where
  entries := by
    rw [entries_insert, listing, ← hfollows.entries]
    rfl
  get? name := by rw [get?_insert, lastWritten, hfollows.get?]
  keepable {name other} hthere := by
    rw [get?_insert] at hthere
    split_ifs at hthere with hname
    · cases hthere
      exact hvalue
    · exact hfollows.keepable hthere

/-- Erasing a key is a change. -/
theorem Follows.erase (hfollows : map.Follows changes) :
    (map.erase key).Follows (.removed key :: changes) where
  entries := by
    rw [listing, ← hfollows.entries]
    rfl
  get? name := by rw [get?_erase, lastWritten, hfollows.get?]
  keepable {name other} hthere := by
    rw [get?_erase] at hthere
    split_ifs at hthere with hname
    exact hfollows.keepable hthere

end OrderedMap

section Writing

variable {changes : List DictionaryChange} {ref : Ref .dictionary} {before after : State}

/-- The entries of a literal are written in their order. -/
theorem follows_evaluateEntries {evaluator : Evaluator} {scope : Scope}
    {entries : List DictionaryEntry} :
    ∀ {values : List Value} {map : OrderedMap Value} {changes : List DictionaryChange}
      {before after : State},
      (entries.mapM fun entry => evaluator.expression scope entry.value) before =
        .value values after →
      (∀ value ∈ values, value.Keepable) → map.Follows changes →
      ∃ written, evaluateEntries evaluator scope map entries before = .value written after ∧
        written.Follows (DictionaryChange.ofLiteral entries values ++ changes) := by
  induction entries with
  | nil =>
    intro values map changes before after hitems _ hfollows
    rw [List.mapM_nil] at hitems
    cases hitems
    exact ⟨map, rfl, hfollows⟩
  | cons entry others ih =>
    intro values map changes before after hitems hkeepable hfollows
    rw [List.mapM_cons] at hitems
    obtain ⟨value, middle, hvalue, hitems⟩ := Eval.bind_eq_value hitems
    obtain ⟨more, last, hmore, hitems⟩ := Eval.bind_eq_value hitems
    cases hitems
    have hkept := List.forall_mem_cons.mp hkeepable
    have hnext : (map.insert entry.key value).Follows (.written entry.key value :: changes) :=
      hfollows.insert hkept.1
    obtain ⟨written, hwritten, hfollows'⟩ := ih hmore hkept.2 hnext
    refine ⟨written, ?_, ?_⟩
    · rw [evaluateEntries, Eval.bind_of_value hvalue]
      exact hwritten
    · simpa [DictionaryChange.ofLiteral] using hfollows'

/-- A literal makes a dictionary of its entries. -/
theorem follows_literal {host : Host} {evaluator : Evaluator} {scope : Scope}
    {expression : Expression} {entries : List DictionaryEntry} {values : List Value}
    {evaluated : State} (hform : expression.form = .dictionary entries)
    (hitems : (entries.mapM fun entry => evaluator.expression scope entry.value) before =
      .value values evaluated)
    (hkeepable : ∀ value ∈ values, value.Keepable)
    (hmade : evaluateExpression host evaluator scope expression before =
      .value (.dictionary ref) after) :
    ref.index < after.store.size .dictionary ∧
      (after.store.get ref).Follows (DictionaryChange.ofLiteral entries values) := by
  obtain ⟨written, hwritten, hfollows⟩ :=
    follows_evaluateEntries hitems hkeepable OrderedMap.follows_nil
  unfold evaluateExpression at hmade
  rw [hform] at hmade
  dsimp only at hmade
  rw [Eval.bind_of_value hwritten] at hmade
  cases hmade
  constructor
  · exact Store.next_lt_size_add _ _ _
  · rw [Store.get_add_next]
    simpa using hfollows

/-- A method is called with the dictionary that it is bound to. -/
theorem callValue_bound {method : Ref .native} {kind : DictionaryMethod}
    (hbound : before.store.get method = .ofDictionary ref kind) (evaluator : Evaluator)
    (arguments : List Value) (module : String) (line : Nat) :
    callValue evaluator (.native method) arguments module line before =
      (callDictionaryMethod ref kind ⟨kind.name, arguments⟩ before).raised := by
  rw [callValue_native, hbound]
  rfl

/-- A value that is no error is not raised. -/
theorem Value.Keepable.raised {value : Value} (hkeepable : value.Keepable) :
    (Result.value value before).raised = .value value before := by
  cases value with
  | error kind message => exact absurd rfl (hkeepable kind message)
  | _ => rfl

/-- The method `add` writes an entry. -/
theorem callValue_add {method : Ref .native}
    (hbound : before.store.get method = .ofDictionary ref .add) (evaluator : Evaluator)
    (key value : Value) (more : List Value) (module : String) (line : Nat) :
    callValue evaluator (.native method) (key :: value :: more) module line before =
      .value (.dictionary ref) { before with
        store := before.store.modify ref fun (entries : OrderedMap Value) =>
          entries.insert (key.display before.store) value } := by
  rw [callValue_bound hbound]
  rfl

/-- The method `remove` erases an entry and gives its value. -/
theorem callValue_remove_of_some {method : Ref .native} {key value : Value}
    (hbound : before.store.get method = .ofDictionary ref .remove)
    (hthere : (before.store.get ref).get? (key.display before.store) = some value)
    (hkeepable : value.Keepable) (evaluator : Evaluator) (more : List Value) (module : String)
    (line : Nat) :
    callValue evaluator (.native method) (key :: more) module line before =
      .value value { before with
        store := before.store.modify ref fun (entries : OrderedMap Value) =>
          entries.erase (key.display before.store) } := by
  have htakes : (Native.ofDictionary ref .remove).Takes before.store (key :: more) value
      (before.store.modify ref fun (entries : OrderedMap Value) =>
        entries.erase (key.display before.store)) := .entry rfl hthere
  rw [callValue_native, hbound, htakes.runNative, hkeepable.raised]

/-- The method `remove` fails if there is no entry. -/
theorem callValue_remove_of_none {method : Ref .native} {key : Value}
    (hbound : before.store.get method = .ofDictionary ref .remove)
    (hmissing : (before.store.get ref).get? (key.display before.store) = none)
    (evaluator : Evaluator) (more : List Value) (module : String) (line : Nat) :
    callValue evaluator (.native method) (key :: more) module line before =
      .interrupted (.error (.ofCause (.missingKey (key.display before.store)))) before := by
  have hfails : callDictionaryMethod ref .remove ⟨DictionaryMethod.name .remove, key :: more⟩
      before =
        .interrupted (.error (.ofCause (.missingKey (key.display before.store)))) before := by
    unfold callDictionaryMethod
    apply Eval.bind_of_interrupted
    apply Eval.viewOrFail_of_error
    simp [hmissing, Arguments.display, Arguments.required, Except.map, bind, Except.bind]
  rw [callValue_bound hbound, hfails]
  rfl

/-- A changed dictionary holds what it was changed to. -/
theorem follows_modify {f : OrderedMap Value → OrderedMap Value}
    (hlive : ref.index < before.store.size .dictionary)
    (hfollows : (f (before.store.get ref)).Follows changes) :
    ref.index < (before.store.modify ref f).size .dictionary ∧
      ((before.store.modify ref f).get ref).Follows changes := by
  constructor
  · rwa [Store.size_modify]
  · rwa [Store.get_modify_self hlive]

/-- At the end of a history, a dictionary is the map that the changes led to. -/
theorem DictionaryHistory.follows {state : State} (hhistory : DictionaryHistory ref changes state) :
    ref.index < state.store.size .dictionary ∧ (state.store.get ref).Follows changes := by
  induction hhistory with
  | literal hform hitems hkeepable hmade => exact follows_literal hform hitems hkeepable hmade
  | index hhistory hkeepable hassigned ih =>
    cases hassigned
    exact follows_modify ih.1 (ih.2.insert hkeepable)
  | member hhistory hkeepable hassigned ih =>
    cases hassigned
    exact follows_modify ih.1 (ih.2.insert hkeepable)
  | add hhistory hkeepable hbound hcalled ih =>
    rw [callValue_add hbound] at hcalled
    cases hcalled
    exact follows_modify ih.1 (ih.2.insert hkeepable)
  | @remove changes evaluator method key result more module line before after hhistory hbound
      hcalled ih =>
    cases hthere : (before.store.get ref).get? (key.display before.store) with
    | none =>
      rw [callValue_remove_of_none hbound hthere] at hcalled
      cases hcalled
    | some value =>
      rw [callValue_remove_of_some hbound hthere (ih.2.keepable hthere)] at hcalled
      cases hcalled
      exact follows_modify ih.1 ih.2.erase
  | other hhistory hcontent hcells ih =>
    constructor
    · exact Nat.lt_of_lt_of_le ih.1 hcells
    · rw [hcontent]
      exact ih.2

end Writing

end Kestrel
