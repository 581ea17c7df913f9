import Kestrel.Proofs.Dictionary.History
import Kestrel.Proofs.Native.Slice

/-!
# Editing arrays

An array is edited at places, which numbers denote as they do in an index; a new item may also stand
behind the last one. Editing loses and duplicates nothing: what is put into the array stands at its
place, what is taken out is given, and all other items keep their order. A call that fails leaves
the array as it was.
-/

namespace Kestrel

/-- What is inserted behind a part of a list stands between this part and the rest. -/
theorem insertIdx_between {α : Type} (before behind : List α) (item : α) :
    (before ++ behind).insertIdx before.length item = before ++ item :: behind := by
  induction before with
  | nil => rfl
  | cons first before ih => simp [ih]

/-- Every item of a list stands between those before it and those behind it. -/
theorem exists_split_of_getElem? {α : Type} {items : List α} {place : Nat} {item : α}
    (hitem : items[place]? = some item) :
    ∃ before behind, items = before ++ item :: behind ∧ before.length = place := by
  obtain ⟨hlt, rfl⟩ := List.getElem?_eq_some_iff.mp hitem
  refine ⟨items.take place, items.drop (place + 1), ?_, List.length_take_of_le hlt.le⟩
  rw [← List.drop_eq_getElem_cons hlt, List.take_append_drop]

/-- A number denotes a place among so many items: without its fraction it is the place, or the
place counted from the end. -/
def Denotes (x : Float) (length place : Nat) : Prop :=
  ∃ number, (Binary.ofFloat x).value? = some number ∧
    (place : Int) = if truncation number < 0 then length + truncation number else truncation number

section Places

variable {x : Float} {length place : Nat}

/-- A number denotes one place at most. -/
theorem Denotes.unique {other : Nat} (hplace : Denotes x length place)
    (hother : Denotes x length other) : place = other := by
  obtain ⟨number, hnumber, hplace⟩ := hplace
  obtain ⟨same, hsame, hother⟩ := hother
  rw [hnumber, Option.some.injEq] at hsame
  subst hsame
  omega

/-- An item is found at the place that the number denotes, if there is one. -/
theorem resolveIndex_iff_denotes (hlength : length ≤ 2 ^ 53) :
    resolveIndex x length = .ok place ↔ Denotes x length place ∧ place < length := by
  rw [resolveIndex_eq_ok_iff hlength]
  constructor
  · rintro ⟨number, hnumber, hlow, hhigh, hplace⟩
    refine ⟨⟨number, hnumber, hplace⟩, ?_⟩
    split at hplace <;> omega
  · rintro ⟨⟨number, hnumber, hplace⟩, hlt⟩
    refine ⟨number, hnumber, ?_, ?_, hplace⟩ <;> split at hplace <;> omega

/-- An item is put at the place that the number denotes, among the others or behind them. -/
theorem insertionPlace_iff_denotes (hlength : length ≤ 2 ^ 53) :
    insertionPlace x length = .ok place ↔ Denotes x length place ∧ place ≤ length := by
  unfold insertionPlace
  rw [Binary.nearest_of_isDouble (Binary.isDouble_of_le hlength)]
  by_cases hend : IndexNumber.ofFloat x = .at length
  · obtain ⟨number, hnumber, hlast⟩ := IndexNumber.ofFloat_eq_at_iff.mp hend
    have hbehind : Denotes x length length := ⟨number, hnumber, by split <;> omega⟩
    rw [if_pos hend, Except.ok.injEq]
    constructor
    · rintro rfl
      exact ⟨hbehind, Nat.le_refl _⟩
    · exact fun hplace => hbehind.unique hplace.1
  · rw [if_neg hend, resolveIndex_iff_denotes hlength]
    refine and_congr_right fun ⟨number, hnumber, hplace⟩ => ?_
    have hne : truncation number ≠ length := fun hlast =>
      hend (IndexNumber.ofFloat_eq_at_iff.mpr ⟨number, hnumber, hlast⟩)
    constructor
    · exact Nat.le_of_lt
    · intro hle
      split at hplace <;> omega

/-- Without its fraction, a number is the length of an array as numbers give it. -/
def DenotesEnd (x : Float) (length : Nat) : Prop :=
  ∃ number, (Binary.ofFloat x).value? = some number ∧ truncation number = Binary.nearest length

/-- An item is put behind all others, or where the number denotes one. -/
theorem insertionPlace_eq_ok_iff : insertionPlace x length = .ok place ↔
    DenotesEnd x length ∧ place = length ∨
      ¬ DenotesEnd x length ∧ resolveIndex x length = .ok place := by
  unfold insertionPlace DenotesEnd
  rw [← IndexNumber.ofFloat_eq_at_iff]
  by_cases hend : IndexNumber.ofFloat x = .at (Binary.nearest length)
  · simp [hend, eq_comm]
  · simp [hend]

end Places

/-- A computation that gives a value or fails with an error of its own, and is never halted. -/
def Eval.Answers {α : Type} (computation : Eval α) : Prop :=
  ∀ state, (∃ value after, computation state = .value value after) ∨
    ∃ cause after, computation state = .interrupted (.error (.ofCause cause)) after

namespace Eval.Answers

variable {α β : Type}

/-- Doing nothing gives a value. -/
@[simp] theorem pure (value : α) : (pure value : Eval α).Answers :=
  fun state => .inl ⟨value, state, rfl⟩

/-- Looking at the store gives a value or fails. -/
@[simp] theorem viewOrFail (f : Store → Except Cause α) : (Eval.viewOrFail f).Answers := by
  intro state
  cases hview : f state.store with
  | ok value => exact .inl ⟨value, state, viewOrFail_of_ok hview⟩
  | error cause => exact .inr ⟨cause, state, viewOrFail_of_error hview⟩

/-- Looking at the store gives a value. -/
@[simp] theorem view (f : Store → α) : (Eval.view f).Answers :=
  viewOrFail fun store => .ok (f store)

/-- Changing a cell gives a value. -/
@[simp] theorem modifyCell {kind : CellKind} (ref : Ref kind) (f : kind.Content → kind.Content) :
    (Eval.modifyCell ref f).Answers := fun _ => .inl ⟨_, _, rfl⟩

/-- A new array is a value. -/
@[simp] theorem newArray (items : List Value) : (Eval.newArray items).Answers :=
  fun _ => .inl ⟨_, _, rfl⟩

/-- What follows a computation that gave a value decides how the two end. -/
@[simp] theorem bind {first : Eval α} {next : α → Eval β} (hfirst : first.Answers)
    (hnext : ∀ value, (next value).Answers) : (first >>= next).Answers := by
  intro state
  rcases hfirst state with ⟨value, middle, hvalue⟩ | ⟨cause, after, hfails⟩
  · rw [bind_of_value hvalue]
    exact hnext value middle
  · exact .inr ⟨cause, after, bind_of_interrupted hfails next⟩

/-- A value may be turned into another one. -/
@[simp] theorem map {computation : Eval α} (f : α → β) (hanswers : computation.Answers) :
    (f <$> computation).Answers := by
  rw [map_eq_pure_bind]
  exact bind hanswers fun value => pure (f value)

/-- Every method of an array gives a value or fails. -/
theorem callArrayMethod (receiver : Ref .array) (method : ArrayMethod) (args : Arguments) :
    (Kestrel.callArrayMethod receiver method args).Answers := by
  unfold Kestrel.callArrayMethod
  cases method <;> simp

end Eval.Answers

/-- The state in which a method was bound to an array. -/
def State.bound (state : State) (ref : Ref .array) (method : ArrayMethod) : State :=
  { state with store := state.store.add .native (.ofArray ref method) }

/-- The state in which a method that was bound to an array has changed it. -/
def State.edited (state : State) (ref : Ref .array) (method : ArrayMethod)
    (f : Array Value → Array Value) : State :=
  { state with store := (state.bound ref method).store.modify ref f }

section Calls

variable {evaluator : Evaluator} {module : String} {line : Nat} {state : State}
  {ref : Ref .array} {items : List Value} {x : Float} {value : Value} {place : Nat} {cause : Cause}

/-- An array lists its items once a method was bound to it. -/
theorem Value.Lists.bound (hlists : (Value.array ref).Lists state.store items)
    (method : ArrayMethod) : (Value.array ref).Lists (state.bound ref method).store items :=
  hlists.of_grows (.add state.store .native (.ofArray ref method))

/-- What an array holds once a method was bound to it is what it held before. -/
theorem toList_bound (hlists : (Value.array ref).Lists state.store items)
    (method : ArrayMethod) : ((state.bound ref method).store.get ref).toList = items :=
  Option.some.inj (hlists.bound method).elements_eq

/-- An array that was changed holds what it was changed to. -/
theorem Value.Lists.edited (hlists : (Value.array ref).Lists state.store items)
    (method : ArrayMethod) (f : Array Value → Array Value) :
    (Value.array ref).Lists (state.edited ref method f).store (f items.toArray).toList := by
  have hthere := (hlists.bound method).there (.cell ref) (List.mem_singleton_self _)
  refine ⟨fun mention hmention => ?_, ?_⟩
  · rw [List.mem_singleton.mp hmention]
    exact Nat.lt_of_lt_of_eq hthere (Store.size_modify _ ref f .array).symm
  · have hitems : (state.bound ref method).store.get ref = items.toArray :=
      Array.toList_inj.mp (toList_bound hlists method)
    rw [← hitems, ← Store.get_modify_self hthere f]
    rfl

/-- Besides the array, only the cell of the bound method is not as it was. -/
theorem State.get_edited_of_ne {method : ArrayMethod} {f : Array Value → Array Value}
    {kind : CellKind} {other : Ref kind} (hkind : kind ≠ .native)
    (hother : kind = .array → other.index ≠ ref.index) :
    (state.edited ref method f).store.get other = state.store.get other :=
  (Store.get_modify_of_ne hother f).trans (Store.get_add_of_ne hkind _)

/-- A method of an array is called with its arguments, after a cell for it was added. -/
theorem callProperty_array (method : ArrayMethod) (arguments : List Value) :
    callProperty evaluator (.array ref) method.name arguments module line state =
      (callArrayMethod ref method ⟨method.name, arguments⟩
        (state.bound ref method)).raised := by
  refine @callProperty_native _ _ _ _ (.ofArray ref method) _ _ _ ?_
  cases method <;> rfl

/-- The method `insert` looks for a place and then puts the value there. -/
theorem callArrayMethod_insert (callee : String) (x : Float) (value : Value) :
    callArrayMethod ref .insert ⟨callee, [.number x, value]⟩ = (do
      let place ← Eval.viewOrFail fun store => insertionPlace x (store.get ref).size
      Eval.modifyCell ref fun (items : Array Value) => items.insertIdxIfInBounds place value
      return .array ref) := by
  funext state
  cases hplace : insertionPlace x (state.store.get ref).size with
  | ok place =>
    rw [Eval.bind_of_value (Eval.viewOrFail_of_ok hplace)]
    refine Eval.bind_of_value (Eval.viewOrFail_of_ok (?_ : _ = Except.ok (place, value))) _
    change (insertionPlace x (state.store.get ref).size).bind _ = _
    rw [hplace]
    rfl
  | error cause =>
    rw [Eval.bind_of_interrupted (Eval.viewOrFail_of_error hplace)]
    refine Eval.bind_of_interrupted (Eval.viewOrFail_of_error (?_ : _ = Except.error cause)) _
    change (insertionPlace x (state.store.get ref).size).bind _ = _
    rw [hplace]
    rfl

/-- The arguments of `add` are put behind the items in their order. -/
theorem callProperty_add (hlists : (Value.array ref).Lists state.store items)
    (more : List Value) : ∃ after,
      callProperty evaluator (.array ref) "add" more module line state =
        .value (.array ref) after ∧
      (Value.array ref).Lists after.store (items ++ more) := by
  have hedited := hlists.edited .add (· ++ more.toArray)
  rw [List.append_toArray, List.toList_toArray] at hedited
  exact ⟨_, callProperty_array .add more, hedited⟩

/-- An item is inserted at a place that there is. -/
theorem callProperty_insert (hlists : (Value.array ref).Lists state.store items)
    (hplace : insertionPlace x items.length = .ok place) (value : Value) :
    callProperty evaluator (.array ref) "insert" [.number x, value] module line state =
      .value (.array ref) (state.edited ref .insert (·.insertIdxIfInBounds place value)) := by
  rw [← toList_bound hlists .insert, Array.length_toList] at hplace
  refine (callProperty_array .insert _).trans ?_
  rw [callArrayMethod_insert, Eval.bind_of_value (Eval.viewOrFail_of_ok hplace)]
  rfl

/-- Without such a place no item is inserted. -/
theorem callProperty_insert_fails (hlists : (Value.array ref).Lists state.store items)
    (hplace : insertionPlace x items.length = .error cause) (value : Value) :
    callProperty evaluator (.array ref) "insert" [.number x, value] module line state =
      .interrupted (.error (.ofCause cause))
        (state.bound ref .insert) := by
  rw [← toList_bound hlists .insert, Array.length_toList] at hplace
  refine (callProperty_array .insert _).trans ?_
  rw [callArrayMethod_insert, Eval.bind_of_interrupted (Eval.viewOrFail_of_error hplace)]
  rfl

/-- A method that takes out an item which is no error gives this item. -/
theorem callProperty_takes {method : ArrayMethod} {arguments : List Value}
    {f : Array Value → Array Value}
    (htakes : (Native.ofArray ref method).Takes (state.bound ref method).store arguments value
      (state.edited ref method f).store) (hvalue : value.Keepable) :
    callProperty evaluator (.array ref) method.name arguments module line state =
      .value value (state.edited ref method f) := by
  have hrun : runNative (.ofArray ref method) arguments
      (state.bound ref method) =
        .value value (state.edited ref method f) := Native.Takes.runNative htakes
  refine (callProperty_array method arguments).trans ?_
  exact (congrArg Result.raised hrun).trans hvalue.raised

/-- The item that a number denotes is removed and given. -/
theorem callProperty_remove (hlists : (Value.array ref).Lists state.store items)
    (hplace : resolveIndex x items.length = .ok place) (hitem : items[place]? = some value)
    (hvalue : value.Keepable) :
    callProperty evaluator (.array ref) "remove" [.number x] module line state =
      .value value (state.edited ref .remove (·.eraseIdxIfInBounds place)) := by
  have hitems := toList_bound hlists .remove
  rw [← hitems, Array.length_toList] at hplace
  rw [← hitems, Array.getElem?_toList] at hitem
  exact callProperty_takes (.item rfl hplace hitem) hvalue

/-- Where a number denotes no item, none is removed. -/
theorem callProperty_remove_fails (hlists : (Value.array ref).Lists state.store items)
    (hplace : resolveIndex x items.length = .error cause) :
    callProperty evaluator (.array ref) "remove" [.number x] module line state =
      .interrupted (.error (.ofCause cause))
        (state.bound ref .remove) := by
  rw [← toList_bound hlists .remove, Array.length_toList] at hplace
  have hrun : callArrayMethod ref .remove ⟨ArrayMethod.name .remove, [.number x]⟩
      (state.bound ref .remove) =
        .interrupted (.error (.ofCause cause))
          (state.bound ref .remove) := by
    refine Eval.bind_of_interrupted (Eval.viewOrFail_of_error (?_ : _ = Except.error cause)) _
    change (resolveIndex x _).bind _ = _
    rw [hplace]
    rfl
  refine (callProperty_array .remove _).trans ?_
  rw [hrun]
  rfl

/-- The last item is taken out and given. -/
theorem callProperty_pop (hlists : (Value.array ref).Lists state.store items)
    (hlast : items.getLast? = some value) (hvalue : value.Keepable) :
    callProperty evaluator (.array ref) "pop" [] module line state =
      .value value (state.edited ref .pop Array.pop) := by
  rw [← toList_bound hlists .pop, Array.getLast?_toList] at hlast
  exact callProperty_takes (.last hlast) hvalue

/-- What is inserted stands between what was before its place and what was behind it. -/
theorem Value.Lists.inserted {before behind : List Value}
    (hlists : (Value.array ref).Lists state.store (before ++ behind)) (value : Value) :
    (Value.array ref).Lists
      (state.edited ref .insert (·.insertIdxIfInBounds before.length value)).store
      (before ++ value :: behind) := by
  have hedited := hlists.edited .insert (·.insertIdxIfInBounds before.length value)
  rwa [List.insertIdxIfInBounds_toArray, List.toList_toArray, insertIdx_between] at hedited

/-- What stood around a removed item is left. -/
theorem Value.Lists.removed {before behind : List Value}
    (hlists : (Value.array ref).Lists state.store (before ++ value :: behind)) :
    (Value.array ref).Lists (state.edited ref .remove (·.eraseIdxIfInBounds before.length)).store
      (before ++ behind) := by
  have hedited := hlists.edited .remove (·.eraseIdxIfInBounds before.length)
  rwa [List.eraseIdxIfInBounds_toArray, List.toList_toArray,
    List.eraseIdx_append_of_length_le (Nat.le_refl _), Nat.sub_self, List.eraseIdx_cons_zero]
    at hedited

/-- An index gives an item exactly if the number denotes one. -/
theorem exists_indexValue_iff (hlists : (Value.array ref).Lists state.store items) :
    (∃ item, indexValue state.store (.array ref) (.number x) = .ok item) ↔
      ∃ place, resolveIndex x items.length = .ok place := by
  simp only [indexValue_eq_ok_iff hlists]
  constructor
  · exact fun ⟨_, place, hplace, _⟩ => ⟨place, hplace⟩
  · exact fun ⟨place, hplace⟩ =>
      ⟨_, place, hplace, List.getElem?_eq_getElem (lt_of_resolveIndex hplace)⟩

/-- An item is inserted exactly if the number denotes the end or an item. -/
theorem callProperty_insert_iff (hlists : (Value.array ref).Lists state.store items)
    (value : Value) :
    (∃ given after, callProperty evaluator (.array ref) "insert" [.number x, value] module line
      state = .value given after) ↔ DenotesEnd x items.length ∨
        ∃ item, indexValue state.store (.array ref) (.number x) = .ok item := by
  rw [exists_indexValue_iff hlists]
  cases hplace : insertionPlace x items.length with
  | ok place =>
    rw [callProperty_insert hlists hplace]
    refine iff_of_true ⟨_, _, rfl⟩ ?_
    rcases insertionPlace_eq_ok_iff.mp hplace with ⟨hend, _⟩ | ⟨_, hresolved⟩
    · exact .inl hend
    · exact .inr ⟨place, hresolved⟩
  | error cause =>
    rw [callProperty_insert_fails hlists hplace]
    refine iff_of_false (by simp) fun hdenotes => ?_
    have hok : ∃ place, insertionPlace x items.length = .ok place := by
      by_cases hend : DenotesEnd x items.length
      · exact ⟨_, insertionPlace_eq_ok_iff.mpr (.inl ⟨hend, rfl⟩)⟩
      · obtain ⟨place, hresolved⟩ := hdenotes.resolve_left hend
        exact ⟨place, insertionPlace_eq_ok_iff.mpr (.inr ⟨hend, hresolved⟩)⟩
    obtain ⟨place, hok⟩ := hok
    rw [hplace] at hok
    cases hok

/-- An inserted item stands at the end, or before the item that the number denoted. -/
theorem callProperty_insert_places (hlists : (Value.array ref).Lists state.store items)
    {given : Value} {after : State} (hcall : callProperty evaluator (.array ref) "insert"
      [.number x, value] module line state = .value given after) :
    given = .array ref ∧ ∃ before behind, items = before ++ behind ∧
      (Value.array ref).Lists after.store (before ++ value :: behind) ∧
      (items.length ≤ 2 ^ 53 → Denotes x items.length before.length) ∧
      (DenotesEnd x items.length ∧ behind = [] ∨ ∃ item others, behind = item :: others ∧
        resolveIndex x items.length = .ok before.length ∧
        indexValue state.store (.array ref) (.number x) = .ok item) := by
  cases hplace : insertionPlace x items.length with
  | error cause =>
    rw [callProperty_insert_fails hlists hplace] at hcall
    cases hcall
  | ok place =>
    rw [callProperty_insert hlists hplace] at hcall
    cases hcall
    refine ⟨rfl, ?_⟩
    have hdenotes (hlength : items.length ≤ 2 ^ 53) : Denotes x items.length place :=
      ((insertionPlace_iff_denotes hlength).mp hplace).1
    rcases insertionPlace_eq_ok_iff.mp hplace with ⟨hend, rfl⟩ | ⟨_, hresolved⟩
    · rw [← List.append_nil items] at hlists
      exact ⟨items, [], (List.append_nil items).symm, hlists.inserted value, hdenotes,
        .inl ⟨hend, rfl⟩⟩
    · have hitem := List.getElem?_eq_getElem (lt_of_resolveIndex hresolved)
      have hindex := (indexValue_eq_ok_iff hlists x _).mpr ⟨place, hresolved, hitem⟩
      obtain ⟨before, others, hsplit, rfl⟩ := exists_split_of_getElem? hitem
      rw [hsplit] at hlists
      exact ⟨before, _, hsplit, hlists.inserted value, hdenotes,
        .inr ⟨_, others, rfl, hresolved, hindex⟩⟩

/-- An item is removed and given exactly if the index gives it, and the others are left. -/
theorem callProperty_remove_of_index (hlists : (Value.array ref).Lists state.store items)
    (hitems : ∀ item ∈ items, item.Keepable) {item : Value}
    (hindex : indexValue state.store (.array ref) (.number x) = .ok item) :
    ∃ before behind after, items = before ++ item :: behind ∧
      resolveIndex x items.length = .ok before.length ∧
      callProperty evaluator (.array ref) "remove" [.number x] module line state =
        .value item after ∧
      (Value.array ref).Lists after.store (before ++ behind) := by
  obtain ⟨place, hplace, hitem⟩ := (indexValue_eq_ok_iff hlists x item).mp hindex
  have hremoved := @callProperty_remove evaluator module line state ref items x item place hlists
    hplace hitem (hitems item (List.mem_of_getElem? hitem))
  obtain ⟨before, behind, rfl, rfl⟩ := exists_split_of_getElem? hitem
  exact ⟨before, behind, _, rfl, hplace, hremoved, hlists.removed⟩

/-- An item is removed and given exactly if the index gives it. -/
theorem callProperty_remove_iff (hlists : (Value.array ref).Lists state.store items)
    (hitems : ∀ item ∈ items, item.Keepable) {item : Value} :
    (∃ after, callProperty evaluator (.array ref) "remove" [.number x] module line state =
      .value item after) ↔ indexValue state.store (.array ref) (.number x) = .ok item := by
  constructor
  · rintro ⟨after, hcall⟩
    cases hplace : resolveIndex x items.length with
    | error cause =>
      rw [callProperty_remove_fails hlists hplace] at hcall
      cases hcall
    | ok place =>
      have hitem := List.getElem?_eq_getElem (lt_of_resolveIndex hplace)
      rw [callProperty_remove hlists hplace hitem (hitems _ (List.getElem_mem _))] at hcall
      cases hcall
      exact (indexValue_eq_ok_iff hlists x _).mpr ⟨place, hplace, hitem⟩
  · intro hindex
    obtain ⟨_, _, after, _, _, hcall, _⟩ := @callProperty_remove_of_index evaluator module line
      state ref items x hlists hitems item hindex
    exact ⟨after, hcall⟩

/-- The last item is the one at the index -1. -/
theorem resolveIndex_last {length : Nat} (hlength : length + 1 ≤ 2 ^ 53) :
    resolveIndex (-1) (length + 1) = .ok length := by
  have hnumber : IndexNumber.ofFloat (-1) = .at (-1) := by decide +kernel
  obtain ⟨number, hvalue, htruncation⟩ := IndexNumber.ofFloat_eq_at_iff.mp hnumber
  refine (resolveIndex_iff_denotes hlength).mpr ⟨⟨number, hvalue, ?_⟩, Nat.lt_succ_self _⟩
  rw [htruncation, if_pos (by decide)]
  omega

/-- The method `pop` takes the same item as `remove` does at the index -1, and both leave the
others. -/
theorem callProperty_pop_eq_remove {others : List Value}
    (hlists : (Value.array ref).Lists state.store (others ++ [value]))
    (hvalue : value.Keepable) (hlength : (others ++ [value]).length ≤ 2 ^ 53) :
    ∃ popped removed,
      callProperty evaluator (.array ref) "pop" [] module line state = .value value popped ∧
      callProperty evaluator (.array ref) "remove" [.number (-1)] module line state =
        .value value removed ∧
      (Value.array ref).Lists popped.store others ∧
      (Value.array ref).Lists removed.store others ∧
      popped.calls = removed.calls ∧ popped.output = removed.output ∧
      ∀ (kind : CellKind) (other : Ref kind), kind ≠ .native →
        popped.store.get other = removed.store.get other := by
  have hplace : resolveIndex (-1) (others ++ [value]).length = .ok others.length := by
    rw [List.length_append, List.length_singleton] at hlength ⊢
    exact resolveIndex_last hlength
  have hremoved := hlists.removed
  rw [List.append_nil] at hremoved
  have hpopped := hlists.edited .pop Array.pop
  rw [List.pop_toArray, List.dropLast_concat] at hpopped
  refine ⟨_, _, callProperty_pop hlists List.getLast?_concat hvalue,
    callProperty_remove hlists hplace List.getElem?_concat_length hvalue, hpopped, hremoved, rfl,
    rfl, fun kind other hkind => ?_⟩
  by_cases hsame : kind = .array ∧ other.index = ref.index
  · obtain ⟨rfl, hindex⟩ := hsame
    obtain rfl := Ref.eq_of_index_eq hindex
    exact Array.toList_inj.mp
      (Option.some.inj (hpopped.elements_eq.trans hremoved.elements_eq.symm))
  · have hother (harray : kind = .array) : other.index ≠ ref.index :=
      fun hindex => hsame ⟨harray, hindex⟩
    rw [State.get_edited_of_ne hkind hother, State.get_edited_of_ne hkind hother]

/-- An item that is removed where it was inserted is the one that was inserted. -/
theorem callProperty_remove_inserted (hlists : (Value.array ref).Lists state.store items)
    (hlength : items.length < 2 ^ 53) (hvalue : value.Keepable) {number : ℚ}
    (hnumber : (Binary.ofFloat x).value? = some number) (hpos : 0 ≤ truncation number)
    (hle : truncation number ≤ items.length) :
    ∃ middle after,
      callProperty evaluator (.array ref) "insert" [.number x, value] module line state =
        .value (.array ref) middle ∧
      callProperty evaluator (.array ref) "remove" [.number x] module line middle =
        .value value after ∧
      (Value.array ref).Lists after.store items := by
  obtain ⟨place, hplace⟩ := Int.eq_ofNat_of_zero_le hpos
  rw [hplace] at hle
  have hdenotes (length : Nat) : Denotes x length place :=
    ⟨number, hnumber, by rw [if_neg (Int.not_lt.mpr hpos), hplace]⟩
  have hinsertion : insertionPlace x items.length = .ok place :=
    (insertionPlace_iff_denotes hlength.le).mpr ⟨hdenotes _, Int.ofNat_le.mp hle⟩
  have hinserted := @callProperty_insert evaluator module line state ref items x place hlists
    hinsertion value
  obtain ⟨before, behind, rfl, rfl⟩ : ∃ before behind, items = before ++ behind ∧
      before.length = place :=
    ⟨items.take place, items.drop place, (List.take_append_drop _ _).symm,
      List.length_take_of_le (Int.ofNat_le.mp hle)⟩
  have hmiddle := hlists.inserted value
  have hresolved : resolveIndex x (before ++ value :: behind).length = .ok before.length := by
    refine (resolveIndex_iff_denotes ?_).mpr ⟨hdenotes _, ?_⟩ <;>
      simp only [List.length_append, List.length_cons] at hlength ⊢ <;> omega
  exact ⟨_, _, hinserted,
    callProperty_remove hmiddle hresolved (by simp) hvalue, hmiddle.removed⟩

/-- Where no item is an error value, a method that fails has changed nothing. -/
theorem Value.Lists.of_failure (hlists : (Value.array ref).Lists state.store items)
    (hitems : ∀ item ∈ items, item.Keepable) {method : ArrayMethod} {arguments : List Value}
    {after : State}
    (hfailure : (runNative (.ofArray ref method) arguments state).failure? = some after) :
    (Value.array ref).Lists after.store items := by
  have hkept (hstore : after.store = state.store) :
      (Value.array ref).Lists after.store items := by
    rwa [hstore]
  have hkeepable (kind : ErrorKind) (message : String)
      (hmem : Value.error kind message ∈ (state.store.get ref).toList) : False := by
    rw [Option.some.inj hlists.elements_eq] at hmem
    exact hitems _ hmem kind message rfl
  cases htakes : (Native.ofArray ref method).takes with
  | false => exact hkept (Eval.Harmless.runNative htakes arguments state after hfailure)
  | true =>
    rcases Native.exists_takes_of_failure htakes hfailure with hstore | ⟨kind, message, htaken⟩
    · exact hkept hstore
    · generalize after.store = left at htaken
      refine (hkeepable kind message (Array.mem_toList_iff.mpr ?_)).elim
      cases htaken with
      | last hlast => exact Array.mem_of_back? hlast
      | item _ _ hitem => exact Array.mem_of_getElem? hitem

/-- A call of a method on an array gives a value, or it fails and leaves the array as it was. -/
theorem callProperty_array_cases (hlists : (Value.array ref).Lists state.store items)
    (hitems : ∀ item ∈ items, item.Keepable) (name : String) (arguments : List Value) :
    (∃ value after, callProperty evaluator (.array ref) name arguments module line state =
      .value value after) ∨
    ∃ cause after, callProperty evaluator (.array ref) name arguments module line state =
      .interrupted (.error (.ofCause cause)) after ∧
        (Value.array ref).Lists after.store items := by
  cases hname : ArrayMethod.ofName? name with
  | none =>
    have hproperty : property? state.store (.array ref) name = none := by
      change (ArrayMethod.ofName? name).map _ = none
      rw [hname]
      rfl
    have hmissing : getProperty (.array ref) name state = .interrupted (.error (.ofCause
        (.noProperty (propertyOwner state.store (.array ref)) name))) state := by
      unfold getProperty
      exact Eval.bind_of_interrupted (Eval.viewOrFail_of_error (by rw [hproperty])) _
    exact .inr ⟨_, state, Eval.bind_of_interrupted hmissing _, hlists⟩
  | some method =>
    have hproperty : property? state.store (.array ref) name =
        some (.native (.ofArray ref method)) := by
      change (ArrayMethod.ofName? name).map _ = _
      rw [hname]
      rfl
    let bound := state.bound ref method
    have hfails {after : State}
        (hfailure : (runNative (.ofArray ref method) arguments bound).failure? = some after) :
        (Value.array ref).Lists after.store items :=
      (hlists.bound method).of_failure hitems hfailure
    have hcall : callProperty evaluator (.array ref) name arguments module line state =
        (runNative (.ofArray ref method) arguments bound).raised := callProperty_native hproperty
    rw [hcall]
    rcases Eval.Answers.callArrayMethod ref method ⟨method.name, arguments⟩ bound with
      ⟨value, after, hvalue⟩ | ⟨cause, after, hcause⟩
    · have hrun : runNative (.ofArray ref method) arguments bound = .value value after := hvalue
      rw [hrun] at hfails ⊢
      cases value with
      | error kind message => exact .inr ⟨_, after, rfl, hfails rfl⟩
      | _ => exact .inl ⟨_, after, rfl⟩
    · have hrun : runNative (.ofArray ref method) arguments bound =
        .interrupted (.error (.ofCause cause)) after := hcause
      rw [hrun] at hfails ⊢
      exact .inr ⟨cause, after, rfl, hfails rfl⟩

end Calls

/-- Editing an array whose items are no error values loses and duplicates nothing. A call of a
method gives a value, or it fails and leaves the items as they were. The method `add` puts its
arguments behind the items. The method `insert` needs a number that denotes the end or an item, and
puts the value at the end or before this item; `remove` needs a number that denotes an item, gives
the item and leaves the others. All others keep their order. Up to `2 ^ 53` items, the end is the
length itself, `pop` is `remove` at the index -1, and what is removed where it was inserted is what
was inserted, with the items as they were before. Only the length of an array that no memory could
hold is rounded to another number. -/
theorem array_edits_lose_nothing (evaluator : Evaluator) (module : String) (line : Nat)
    (state : State) (ref : Ref .array) (items : List Value)
    (hlists : (Value.array ref).Lists state.store items) (hitems : ∀ item ∈ items, item.Keepable) :
    let call := fun name arguments => callProperty evaluator (.array ref) name arguments module line
    (∀ name arguments, (∃ value after, call name arguments state = .value value after) ∨
      ∃ cause after, call name arguments state = .interrupted (.error (.ofCause cause)) after ∧
        (Value.array ref).Lists after.store items) ∧
    (∀ more, ∃ after, call "add" more state = .value (.array ref) after ∧
      (Value.array ref).Lists after.store (items ++ more)) ∧
    (∀ x value, ((∃ given after, call "insert" [.number x, value] state = .value given after) ↔
        DenotesEnd x items.length ∨
          ∃ item, indexValue state.store (.array ref) (.number x) = .ok item) ∧
      ∀ given after, call "insert" [.number x, value] state = .value given after →
        given = .array ref ∧ ∃ before behind, items = before ++ behind ∧
          (Value.array ref).Lists after.store (before ++ value :: behind) ∧
          (items.length ≤ 2 ^ 53 → Denotes x items.length before.length) ∧
          (DenotesEnd x items.length ∧ behind = [] ∨ ∃ item others, behind = item :: others ∧
            resolveIndex x items.length = .ok before.length ∧
            indexValue state.store (.array ref) (.number x) = .ok item)) ∧
    (∀ x item, ((∃ after, call "remove" [.number x] state = .value item after) ↔
        indexValue state.store (.array ref) (.number x) = .ok item) ∧
      ∀ after, call "remove" [.number x] state = .value item after →
        ∃ before behind, items = before ++ item :: behind ∧
          resolveIndex x items.length = .ok before.length ∧
          (Value.array ref).Lists after.store (before ++ behind)) ∧
    (items.length ≤ 2 ^ 53 →
      (∀ x, DenotesEnd x items.length ↔ ∃ number, (Binary.ofFloat x).value? = some number ∧
        truncation number = items.length) ∧
      (items ≠ [] → ∃ others last popped removed, items = others ++ [last] ∧
        call "pop" [] state = .value last popped ∧
        call "remove" [.number (-1)] state = .value last removed ∧
        (Value.array ref).Lists popped.store others ∧
        (Value.array ref).Lists removed.store others ∧
        popped.calls = removed.calls ∧ popped.output = removed.output ∧
        ∀ (kind : CellKind) (other : Ref kind), kind ≠ .native →
          popped.store.get other = removed.store.get other)) ∧
    (items.length < 2 ^ 53 → ∀ x number value, (Binary.ofFloat x).value? = some number →
      0 ≤ truncation number → truncation number ≤ items.length → value.Keepable →
      ∃ middle after, call "insert" [.number x, value] state = .value (.array ref) middle ∧
        call "remove" [.number x] middle = .value value after ∧
        (Value.array ref).Lists after.store items) := by
  intro call
  refine ⟨callProperty_array_cases hlists hitems, callProperty_add hlists, fun x value => ?_,
    fun x item => ?_, fun hlength => ⟨fun x => ?_, fun hne => ?_⟩, fun hlength x number value => ?_⟩
  · exact ⟨callProperty_insert_iff hlists value, fun given after =>
      callProperty_insert_places hlists⟩
  · refine ⟨callProperty_remove_iff hlists hitems, fun after hcall => ?_⟩
    obtain ⟨before, behind, final, hsplit, hplace, hremoved, hleft⟩ :=
      callProperty_remove_of_index hlists hitems
        ((callProperty_remove_iff hlists hitems).mp ⟨after, hcall⟩)
    cases hcall.symm.trans hremoved
    exact ⟨before, behind, hsplit, hplace, hleft⟩
  · unfold DenotesEnd
    rw [Binary.nearest_of_isDouble (Binary.isDouble_of_le hlength)]
  · obtain ⟨others, last, rfl⟩ := (List.eq_nil_or_concat' items).resolve_left hne
    obtain ⟨popped, removed, hends⟩ := callProperty_pop_eq_remove hlists
      (hitems last List.mem_concat_self) hlength
    exact ⟨others, last, popped, removed, rfl, hends⟩
  · exact fun hnumber hpos hle hvalue =>
      callProperty_remove_inserted hlists hlength hvalue hnumber hpos hle

/-- At the number 1.5 a value is put between two items, and it is taken out again. -/
theorem insert_and_remove_at_fraction :
    let switches : Ref .array := ⟨0⟩
    let items := [Value.bool true, .bool false]
    let state : State :=
      { (default : State) with store := Store.empty.add .array items.toArray }
    let evaluator := Evaluator.ofSteps ⟨false, .fromMemory [], []⟩ 0
    let call := fun name arguments =>
      callProperty evaluator (.array switches) name arguments "main" 1
    (Value.array switches).Lists state.store items ∧ (∀ item ∈ items, item.Keepable) ∧
      ∃ middle after, call "insert" [.number 1.5, .nothing] state =
          .value (.array switches) middle ∧
        call "remove" [.number 1.5] middle = .value .nothing after ∧
        (Value.array switches).Lists after.store items := by
  intro switches items state evaluator call
  have hlists : (Value.array switches).Lists state.store items := .newArray Store.empty items
  have hitems : ∀ item ∈ items, item.Keepable := by simp [items, Value.Keepable]
  obtain ⟨_, _, _, _, _, hrestores⟩ :=
    array_edits_lose_nothing evaluator "main" 1 state switches items hlists hitems
  have hplace : IndexNumber.ofFloat 1.5 = .at 1 := by decide +kernel
  obtain ⟨number, hnumber, htruncation⟩ := IndexNumber.ofFloat_eq_at_iff.mp hplace
  refine ⟨hlists, hitems, hrestores (by decide) 1.5 number .nothing hnumber ?_ ?_ ?_⟩
  · rw [htruncation]
    decide
  · rw [htruncation]
    decide
  · simp [Value.Keepable]

end Kestrel
