import Kestrel.Proofs.Native.Receiver
import Kestrel.Proofs.Number.Truncation

/-!
# Elements and slices

Arrays and texts are sequences: an index denotes one of the elements, and a slice holds those
between its bounds. Whatever numbers a program gives, neither goes past the elements, and the two
agree: what is at an index is the first element of the slice from there on, and the slices up to a
bound and from there on make up everything.
-/

namespace Kestrel

/-- A character as the text that an index gives. -/
def Value.ofCharacter (c : Char) : Value := .string (String.ofList [c])

/-- The elements of an array, or the characters of a text. -/
def Value.elements? (store : Store) : Value → Option (List Value)
  | array ref => some (store.get ref).toList
  | text content => some ((content.content store).toList.map ofCharacter)
  | _ => none

/-- A value that is there is a sequence of these elements. -/
structure Value.Lists (store : Store) (sequence : Value) (elements : List Value) : Prop where
  there : ∀ mention ∈ sequence.mentions, store.Has mention
  elements_eq : sequence.elements? store = some elements

namespace Value.Lists

variable {store : Store} {sequence : Value} {elements : List Value}

/-- An array lists its items. -/
theorem array {ref : Ref .array} (hthere : ref.index < store.size .array) :
    (Value.array ref).Lists store (store.get ref).toList := by
  refine ⟨fun mention hmention => ?_, rfl⟩
  rw [List.mem_singleton.mp hmention]
  exact hthere

/-- A new array lists what it is made of. -/
theorem newArray (store : Store) (elements : List Value) :
    (Value.array (store.next .array)).Lists (store.add .array elements.toArray) elements := by
  have hlists := array (store.next_lt_size_add .array elements.toArray)
  rwa [Store.get_add_next] at hlists

/-- Fixed text lists its characters. -/
theorem string (store : Store) (text : String) :
    (Value.string text).Lists store (text.toList.map ofCharacter) :=
  ⟨fun _ hmention => absurd hmention List.not_mem_nil, rfl⟩

/-- New cells leave the elements as they are. -/
theorem of_grows {after : Store} (hlists : sequence.Lists store elements)
    (hgrows : store.Grows after) : sequence.Lists after elements := by
  refine ⟨fun mention hmention => ?_, ?_⟩
  · have hhas := hlists.there mention hmention
    cases mention with
    | cell ref => exact Nat.lt_of_lt_of_le hhas (hgrows.size_le _)
    | module key => trivial
  · have heq := hlists.elements_eq
    cases sequence with
    | array ref =>
      have hthere : ref.index < store.size .array :=
        hlists.there (.cell ref) (List.mem_singleton_self _)
      simpa only [elements?, hgrows.get_eq hthere] using heq
    | text content =>
      cases content with
      | fixed text => exact heq
      | buffer ref =>
        have hthere : ref.index < store.size .buffer :=
          hlists.there (.cell ref) (List.mem_singleton_self _)
        simpa only [elements?, TextValue.content, hgrows.get_eq hthere] using heq
    | _ => cases heq

end Value.Lists

section Sequences

variable {evaluator : Evaluator} {module : String} {line : Nat} {state : State} {sequence : Value}
  {elements : List Value}

/-- A new native function leaves growing text as it is. -/
theorem TextValue.content_add_native (content : TextValue) (store : Store) (native : Native) :
    content.content (store.add .native native) = content.content store := by
  cases content with
  | fixed text => rfl
  | buffer ref => exact Store.get_add_of_ne (by simp) _

/-- Every text has the methods of fixed text under their names. -/
theorem TextMethod.ofName?_name (content : TextValue) (method : TextMethod)
    (hmethod : method ∈ ofFixed) : ofName? content method.name = some method := by
  have hfixed : ∀ method ∈ ofFixed, ofName? (.fixed "") method.name = some method := by decide
  have hbuffer : ∀ method ∈ ofFixed, ofName? (.buffer ⟨0⟩) method.name = some method := by decide
  cases content with
  | fixed text => exact hfixed method hmethod
  | buffer ref => exact hbuffer method hmethod

/-- A method of a text is called with its arguments, after a cell for it was added. -/
theorem callProperty_text {content : TextValue} {method : TextMethod} {name : String}
    (hname : TextMethod.ofName? content name = some method) (arguments : List Value) :
    callProperty evaluator (.text content) name arguments module line state =
      (callTextMethod content method ⟨method.name, arguments⟩
        { state with store := state.store.add .native (.ofText content method) }).raised := by
  refine @callProperty_native _ _ _ _ (.ofText content method) _ _ _ ?_
  change (TextMethod.ofName? content name).map _ = _
  rw [hname]
  rfl

/-- A method that looks at the text only answers after a cell for it was added. -/
theorem callProperty_textResult {content : TextValue} {method : TextMethod} {name : String}
    {arguments : List Value} (hname : TextMethod.ofName? content name = some method)
    (hmethod : callTextMethod content method =
      fun args => Eval.viewOrFail (textResult content method args)) :
    callProperty evaluator (.text content) name arguments module line state =
      (Eval.viewOrFail (textResult content method ⟨method.name, arguments⟩)
        { state with store := state.store.add .native (.ofText content method) }).raised := by
  rw [callProperty_text hname, hmethod]

/-- The elements between the bounds of a slice. -/
def sliced {α : Type} (start : Float) (stop? : Option Float) (elements : List α) : List α :=
  let range := sliceRange start stop? elements.length
  (elements.take range.2).drop range.1

/-- The elements of a slice with known bounds. -/
theorem sliced_eq {α : Type} {start : Float} {stop? : Option Float} {elements : List α}
    {first last : Nat} (hrange : sliceRange start stop? elements.length = (first, last)) :
    sliced start stop? elements = (elements.take last).drop first := by
  unfold sliced
  rw [hrange]

/-- The arguments of a slice: where it starts and, if it is said, where it stops. -/
def sliceArguments (start : Float) (stop? : Option Float) : List Value :=
  .number start :: stop?.toList.map .number

/-- The start of a slice is its first argument. -/
theorem number_sliceArguments (callee : String) (start : Float) (stop? : Option Float) :
    (Arguments.mk callee (sliceArguments start stop?)).number 0 = .ok start := rfl

/-- The end of a slice is its second argument. -/
theorem number?_sliceArguments (callee : String) (start : Float) (stop? : Option Float) :
    (Arguments.mk callee (sliceArguments start stop?)).number? 1 = .ok stop? := by
  cases stop? <;> rfl

/-- An index succeeds if the number denotes an element, and gives this element. -/
theorem indexValue_eq_ok_iff (hlists : sequence.Lists state.store elements) (x : Float)
    (value : Value) : indexValue state.store sequence (.number x) = .ok value ↔
      ∃ place, resolveIndex x elements.length = .ok place ∧ elements[place]? = some value := by
  have hgives (give : Nat → Value)
      (hgive : ∀ place < elements.length, elements[place]? = some (give place)) :
      (resolveIndex x elements.length).map give = .ok value ↔
        ∃ place, resolveIndex x elements.length = .ok place ∧ elements[place]? = some value := by
    cases hplace : resolveIndex x elements.length with
    | error cause => simp [Except.map]
    | ok place => simp [Except.map, hgive place (lt_of_resolveIndex hplace)]
  have heq := hlists.elements_eq
  cases sequence with
  | array ref =>
    cases heq
    refine hgives (fun place => (state.store.get ref)[place]?.getD .nothing) fun place hplace => ?_
    rw [Array.length_toList] at hplace
    simp [hplace]
  | text content =>
    cases heq
    let characters := (content.content state.store).toList
    have htext : indexValue state.store (.text content) (.number x) =
        (resolveIndex x (characters.map Value.ofCharacter).length).map fun place =>
          .string (String.ofList characters[place]?.toList) := by
      rw [List.length_map]
      rfl
    rw [htext]
    refine hgives _ fun place hplace => ?_
    rw [List.length_map] at hplace
    simp [characters, hplace, Value.ofCharacter]
  | _ => cases heq

/-- A slice of an array is a new array. -/
theorem callProperty_slice_array (ref : Ref .array) (start : Float) (stop? : Option Float) :
    let items := (state.store.get ref).toList
    let bound := state.store.add .native (.ofArray ref .slice)
    let part := sliced start stop? items
    callProperty evaluator (.array ref) "slice" (sliceArguments start stop?) module line state =
      .value (.array (bound.next .array))
        { state with store := bound.add .array part.toArray } := by
  intro items bound part
  have hitems : bound.get ref = state.store.get ref := Store.get_add_of_ne (by simp) _
  have hrun : runNative (.ofArray ref .slice) (sliceArguments start stop?)
      { state with store := bound } = Eval.newArray part { state with store := bound } := by
    refine Eval.bind_of_value (Eval.viewOrFail_of_ok ?_) _
    simp only [number_sliceArguments, number?_sliceArguments, hitems]
    rfl
  rw [callProperty_native rfl, hrun]
  rfl

/-- A slice of a text is made of the characters between its bounds. -/
theorem textResult_slice (content : TextValue) (args : Arguments) (store : Store) :
    textResult content .slice args store = (args.number 0).bind fun start =>
      (args.number? 1).map fun stop? =>
        .string (String.ofList (sliced start stop? (content.content store).toList)) := by
  unfold textResult
  simp only [← String.length_toList]
  rfl

/-- A slice of a text is fixed text. -/
theorem callProperty_slice_text (content : TextValue) (start : Float) (stop? : Option Float) :
    let characters := (content.content state.store).toList
    let part := sliced start stop? characters
    callProperty evaluator (.text content) "slice" (sliceArguments start stop?) module line state =
      .value (.string (String.ofList part))
        { state with store := state.store.add .native (.ofText content .slice) } := by
  intro characters part
  have hname : TextMethod.ofName? content "slice" = some .slice :=
    TextMethod.ofName?_name content .slice (by decide)
  have hpart (callee : String) : textResult content .slice ⟨callee, sliceArguments start stop?⟩
      (state.store.add .native (.ofText content .slice)) = .ok (.string (String.ofList part)) := by
    rw [textResult_slice, number_sliceArguments, number?_sliceArguments,
      content.content_add_native]
    rfl
  rw [callProperty_textResult hname rfl, Eval.viewOrFail_of_ok (hpart _)]
  rfl

/-- A slice is a sequence of the same type, of the elements between its bounds. -/
theorem callProperty_slice (hlists : sequence.Lists state.store elements) (start : Float)
    (stop? : Option Float) : ∃ part after,
      callProperty evaluator sequence "slice" (sliceArguments start stop?) module line state =
        .value part after ∧ state.Grows after ∧
      part.Lists after.store (sliced start stop? elements) ∧
      part.typeName = sequence.typeName := by
  have heq := hlists.elements_eq
  cases sequence with
  | array ref =>
    cases heq
    exact ⟨_, _, callProperty_slice_array ref start stop?,
      (State.Grows.add state .native _).trans (.add _ .array _), .newArray _ _, rfl⟩
  | text content =>
    cases heq
    refine ⟨_, _, callProperty_slice_text content start stop?, .add state .native _, ?_, rfl⟩
    have hpart := Value.Lists.string (state.store.add .native (.ofText content .slice))
      (String.ofList (sliced start stop? (content.content state.store).toList))
    unfold sliced at hpart ⊢
    rw [List.length_map]
    rw [String.toList_ofList, List.map_drop, List.map_take] at hpart
    exact hpart
  | _ => cases heq

/-- The sum of two sequences of one type lists the elements of both. -/
theorem applyBinary_add_lists {front back : Value} {first others : List Value}
    (hfront : front.Lists state.store first) (hback : back.Lists state.store others)
    (htype : front.typeName = back.typeName) : ∃ whole after,
      applyBinary .add front back state = .value whole after ∧ state.Grows after ∧
      whole.Lists after.store (first ++ others) ∧ whole.typeName = front.typeName := by
  have hfirst := hfront.elements_eq
  have hothers := hback.elements_eq
  cases front with
  | array x =>
    cases back with
    | array y =>
      cases hfirst
      cases hothers
      exact ⟨_, _, rfl, .add state .array _, .newArray _ _, rfl⟩
    | text y => simp [Value.typeName] at htype
    | _ => cases hothers
  | text x =>
    cases back with
    | text y =>
      cases hfirst
      cases hothers
      have hlists := Value.Lists.string state.store (x.content state.store ++ y.content state.store)
      rw [String.toList_append, List.map_append] at hlists
      exact ⟨_, state, rfl, .refl state, hlists, rfl⟩
    | array y => simp [Value.typeName] at htype
    | _ => cases hothers
  | _ => cases hfirst

/-- Where an index gives an element, the slice from there on begins with it. -/
theorem slice_from_index (hlists : sequence.Lists state.store elements) {x : Float} {value : Value}
    (hvalue : indexValue state.store sequence (.number x) = .ok value) : ∃ rest after others,
      callProperty evaluator sequence "slice" [.number x] module line state = .value rest after ∧
      rest.Lists after.store (value :: others) := by
  obtain ⟨place, hplace, helement⟩ := (indexValue_eq_ok_iff hlists x value).mp hvalue
  obtain ⟨rest, after, hrest, _, hlisted, _⟩ := @callProperty_slice evaluator module line state
    sequence elements hlists x none
  refine ⟨rest, after, elements.drop (place + 1), hrest, ?_⟩
  have hbegins : sliced x none elements = value :: elements.drop (place + 1) := by
    obtain ⟨hlt, hget⟩ := List.getElem?_eq_some_iff.mp helement
    rw [sliced_eq (sliceRange_split x elements.length).2, resolveBound_of_resolveIndex hplace,
      List.take_length, List.drop_eq_getElem_cons hlt, hget]
  rwa [hbegins] at hlisted

/-- The slices up to a bound and from there on have all elements between them. -/
theorem slices_add_up (hlists : sequence.Lists state.store elements) (bound : Float) :
    ∃ front back whole first second third,
      callProperty evaluator sequence "slice" [.number 0, .number bound] module line state =
        .value front first ∧
      callProperty evaluator sequence "slice" [.number bound] module line first =
        .value back second ∧
      applyBinary .add front back second = .value whole third ∧
      whole.Lists third.store elements ∧ sequence.Lists third.store elements ∧
      whole.typeName = sequence.typeName := by
  obtain ⟨front, first, hfront, hfirst, hbefore, hfrontType⟩ :=
    @callProperty_slice evaluator module line state sequence elements hlists 0 (some bound)
  obtain ⟨back, second, hback, hsecond, hbehind, hbackType⟩ :=
    @callProperty_slice evaluator module line first sequence elements
      (hlists.of_grows hfirst.store) bound none
  obtain ⟨whole, third, hwhole, hthird, hall, hwholeType⟩ :=
    applyBinary_add_lists (hbefore.of_grows hsecond.store) hbehind (hfrontType.trans hbackType.symm)
  refine ⟨front, back, whole, first, second, third, hfront, hback, hwhole, ?_,
    hlists.of_grows (hfirst.trans (hsecond.trans hthird)).store, hwholeType.trans hfrontType⟩
  obtain ⟨hbeforeRange, hbehindRange⟩ := sliceRange_split bound elements.length
  have hjoined : sliced 0 (some bound) elements ++ sliced bound none elements = elements := by
    rw [sliced_eq hbeforeRange, sliced_eq hbehindRange, List.drop_zero, List.take_length,
      List.take_append_drop]
  rwa [hjoined] at hall

end Sequences

/-- Of up to `2 ^ 53` elements, a number denotes one exactly if its whole part is a place or the
negative of a place counted from the end; it never denotes one that is not there, and the bounds of
a slice never lie outside. A slice of an expression is a call of the method `slice` of its value. So
an array or a text has at an index, if anything, the first element of the slice from there on, and
its slices up to a bound and from there on make it up again. -/
theorem index_and_slice_agree :
    (∀ (x : Float) (length place : Nat), length ≤ 2 ^ 53 →
      (resolveIndex x length = .ok place ↔ ∃ number, (Binary.ofFloat x).value? = some number ∧
        -(length : Int) ≤ truncation number ∧ truncation number < length ∧
        (place : Int) =
          if truncation number < 0 then length + truncation number else truncation number)) ∧
    (∀ (x : Float) (length place : Nat), resolveIndex x length = .ok place → place < length) ∧
    (∀ (start : Float) (stop? : Option Float) (length : Nat),
      (sliceRange start stop? length).1 ≤ (sliceRange start stop? length).2 ∧
        (sliceRange start stop? length).2 ≤ length) ∧
    (∀ (evaluator : Evaluator) (scope : Scope) (object : Expression)
      (start stop : Option Expression) (line : Nat),
      evaluateSlice evaluator scope object start stop line = (do
        let sequence ← evaluator.expression scope object
        let bounds ← evaluateBounds evaluator scope start stop
        callProperty evaluator sequence "slice" bounds scope.module line)) ∧
    ∀ (evaluator : Evaluator) (module : String) (line : Nat) (state : State) (sequence : Value)
      (elements : List Value), sequence.Lists state.store elements → ∀ x bound : Float,
        (∀ value, indexValue state.store sequence (.number x) = .ok value ↔
          ∃ place, resolveIndex x elements.length = .ok place ∧ elements[place]? = some value) ∧
        (∀ value, indexValue state.store sequence (.number x) = .ok value → ∃ rest after others,
          callProperty evaluator sequence "slice" [.number x] module line state =
            .value rest after ∧
          rest.Lists after.store (value :: others)) ∧
        ∃ front back whole first second third,
          callProperty evaluator sequence "slice" [.number 0, .number bound] module line state =
            .value front first ∧
          callProperty evaluator sequence "slice" [.number bound] module line first =
            .value back second ∧
          applyBinary .add front back second = .value whole third ∧
          whole.Lists third.store elements ∧ sequence.Lists third.store elements ∧
          whole.typeName = sequence.typeName := by
  refine ⟨fun x length place hlength => resolveIndex_eq_ok_iff hlength x place,
    fun x length place => lt_of_resolveIndex, sliceRange_le, evaluateSlice_eq, ?_⟩
  intro evaluator module line state sequence elements hlists x bound
  exact ⟨indexValue_eq_ok_iff hlists x, fun value => slice_from_index hlists,
    slices_add_up hlists bound⟩

/-- The last character of growing text is at the index -1, and begins the slice from there on. -/
theorem slice_of_last_character :
    let word := Value.text (.buffer ⟨0⟩)
    let state : State := { (default : State) with store := Store.empty.add .buffer "añ" }
    let evaluator := Evaluator.ofSteps ⟨false, .fromMemory [], []⟩ 0
    let last := Value.ofCharacter 'ñ'
    word.Lists state.store [.ofCharacter 'a', last] ∧ resolveIndex (-1) 2 = .ok 1 ∧ 1 < 2 ∧
      indexValue state.store word (.number (-1)) = .ok last ∧
      ∃ rest after others, callProperty evaluator word "slice" [.number (-1)] "main" 1 state =
        .value rest after ∧ rest.Lists after.store (last :: others) := by
  intro word state evaluator last
  obtain ⟨hindex, hbounded, -, -, hsequences⟩ := index_and_slice_agree
  have hlists : word.Lists state.store [.ofCharacter 'a', last] := by
    have hword : "añ".toList = ['a', 'ñ'] := by decide
    refine ⟨fun mention hmention => ?_, ?_⟩
    · rw [List.mem_singleton.mp hmention]
      exact Nat.zero_lt_one
    · exact congrArg (fun characters => some (characters.map Value.ofCharacter)) hword
  have hplace : resolveIndex (-1) 2 = .ok 1 := by
    have hnumber : IndexNumber.ofFloat (-1) = .at (-1) := by decide +kernel
    obtain ⟨number, hvalue, htruncation⟩ := IndexNumber.ofFloat_eq_at_iff.mp hnumber
    refine (hindex (-1) 2 1 (by norm_num)).mpr ⟨number, hvalue, ?_⟩
    rw [htruncation]
    decide
  obtain ⟨hvalue, hslice, _⟩ :=
    hsequences evaluator "main" 1 state word [.ofCharacter 'a', last] hlists (-1) (-1)
  have hlast : indexValue state.store word (.number (-1)) = .ok last :=
    (hvalue last).mpr ⟨1, hplace, rfl⟩
  exact ⟨hlists, hplace, hbounded (-1) 2 1 hplace, hlast, hslice last hlast⟩

end Kestrel
