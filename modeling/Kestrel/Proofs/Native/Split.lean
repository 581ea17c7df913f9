import Kestrel.Proofs.Native.Slice
import Kestrel.Proofs.Text.Split

/-!
# Splitting and joining

A text that is split at a separator is an array of the parts between its cuts, and joined with the
same separator these parts are the text again, wherever the separator is and whether it is empty.
-/

namespace Kestrel

/-- The parts of a text as values. -/
def partValues (separator text : String) : List Value :=
  (splitText separator.toList text.toList).map fun part => .string (String.ofList part)

/-- Parts are shown as they are, so with the separator between them they show the text. -/
theorem intercalate_partValues (store : Store) (separator text : String) :
    separator.intercalate ((partValues separator text).map (Value.display store)) = text := by
  have hparts : (partValues separator text).map (Value.display store) =
      (splitText separator.toList text.toList).map String.ofList := by
    unfold partValues
    rw [List.map_map]
    rfl
  have hlists : ((splitText separator.toList text.toList).map String.ofList).map String.toList =
      splitText separator.toList text.toList := by
    rw [List.map_map]
    exact List.map_id'' (fun part => String.toList_ofList) _
  rw [hparts, ← String.toList_inj, String.toList_intercalate, hlists]
  exact intercalate_splitText _ _

section Calls

variable {evaluator : Evaluator} {module : String} {line : Nat} {state : State}
  {content separator : TextValue}

/-- A text is split into a new array of its parts. -/
theorem callProperty_split :
    let bound := state.store.add .native (.ofText content .split)
    let parts := partValues (separator.content state.store) (content.content state.store)
    callProperty evaluator (.text content) "split" [.text separator] module line state =
      .value (.array (bound.next .array))
        { state with store := bound.add .array parts.toArray } := by
  intro bound parts
  have hname : TextMethod.ofName? content "split" = some .split :=
    TextMethod.ofName?_name content .split (by decide)
  have hparts : partValues (separator.content bound) (content.content bound) = parts := by
    rw [content.content_add_native, separator.content_add_native]
  rw [callProperty_text hname, ← hparts]
  rfl

/-- The items of an array are joined with a separator between what they show. -/
theorem callProperty_join (ref : Ref .array) :
    let items := (state.store.get ref).toList
    let bound := state.store.add .native (.ofArray ref .join)
    callProperty evaluator (.array ref) "join" [.text separator] module line state =
      .value (.string ((separator.content state.store).intercalate
        (items.map (Value.display bound)))) { state with store := bound } := by
  intro items bound
  have hitems : bound.get ref = state.store.get ref := Store.get_add_of_ne (by simp) _
  have hjoined : (separator.content bound).intercalate
      ((bound.get ref).toList.map (Value.display bound)) =
      (separator.content state.store).intercalate (items.map (Value.display bound)) := by
    rw [hitems, separator.content_add_native]
  rw [callProperty_native rfl, ← hjoined]
  rfl

end Calls

/-- A text that is split at a separator gives a new array of its parts: one for each character if
the separator is empty. Else no part holds the separator, and there is one part more than there are
cuts, which are the occurrences of the separator from the left that do not overlap. As long as the
array and the separator are what they were, joining gives the text again. -/
theorem join_restores_split (evaluator : Evaluator) (module : String) (line : Nat) (state : State)
    (content separator : TextValue) :
    let text := (content.content state.store).toList
    let mark := (separator.content state.store).toList
    ∃ (parts : List (List Char)) (array : Ref .array) (after : State),
      callProperty evaluator (.text content) "split" [.text separator] module line state =
        .value (.array array) after ∧
      (Value.array array).Lists after.store
        (parts.map fun part => .string (String.ofList part)) ∧
      (mark = [] → parts = text.map fun c => [c]) ∧
      (mark ≠ [] → (∀ part ∈ parts, ∀ place, ¬ mark <+: part.drop place) ∧
        (∃ places, Cuts mark text places) ∧
        ∀ places, Cuts mark text places → parts.length = places.length + 1) ∧
      ∀ later : State, later.store.get array = after.store.get array →
        separator.content later.store = separator.content state.store →
        ∃ whole final,
          callProperty evaluator (.array array) "join" [.text separator] module line later =
            .value whole final ∧
          whole = .string (content.content state.store) ∧
          (content.content later.store = content.content state.store →
            whole.equals final.store (.text content) = true) := by
  intro text mark
  let bound := state.store.add .native (.ofText content .split)
  let array := bound.next .array
  refine ⟨splitText mark text, array, _, callProperty_split, .newArray _ _, ?_, ?_, ?_⟩
  · intro hempty
    unfold splitText
    rw [if_pos (List.isEmpty_iff.mpr hempty)]
  · intro hmark
    have hsplit : splitText mark text = splitFrom mark 0 [] text :=
      if_neg (mt List.isEmpty_iff.mp hmark)
    have hparted := parted_splitFrom hmark text
    obtain ⟨cuts, hcuts, hlength⟩ := hparted.cuts
    rw [hsplit]
    exact ⟨hparted.free, ⟨cuts, hcuts⟩, fun places hplaces => hplaces.unique hcuts ▸ hlength⟩
  · intro later harray hseparator
    have hwhole (store : Store) : (separator.content later.store).intercalate
        ((later.store.get array).toList.map (Value.display store)) =
          content.content state.store := by
      rw [harray, Store.get_add_next, hseparator, intercalate_partValues]
    refine ⟨_, _, callProperty_join array, congrArg Value.string (hwhole _), fun hcontent => ?_⟩
    rw [hwhole, ← hcontent]
    exact beq_iff_eq.mpr (content.content_add_native later.store _).symm

/-- Where separators overlap, the first one cuts, and what is left of the other one is text. -/
theorem join_restores_split_of_overlap :
    let content := TextValue.fixed "ababa"
    let separator := TextValue.fixed "aba"
    let evaluator := Evaluator.ofSteps ⟨false, .fromMemory [], []⟩ 0
    ∃ (parts : List (List Char)) (array : Ref .array) (after : State) (whole : Value)
      (final : State),
      callProperty evaluator (.text content) "split" [.text separator] "main" 1 default =
        .value (.array array) after ∧
      "aba".toList ≠ [] ∧ Cuts "aba".toList "ababa".toList [0] ∧ parts.length = 2 ∧
      (Value.array array).Lists after.store
        (parts.map fun part => .string (String.ofList part)) ∧
      callProperty evaluator (.array array) "join" [.text separator] "main" 1 after =
        .value whole final ∧
      whole.equals final.store (.text content) = true := by
  intro content separator evaluator
  have hcuts : Cuts "aba".toList "ababa".toList [0] := by
    refine .cons (firstOccurrence_zero (by decide)) (.nil fun place hoccurs => ?_)
    have hleft : ("ababa".toList.drop (0 + "aba".toList.length)).length = 2 := by decide
    have hlength : "aba".toList.length = 3 := by decide
    have hlong := hoccurs.length_le
    rw [List.length_drop] at hlong
    omega
  obtain ⟨parts, array, after, hsplit, hlists, _, hparts, hjoin⟩ :=
    join_restores_split evaluator "main" 1 default content separator
  have hmark : "aba".toList ≠ [] := by decide
  obtain ⟨whole, final, hwhole, _, hequals⟩ := hjoin after rfl rfl
  exact ⟨parts, array, after, whole, final, hsplit, hmark, hcuts, (hparts hmark).2.2 [0] hcuts,
    hlists, hwhole, hequals rfl⟩

end Kestrel
