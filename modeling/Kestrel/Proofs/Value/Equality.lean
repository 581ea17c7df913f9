import Kestrel.Proofs.Number.Equality
import Kestrel.Proofs.OrderedMap
import Kestrel.Proofs.Value.Opened
import Kestrel.Value.Equality
import Mathlib.Data.List.Perm.Subperm
import Mathlib.Data.List.ProdSigma
import Mathlib.Order.Bounds.Basic

/-!
# Equality of values that may hold themselves

Two values are equal if what can be seen of them never differs, however deep one looks: equality is
the largest relation that demands of two containers that it holds of what they hold. A comparison
takes the pairs around it for granted. This is sound, since what was assumed of a pair is shown of
it before the comparison ends, and it makes every comparison end, since no pair of containers is
opened twice on the way inwards.
-/

namespace Kestrel

/-- Two maps have the same keys, and related values under them. -/
structure OrderedMap.Alike {α : Type} (inner : α → α → Prop) (left right : OrderedMap α) :
    Prop where
  keys (key : String) : key ∈ left.keys ↔ key ∈ right.keys
  values {key : String} {x y : α} (hleftValue : left.get? key = some x)
    (hrightValue : right.get? key = some y) : inner x y

namespace Value

/-- What two values must have in common to be equal, if `inner` relates what they hold: numbers
compare as equal, texts have the same characters, arrays hold related values at the same places, and
dictionaries have the same keys and related values under them. Whatever is not a number agrees with
itself: truth values, nothing and errors by what they are, and all else by identity. -/
inductive Agree (store : Store) (inner : Value → Value → Prop) : Value → Value → Prop
  | number {x y : Float} (hequal : (x == y) = true) : Agree store inner (.number x) (.number y)
  | text {left right : TextValue} (hcharacters : left.content store = right.content store) :
      Agree store inner (.text left) (.text right)
  | itself {value : Value} (hnotNumber : ∀ x, value ≠ .number x) : Agree store inner value value
  | array {left right : Ref .array}
      (hitems : List.Forall₂ inner (store.get left).toList (store.get right).toList) :
      Agree store inner (.array left) (.array right)
  | dictionary {left right : Ref .dictionary}
      (hentries : (store.get left).Alike inner (store.get right)) :
      Agree store inner (.dictionary left) (.dictionary right)

end Value

namespace OrderedMap

variable {α : Type} {inner outer : α → α → Prop} {left middle right : OrderedMap α}

/-- Maps that are alike are so with a weaker relation. -/
theorem Alike.mono (halike : left.Alike inner right) (hweaker : ∀ x y, inner x y → outer x y) :
    left.Alike outer right where
  keys := halike.keys
  values hleftValue hrightValue := hweaker _ _ (halike.values hleftValue hrightValue)

/-- Maps that are alike are so in the other order. -/
theorem Alike.symm (halike : left.Alike inner right) : right.Alike (fun x y => inner y x) left where
  keys key := (halike.keys key).symm
  values hrightValue hleftValue := halike.values hleftValue hrightValue

/-- Maps that are alike in two steps are alike by values in between. -/
theorem Alike.trans (hfirst : left.Alike inner middle) (hsecond : middle.Alike inner right) :
    left.Alike (fun x z => ∃ y, inner x y ∧ inner y z) right where
  keys key := (hfirst.keys key).trans (hsecond.keys key)
  values {key x z} hleftValue hrightValue := by
    have hleft : key ∈ left.keys := contains_iff.mp (by simp [contains, hleftValue])
    have hmiddle : middle.contains key := contains_iff.mpr ((hfirst.keys key).mp hleft)
    obtain ⟨y, hmiddleValue⟩ := Option.isSome_iff_exists.mp hmiddle
    exact ⟨y, hfirst.values hleftValue hmiddleValue, hsecond.values hmiddleValue hrightValue⟩

/-- Maps are alike if one has as many entries as the other, and each has a counterpart there. -/
theorem alike_iff :
    left.Alike inner right ↔ left.size = right.size ∧
      ∀ entry ∈ left.entries, ∃ other, right.get? entry.1 = some other ∧ inner entry.2 other := by
  constructor
  · intro halike
    have hkeys : left.keys.Perm right.keys :=
      (List.perm_ext_iff_of_nodup left.nodup_keys right.nodup_keys).mpr halike.keys
    constructor
    · simpa [keys, size] using hkeys.length_eq
    · intro entry hentry
      have hleft : left.get? entry.1 = some entry.2 := get?_eq_some_iff.mpr hentry
      have hkey : entry.1 ∈ right.keys :=
        (halike.keys entry.1).mp (List.mem_map.mpr ⟨entry, hentry, rfl⟩)
      obtain ⟨other, hother⟩ := Option.isSome_iff_exists.mp (contains_iff.mpr hkey)
      exact ⟨other, hother, halike.values hleft hother⟩
  · rintro ⟨hsize, hentries⟩
    have hsubset : left.keys ⊆ right.keys := by
      intro key hkey
      obtain ⟨entry, hentry, rfl⟩ := List.mem_map.mp hkey
      obtain ⟨other, hother, -⟩ := hentries entry hentry
      apply contains_iff.mp
      simp [contains, hother]
    -- No key occurs twice, so there is no room for a key on the right only.
    have hkeys : left.keys.Perm right.keys := by
      apply (List.subperm_of_subset left.nodup_keys hsubset).perm_of_length_le
      simpa [keys, size] using hsize.ge
    constructor
    · intro key
      exact hkeys.mem_iff
    · intro key x y hleftValue hrightValue
      obtain ⟨other, hother, hinner⟩ := hentries (key, x) (get?_eq_some_iff.mp hleftValue)
      rw [hother] at hrightValue
      cases hrightValue
      exact hinner

end OrderedMap

/-- Lists with related items at the same places can be compared through a third one. -/
theorem forall₂_trans {α : Type} {inner : α → α → Prop} {left middle right : List α}
    (hfirst : List.Forall₂ inner left middle) (hsecond : List.Forall₂ inner middle right) :
    List.Forall₂ (fun x z => ∃ y, inner x y ∧ inner y z) left right := by
  induction hfirst generalizing right with
  | nil =>
    cases hsecond
    exact .nil
  | cons hxy _ ih =>
    cases hsecond with
    | cons hyz hothers => exact .cons ⟨_, hxy, hyz⟩ (ih hothers)

namespace Value

variable {store : Store} {left middle right : Value} {pending : List (Value × Value)}

/-- What agrees does so with a weaker relation. -/
theorem Agree.mono {inner outer : Value → Value → Prop} (hagree : Agree store inner left right)
    (hweaker : ∀ x y, inner x y → outer x y) : Agree store outer left right := by
  cases hagree with
  | number hequal => exact .number hequal
  | text hcharacters => exact .text hcharacters
  | itself hnotNumber => exact .itself hnotNumber
  | array hitems => exact .array (hitems.imp hweaker)
  | dictionary hentries => exact .dictionary (hentries.mono hweaker)

/-- What agrees does so in the other order. -/
theorem Agree.symm {inner : Value → Value → Prop} (hagree : Agree store inner left right) :
    Agree store (fun x y => inner y x) right left := by
  cases hagree with
  | number hequal => exact .number (float_beq_symm hequal)
  | text hcharacters => exact .text hcharacters.symm
  | itself hnotNumber => exact .itself hnotNumber
  | array hitems => exact .array hitems.flip
  | dictionary hentries => exact .dictionary hentries.symm

/-- Values that agree in two steps agree by related values or by values in between. -/
theorem Agree.trans {inner : Value → Value → Prop} (hfirst : Agree store inner left middle)
    (hsecond : Agree store inner middle right) :
    Agree store (fun x z => inner x z ∨ ∃ y, inner x y ∧ inner y z) left right := by
  cases hfirst with
  | itself => exact hsecond.mono fun x z hxz => .inl hxz
  | number hequal =>
    cases hsecond with
    | number hequal' => exact .number (float_beq_trans hequal hequal')
    | itself hnotNumber => exact absurd rfl (hnotNumber _)
  | text hcharacters =>
    cases hsecond with
    | text hcharacters' => exact .text (hcharacters.trans hcharacters')
    | itself => exact .text hcharacters
  | array hitems =>
    cases hsecond with
    | array hitems' =>
      exact .array ((forall₂_trans hitems hitems').imp fun x z hxz => .inr hxz)
    | itself => exact .array (hitems.imp fun x z hxz => .inl hxz)
  | dictionary hentries =>
    cases hsecond with
    | dictionary hentries' =>
      exact .dictionary ((hentries.trans hentries').mono fun x z hxz => .inr hxz)
    | itself => exact .dictionary (hentries.mono fun x z hxz => .inl hxz)

/-- Values that agree are of one type. -/
theorem Agree.typeName {inner : Value → Value → Prop} (hagree : Agree store inner left right) :
    left.typeName = right.typeName := by
  cases hagree <;> rfl

/-- Every value agrees with itself, other than a number that is NaN. -/
theorem agree_self_iff {inner : Value → Value → Prop} {value : Value} :
    Agree store inner value value ↔ ∀ x, value = .number x → x.isNaN = false := by
  constructor
  · rintro hagree x rfl
    cases hagree with
    | number hequal => exact float_beq_self_iff.mp hequal
    | itself hnotNumber => exact absurd rfl (hnotNumber x)
  · intro hnotNaN
    by_cases hnumber : ∃ x, value = .number x
    · obtain ⟨x, rfl⟩ := hnumber
      exact .number (float_beq_self_iff.mpr (hnotNaN x rfl))
    · exact .itself fun x hx => hnumber ⟨x, hx⟩

/-! ### Going inwards -/

/-- A comparison of two values, inside the pairs that are being compared around it. -/
structure Comparison where
  pending : List (Value × Value)
  left : Value
  right : Value

/-- A comparison asks for others: that of two containers asks for those of what they hold, unless
they are the same container, or are being compared already. -/
inductive Comparison.Asks (store : Store) : Comparison → Comparison → Prop
  | array {pending : List (Value × Value)} {left right : Ref .array} {x y : Value}
      (hdiffer : left ≠ right) (hnew : (Value.array left, Value.array right) ∉ pending)
      (hheld : (x, y) ∈ (store.get left).toList.zip (store.get right).toList) :
      Asks store ⟨(.array left, .array right) :: pending, x, y⟩ ⟨pending, .array left, .array right⟩
  | dictionary {pending : List (Value × Value)} {left right : Ref .dictionary} {key : String}
      {x y : Value} (hdiffer : left ≠ right)
      (hnew : (Value.dictionary left, Value.dictionary right) ∉ pending)
      (hleftValue : (store.get left).get? key = some x)
      (hrightValue : (store.get right).get? key = some y) :
      Asks store ⟨(.dictionary left, .dictionary right) :: pending, x, y⟩
        ⟨pending, .dictionary left, .dictionary right⟩

/-- The pairs of containers that can be compared by what they hold. -/
def containerPairs (store : Store) : List (Value × Value) :=
  (store.refs .array ×ˢ store.refs .array).map (Prod.map array array) ++
    (store.refs .dictionary ×ˢ store.refs .dictionary).map (Prod.map dictionary dictionary)

/-- At first no pair has been opened. -/
theorem unopened_containerPairs (store : Store) :
    unopened (containerPairs store) [] = pairBound store := by
  simp [unopened_nil, containerPairs, pairBound, Store.length_refs, List.length_product]

/-- Each comparison that is asked for leaves fewer pairs to open. -/
theorem Comparison.Asks.unopened_lt {inner outer : Comparison} (hasks : inner.Asks store outer) :
    unopened (containerPairs store) inner.pending <
      unopened (containerPairs store) outer.pending := by
  cases hasks with
  | @array pending left right x y _ hnew hheld =>
    obtain ⟨hx, hy⟩ := List.of_mem_zip hheld
    have hleft : left ∈ store.refs .array := Store.mem_refs_of_item hx
    have hright : right ∈ store.refs .array := Store.mem_refs_of_item hy
    apply unopened_cons_lt _ hnew
    simp [containerPairs, hleft, hright]
  | @dictionary pending left right key x y _ hnew hleftValue hrightValue =>
    have hleft : left ∈ store.refs .dictionary :=
      Store.mem_refs_of_entry (OrderedMap.get?_eq_some_iff.mp hleftValue)
    have hright : right ∈ store.refs .dictionary :=
      Store.mem_refs_of_entry (OrderedMap.get?_eq_some_iff.mp hrightValue)
    apply unopened_cons_lt _ hnew
    simp [containerPairs, hleft, hright]

/-- No comparison asks for others without end. -/
theorem wellFounded_asks (store : Store) : WellFounded (Comparison.Asks store) :=
  Subrelation.wf (fun hasks => hasks.unopened_lt)
    (measure fun comparison : Comparison =>
      unopened (containerPairs store) comparison.pending).wf

/-! ### Taking pairs for granted -/

/-- Values are found to be equal if they agree in all that is asked for, or are pending. -/
theorem equalsWithin_of_agree {depth : Nat} {inner : Value → Value → Prop}
    (hagree : Agree store inner left right)
    (hasked : ∀ x y, (Comparison.mk ((left, right) :: pending) x y).Asks store
        ⟨pending, left, right⟩ → inner x y →
      equalsWithin store depth ((left, right) :: pending) x y = true) :
    equalsWithin store (depth + 1) pending left right = true := by
  cases hagree with
  | number hequal => exact hequal
  | text hcharacters => simp [equalsWithin, hcharacters]
  | itself hnotNumber =>
    cases left <;> simp [equalsWithin]
    exact absurd rfl (hnotNumber _)
  | @array left right hitems =>
    rw [equalsWithin]
    split_ifs with hskip
    · rfl
    · rw [not_or] at hskip
      obtain ⟨hlength, hitems'⟩ := List.forall₂_iff_zip.mp hitems
      simp only [Bool.and_eq_true, beq_iff_eq, List.all_eq_true]
      constructor
      · exact hlength
      · intro pair hpair
        exact hasked _ _ (.array hskip.1 hskip.2 hpair) (hitems' hpair)
  | @dictionary left right hentries =>
    rw [equalsWithin]
    split_ifs with hskip
    · rfl
    · rw [not_or] at hskip
      obtain ⟨hsize, hentries'⟩ := OrderedMap.alike_iff.mp hentries
      simp only [Bool.and_eq_true, beq_iff_eq, List.all_eq_true]
      constructor
      · exact hsize
      · intro entry hentry
        obtain ⟨other, hother, hinner⟩ := hentries' entry hentry
        have hleft := OrderedMap.get?_eq_some_iff.mpr hentry
        rw [hother]
        exact hasked _ _ (.dictionary hskip.1 hskip.2 hleft hother) hinner

/-- What is compared by identity, or as truth values, agrees if it is the same. -/
theorem agree_of_beq {α : Type} [BEq α] [LawfulBEq α] {inner : Value → Value → Prop} {a b : α}
    {make : α → Value} (hnotNumber : ∀ a x, make a ≠ .number x) (hequal : (a == b) = true) :
    Agree store inner (make a) (make b) := by
  rw [eq_of_beq hequal]
  exact .itself (hnotNumber b)

/-- Values that are found to be equal are pending, or agree if what is found inside is right. -/
theorem agree_of_equalsWithin {depth : Nat}
    (hequal : equalsWithin store (depth + 1) pending left right = true) :
    (left, right) ∈ pending ∨
      Agree store (fun x y => equalsWithin store depth ((left, right) :: pending) x y = true)
        left right := by
  -- one case for each kind of value, and a last one for values of different kinds
  unfold equalsWithin at hequal
  split at hequal
  · exact .inr (.number hequal)
  · exact .inr (.text (beq_iff_eq.mp hequal))
  · rename_i left right
    split_ifs at hequal with hskip
    · rcases hskip with rfl | hpending
      · exact .inr (.itself (by simp))
      · exact .inl hpending
    · simp only [Bool.and_eq_true, beq_iff_eq, List.all_eq_true] at hequal
      obtain ⟨hlength, hitems⟩ := hequal
      right
      apply Agree.array
      exact List.forall₂_iff_zip.mpr ⟨hlength, fun hpair => hitems _ hpair⟩
  · rename_i left right
    split_ifs at hequal with hskip
    · rcases hskip with rfl | hpending
      · exact .inr (.itself (by simp))
      · exact .inl hpending
    · simp only [Bool.and_eq_true, beq_iff_eq, List.all_eq_true] at hequal
      obtain ⟨hsize, hentries⟩ := hequal
      right
      apply Agree.dictionary
      apply OrderedMap.alike_iff.mpr
      constructor
      · exact hsize
      · intro entry hentry
        have hfound := hentries entry hentry
        split at hfound
        · exact ⟨_, ‹_›, hfound⟩
        · cases hfound
  · exact .inr (agree_of_beq (by simp) hequal)
  · exact .inr (.itself (by simp))
  · simp only [Bool.and_eq_true, beq_iff_eq] at hequal
    obtain ⟨rfl, rfl⟩ := hequal
    exact .inr (.itself (by simp))
  · exact .inr (agree_of_beq (by simp) hequal)
  · exact .inr (agree_of_beq (by simp) hequal)
  · exact .inr (agree_of_beq (by simp) hequal)
  · exact .inr (agree_of_beq (by simp) hequal)
  · exact .inr (agree_of_beq (by simp) hequal)
  · cases hequal

/-- Two values look alike as far as one can see without opening the pairs that are pending. -/
def AlikeGiven (store : Store) (pending : List (Value × Value)) (left right : Value) : Prop :=
  ∃ relation : Value → Value → Prop,
    (∀ x y, relation x y → Agree store (fun u v => relation u v ∨ (u, v) ∈ pending) x y) ∧
      relation left right

/-- What looks alike agrees, if what looks alike or is pending is related. -/
theorem AlikeGiven.agree (halike : AlikeGiven store pending left right) :
    Agree store (fun x y => AlikeGiven store pending x y ∨ (x, y) ∈ pending) left right := by
  obtain ⟨relation, hrelation, hpair⟩ := halike
  apply (hrelation left right hpair).mono
  intro x y hxy
  exact hxy.imp_left fun hinner => ⟨relation, hrelation, hinner⟩

/-- A pair may be taken for granted while it is shown to be alike. -/
theorem alikeGiven_of_agree
    (hagree : Agree store (fun x y => AlikeGiven store ((left, right) :: pending) x y ∨
      (x, y) ∈ (left, right) :: pending) left right) :
    AlikeGiven store pending left right := by
  -- The pair itself joins the relation, so that it need not be pending any more.
  let relation (x y : Value) : Prop :=
    AlikeGiven store ((left, right) :: pending) x y ∨ (x, y) = (left, right)
  have hweaker : ∀ x y, (AlikeGiven store ((left, right) :: pending) x y ∨
      (x, y) ∈ (left, right) :: pending) → relation x y ∨ (x, y) ∈ pending := by
    intro x y hxy
    rcases hxy with halike | hmem
    · exact .inl (.inl halike)
    · exact (List.mem_cons.mp hmem).imp_left .inr
  refine ⟨relation, ?_, .inr rfl⟩
  intro x y hxy
  rcases hxy with halike | hpair
  · exact halike.agree.mono hweaker
  · cases hpair
    exact hagree.mono hweaker

/-- What is found to be equal is pending or alike. -/
theorem alikeGiven_of_equalsWithin {depth : Nat} :
    ∀ {pending : List (Value × Value)} {left right : Value},
      equalsWithin store depth pending left right = true →
        AlikeGiven store pending left right ∨ (left, right) ∈ pending := by
  induction depth with
  | zero =>
    intro pending left right hequal
    cases hequal
  | succ depth ih =>
    intro pending left right hequal
    rcases agree_of_equalsWithin hequal with hpending | hagree
    · exact .inr hpending
    · left
      apply alikeGiven_of_agree
      exact hagree.mono fun x y hxy => ih hxy

/-- Values of a relation whose values agree are found to be equal, deep enough inwards. -/
theorem equalsWithin_of_relation {relation : Value → Value → Prop}
    (hrelation : ∀ x y, relation x y → Agree store relation x y) {depth : Nat} :
    ∀ {pending : List (Value × Value)} {left right : Value},
      unopened (containerPairs store) pending < depth → relation left right →
        equalsWithin store depth pending left right = true := by
  induction depth with
  | zero =>
    intro pending left right hdepth
    omega
  | succ depth ih =>
    intro pending left right hdepth hpair
    apply equalsWithin_of_agree (hrelation left right hpair)
    intro x y hasks hxy
    have hfewer := hasks.unopened_lt
    dsimp only at hfewer
    exact ih (by omega) hxy

/-! ### The largest relation -/

/-- Deep enough inwards, the values are found to be equal that some relation holds of whose values
agree. -/
theorem equalsWithin_iff {depth : Nat} (hdepth : pairBound store < depth) :
    equalsWithin store depth [] left right = true ↔
      ∃ relation : Value → Value → Prop,
        (∀ x y, relation x y → Agree store relation x y) ∧ relation left right := by
  constructor
  · intro hequal
    obtain ⟨relation, hrelation, hpair⟩ | hpending := alikeGiven_of_equalsWithin hequal
    · refine ⟨relation, ?_, hpair⟩
      simpa using hrelation
    · cases hpending
  · rintro ⟨relation, hrelation, hpair⟩
    apply equalsWithin_of_relation hrelation _ hpair
    rwa [unopened_containerPairs]

/-- Values are equal exactly if some relation holds of them in which related values agree. -/
theorem equals_iff :
    left.equals store right = true ↔
      ∃ relation : Value → Value → Prop,
        (∀ x y, relation x y → Agree store relation x y) ∧ relation left right :=
  equalsWithin_iff (by omega)

/-- Values that are equal agree in that what they hold is equal. -/
theorem agree_of_equals (hequal : left.equals store right = true) :
    Agree store (fun x y => x.equals store y = true) left right := by
  obtain ⟨relation, hrelation, hpair⟩ := equals_iff.mp hequal
  apply (hrelation left right hpair).mono
  intro x y hxy
  exact equals_iff.mpr ⟨relation, hrelation, hxy⟩

/-- Equality of values goes both ways. -/
theorem equals_symm (hequal : left.equals store right = true) :
    right.equals store left = true := by
  apply equals_iff.mpr
  refine ⟨fun x y => y.equals store x = true, ?_, hequal⟩
  intro x y hyx
  exact (agree_of_equals hyx).symm

/-- What equals a value equals all that this value equals. -/
theorem equals_trans (hfirst : left.equals store middle = true)
    (hsecond : middle.equals store right = true) : left.equals store right = true := by
  apply equals_iff.mpr
  refine ⟨fun x z => x.equals store z = true ∨
    ∃ y, x.equals store y = true ∧ y.equals store z = true, ?_, .inr ⟨middle, hfirst, hsecond⟩⟩
  intro x z hxz
  rcases hxz with hxz | ⟨y, hxy, hyz⟩
  · exact (agree_of_equals hxz).mono fun u v huv => .inl huv
  · exact (agree_of_equals hxy).trans (agree_of_equals hyz)

/-- A value equals itself unless it is what is not a number. -/
theorem equals_self_iff {value : Value} :
    value.equals store value = true ↔ ∀ x, value = .number x → x.isNaN = false := by
  constructor
  · intro hequal
    exact agree_self_iff.mp (agree_of_equals hequal)
  · intro hnotNaN
    apply equals_iff.mpr
    refine ⟨fun x y => x = value ∧ y = value, ?_, rfl, rfl⟩
    rintro x y ⟨rfl, rfl⟩
    exact agree_self_iff.mpr hnotNaN

end Value

/-- Comparing two values always ends, however their containers hold each other: no comparison asks
for others without end, and the depth that is allowed for never matters. What comes out is the
largest relation whose values agree in what it demands: numbers, texts, truth values, nothing and
errors in what they are, containers in being the same or having as many items, or the same keys,
with related values, and all else in being the same. It is symmetric and transitive, holds of
every value and itself other than NaN, and of no values of different types. -/
theorem equals_greatest_agreement (store : Store) :
    WellFounded (Value.Comparison.Asks store) ∧
      (∀ depth > Value.pairBound store, ∀ left right : Value,
        Value.equalsWithin store depth [] left right = left.equals store right) ∧
      IsGreatest {relation : Value → Value → Prop |
          ∀ x y, relation x y → Value.Agree store relation x y}
        (fun left right => left.equals store right = true) ∧
      (∀ left right : Value, left.equals store right = right.equals store left) ∧
      (∀ left middle right : Value, left.equals store middle = true →
        middle.equals store right = true → left.equals store right = true) ∧
      (∀ value : Value,
        value.equals store value = true ↔ ∀ x, value = .number x → x.isNaN = false) ∧
      ∀ left right : Value, left.equals store right = true →
        left.typeName = right.typeName := by
  refine ⟨Value.wellFounded_asks store, ?_, ⟨?_, ?_⟩, ?_, ?_, ?_, ?_⟩
  · intro depth hdepth left right
    apply Bool.eq_iff_iff.mpr
    rw [Value.equalsWithin_iff hdepth, Value.equals_iff]
  · intro x y hequal
    exact Value.agree_of_equals hequal
  · intro relation hrelation left right hpair
    exact Value.equals_iff.mpr ⟨relation, hrelation, hpair⟩
  · intro left right
    exact Bool.eq_iff_iff.mpr ⟨Value.equals_symm, Value.equals_symm⟩
  · intro left middle right hfirst hsecond
    exact Value.equals_trans hfirst hsecond
  · intro value
    exact Value.equals_self_iff
  · intro left right hequal
    exact (Value.agree_of_equals hequal).typeName

end Kestrel
