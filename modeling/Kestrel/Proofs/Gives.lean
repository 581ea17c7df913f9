/-!
# What an outcome gives

An outcome is a value or a failure. A statement of the form "if there is a value, it is like this"
is followed through the steps that an outcome is made of, so that failures need no words. A
statement about failures is followed in the same way.
-/

namespace Kestrel

/-- If an outcome is a value, something holds of it. -/
def Gives {ε α : Type} (outcome : Except ε α) (property : α → Prop) : Prop :=
  ∀ made, outcome = .ok made → property made

section Gives

variable {ε α β : Type} {property : β → Prop}

@[simp] theorem gives_ok {made : β} : Gives (.ok made : Except ε β) property ↔ property made := by
  simp [Gives]

@[simp] theorem gives_pure {made : β} : Gives (pure made : Except ε β) property ↔ property made :=
  gives_ok

@[simp] theorem gives_error {cause : ε} : Gives (.error cause) property := by
  rintro made ⟨⟩

/-- What is given after a first outcome is given if the first one was a value. -/
@[simp] theorem gives_bind {first : Except ε α} {next : α → Except ε β} :
    Gives (first >>= next) property ↔ Gives first fun made => Gives (next made) property := by
  cases first with
  | ok made => simp [bind, Except.bind]
  | error cause => simp [bind, Except.bind]

/-- What is made out of an outcome is given if the outcome was a value. -/
@[simp] theorem gives_map {outcome : Except ε α} {f : α → β} :
    Gives (f <$> outcome) property ↔ Gives outcome fun made => property (f made) := by
  cases outcome with
  | ok made => simp [Functor.map, Except.map]
  | error cause => simp [Functor.map, Except.map]

/-- An outcome is the same value with another account of failures. -/
theorem mapError_eq_ok_iff {ε' : Type} {outcome : Except ε β} {f : ε → ε'} {made : β} :
    outcome.mapError f = .ok made ↔ outcome = .ok made := by
  cases outcome with
  | ok made' => constructor <;> (rintro ⟨⟩; rfl)
  | error cause => constructor <;> rintro ⟨⟩

/-- Another account of a failure changes nothing about what is given. -/
@[simp] theorem gives_mapError {ε' : Type} {outcome : Except ε β} {f : ε → ε'} :
    Gives (outcome.mapError f) property ↔ Gives outcome property :=
  forall_congr' fun _ => imp_congr_left mapError_eq_ok_iff

/-- Of an outcome that nothing is asked of. -/
@[simp] theorem gives_true {outcome : Except ε β} : Gives outcome fun _ => True :=
  fun _ _ => trivial

/-- What follows from what is given is given too. -/
theorem Gives.mono {outcome : Except ε β} {weaker : β → Prop} (hgiven : Gives outcome property)
    (hfollows : ∀ made, property made → weaker made) : Gives outcome weaker :=
  fun made hok => hfollows made (hgiven made hok)

/-- Goes on from what a first outcome gives. -/
theorem Gives.bind {first : Except ε α} {given : α → Prop} {next : α → Except ε β}
    (hfirst : Gives first given) (hnext : ∀ made, given made → Gives (next made) property) :
    Gives (first >>= next) property :=
  gives_bind.mpr (hfirst.mono hnext)

/-- Of several items each one gives something. -/
theorem gives_mapM {read : α → Except ε β} {items : List α}
    (hone : ∀ item ∈ items, Gives (read item) property) :
    Gives (items.mapM read) fun made =>
      (∀ result ∈ made, property result) ∧ made.length = items.length := by
  induction items with
  | nil => simp
  | cons item items ih =>
    obtain ⟨hitem, hitems⟩ := List.forall_mem_cons.mp hone
    rw [List.mapM_cons]
    refine hitem.bind fun first hfirst => (ih hitems).bind fun others hothers => ?_
    exact gives_pure.mpr ⟨List.forall_mem_cons.mpr ⟨hfirst, hothers.1⟩, congrArg (· + 1) hothers.2⟩

/-- Several items are taken in one after the other, and what was made so far stays good. -/
theorem gives_foldlM {take : β → α → Except ε β} {items : List α} {start : β}
    (hfirst : property start)
    (hone : ∀ made, property made → ∀ item ∈ items, Gives (take made item) property) :
    Gives (items.foldlM take start) property := by
  induction items generalizing start with
  | nil => exact gives_pure.mpr hfirst
  | cons item items ih =>
    rw [List.foldlM_cons]
    refine (hone start hfirst item (List.mem_cons_self ..)).bind fun made hmade => ?_
    exact ih hmade fun made hmade item hitem => hone made hmade item (List.mem_cons_of_mem _ hitem)

end Gives

/-- An outcome that is a value. -/
theorem exists_of_isOk {ε α : Type} {outcome : Except ε α} (haccepted : outcome.isOk) :
    ∃ value, outcome = .ok value := by
  cases outcome with
  | ok value => exact ⟨value, rfl⟩
  | error cause => contradiction

/-- An outcome that is a failure. -/
theorem exists_of_not_isOk {ε α : Type} {outcome : Except ε α} (hrefused : outcome.isOk = false) :
    ∃ cause, outcome = .error cause := by
  cases outcome with
  | ok value => contradiction
  | error cause => exact ⟨cause, rfl⟩

/-- If an outcome is a failure, something holds of its cause. -/
def Fails {ε α : Type} (outcome : Except ε α) (property : ε → Prop) : Prop :=
  ∀ cause, outcome = .error cause → property cause

section Fails

variable {ε α β : Type} {property : ε → Prop}

@[simp] theorem fails_ok {made : α} : Fails (.ok made) property := by
  rintro cause ⟨⟩

@[simp] theorem fails_pure {made : α} : Fails (pure made) property := fails_ok

@[simp] theorem fails_error {cause : ε} :
    Fails (.error cause : Except ε α) property ↔ property cause := by
  simp [Fails]

/-- Two outcomes in a row fail as the first one does, or as the second one after a value. -/
@[simp] theorem fails_bind {first : Except ε α} {next : α → Except ε β} :
    Fails (first >>= next) property ↔
      Fails first property ∧ Gives first fun made => Fails (next made) property := by
  cases first with
  | ok made => simp [bind, Except.bind]
  | error cause => simp [bind, Except.bind]

/-- Goes on from a first outcome, whatever it gives. -/
theorem Fails.bind {first : Except ε α} {next : α → Except ε β} (hfirst : Fails first property)
    (hnext : ∀ made, Fails (next made) property) : Fails (first >>= next) property :=
  fails_bind.mpr ⟨hfirst, fun made _ => hnext made⟩

/-- What is made out of an outcome fails as the outcome does. -/
@[simp] theorem fails_map {outcome : Except ε α} {f : α → β} :
    Fails (f <$> outcome) property ↔ Fails outcome property := by
  cases outcome with
  | ok made => simp [Functor.map, Except.map]
  | error cause => simp [Functor.map, Except.map]

@[simp] theorem fails_exceptMap {outcome : Except ε α} {f : α → β} :
    Fails (outcome.map f) property ↔ Fails outcome property :=
  fails_map

/-- Several items in a row fail as one of them does. -/
theorem fails_mapM {read : α → Except ε β} {items : List α}
    (hone : ∀ item ∈ items, Fails (read item) property) : Fails (items.mapM read) property := by
  induction items with
  | nil => simp
  | cons item items ih =>
    obtain ⟨hitem, hitems⟩ := List.forall_mem_cons.mp hone
    simp [hitem, ih hitems]

end Fails

end Kestrel
