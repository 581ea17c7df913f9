import Kestrel.Proofs.Discipline.Statement

/-!
# The names of scopes

Evaluating changes what names are bound to, and nothing else about the scopes that are there: an
expression leaves the names of each of them as they are, in their order, and a statement adds at
most the one name that it declares, at the end of the scope that it is carried out in. All other
names that come up while the evaluation goes on are names of scopes that it makes.
-/

namespace Kestrel

/-- Of a scope, the names stay as they are, or a name that it may get has come at the end. -/
def KeepsNames (may : String → Prop) (before after : OrderedMap Value) : Prop :=
  after.keys = before.keys ∨
    ∃ name, may name ∧ name ∉ before.keys ∧ after.keys = before.keys ++ [name]

namespace KeepsNames

variable {may : String → Prop} {first second third : OrderedMap Value}

/-- The names can stay as they are. -/
theorem refl (bindings : OrderedMap Value) : KeepsNames may bindings bindings := .inl rfl

/-- If at most one name may come, it does not come twice. -/
theorem trans (hone : ∀ name other, may name → may other → name = other)
    (hfirst : KeepsNames may first second) (hsecond : KeepsNames may second third) :
    KeepsNames may first third := by
  rcases hfirst with hfirst | ⟨name, hmay, hnew, hfirst⟩
  · unfold KeepsNames at hsecond ⊢
    rwa [hfirst] at hsecond
  · right
    refine ⟨name, hmay, hnew, ?_⟩
    rcases hsecond with hsecond | ⟨other, hother, hnotMem, _⟩
    · exact hsecond.trans hfirst
    · rw [hone other name hother hmay, hfirst] at hnotMem
      simp at hnotMem

/-- A name that is bound keeps its place, and one that is not comes at the end. -/
theorem of_insert {bindings : OrderedMap Value} {name : String}
    (hname : may name ∨ bindings.contains name) (value : Value) :
    KeepsNames may bindings (bindings.insert name value) := by
  unfold KeepsNames
  rw [OrderedMap.keys_insert]
  by_cases hmem : name ∈ bindings.keys
  · rw [if_pos hmem]
    exact .inl rfl
  · rw [if_neg hmem]
    refine .inr ⟨name, hname.resolve_right fun hcontains => ?_, hmem, rfl⟩
    exact hmem (OrderedMap.contains_iff.mp hcontains)

end KeepsNames

namespace Discipline

/-- The discipline of names: of the first scopes, so many as are given, only one may get a new name,
and this name only. -/
def names (count : Nat) (ref? : Option (Ref .scope)) (name? : Option String) : Discipline where
  holds store := count ≤ store.size .scope
  admits _ _ := True
  binds ref name := ref.index < count → ref? = some ref ∧ name? = some name
  allows before after := ∀ ref : Ref .scope, ref.index < count →
    KeepsNames (fun name => ref? = some ref ∧ name? = some name) (before.get ref) (after.get ref)
  allows_refl store ref _ := .refl (store.get ref)
  allows_trans hfirst hsecond ref hlt := by
    refine KeepsNames.trans ?_ (hfirst ref hlt) (hsecond ref hlt)
    rintro name other ⟨_, hname⟩ ⟨_, hother⟩
    rw [hname] at hother
    cases hother
    rfl
  admits_later _ _ := trivial
  admits_held _ _ _ := trivial
  add {store kind content} hcount _ _ _ := by
    have hsize := store.size_le_size_add kind .scope content
    refine ⟨⟨Nat.le_trans hcount hsize, fun ref hlt => ?_⟩, trivial⟩
    rw [Store.get_add_of_lt (Nat.lt_of_lt_of_le hlt hcount)]
    exact .refl _
  binds_next _ hcount hlt := absurd hlt (Nat.not_lt.mpr hcount)
  modify {store kind ref f} hcount hscope _ _ _ _ := by
    rw [← store.size_modify ref f .scope] at hcount
    refine ⟨hcount, fun other _ => ?_⟩
    rw [Store.get_modify_of_ne fun hkind => absurd hkind.symm hscope]
    exact .refl _
  rebind {store ref name value} hcount _ hname _ := by
    have hafter := store.size_modify ref
      (fun (bindings : OrderedMap Value) => bindings.insert name value) .scope
    refine ⟨Nat.le_trans hcount (Nat.le_of_eq hafter.symm), fun other hlt => ?_⟩
    unfold Scope.rebind
    by_cases hsame : other = ref
    · subst hsame
      rw [Store.get_modify_self (Nat.lt_of_lt_of_le hlt hcount)]
      exact .of_insert (hname.imp_left fun hbinds => hbinds hlt) value
    · rw [Store.get_modify_of_ne fun _ hindex => hsame (Ref.eq_of_index_eq hindex)]
      exact .refl _
  record {store imports target importer graph} hcount _ _ _ := by
    rw [← store.size_modify imports (fun _ => graph) .scope] at hcount
    refine ⟨⟨hcount, fun other _ => ?_⟩, trivial⟩
    rw [Store.get_modify_of_ne (by simp)]
    exact .refl _

end Discipline

/-- However an expression ends, every scope that was there has the names that it had, in their
order. However a statement ends, so does every scope but the one that it was carried out in, and
this one has the names that it had, followed at most by the one name that the statement declares. -/
theorem names_stay_or_declared (host : Host) (steps : Nat) :
    (∀ scope expression state after,
      (evaluateExpression host (.ofSteps host steps) scope expression state).after? = some after →
        state.store.size .scope ≤ after.store.size .scope ∧
        ∀ ref : Ref .scope, ref.index < state.store.size .scope →
          (after.store.get ref).keys = (state.store.get ref).keys) ∧
    ∀ scope statement state after,
      (executeStatement host (.ofSteps host steps) scope statement state).after? = some after →
        state.store.size .scope ≤ after.store.size .scope ∧
        ∀ ref : Ref .scope, ref.index < state.store.size .scope →
          (after.store.get ref).keys = (state.store.get ref).keys ∨
            ref = scope.here ∧ ∃ name, statement.form.declaredName? = some name ∧
              name ∉ (state.store.get ref).keys ∧
              (after.store.get ref).keys = (state.store.get ref).keys ++ [name] := by
  constructor
  · intro scope expression state after hafter
    let D := Discipline.names (state.store.size .scope) none none
    have htrusts := D.trusts_ofSteps host steps
    have hknows : D.Knows state.store scope := fun _ _ => trivial
    have hobeys := (Discipline.Respects.evaluateExpression htrusts hknows host expression).obeys
    obtain ⟨hsize, hallows⟩ := (hobeys (Nat.le_refl _)).passes hafter
    refine ⟨hsize, fun ref hlt => (hallows ref hlt).resolve_right ?_⟩
    rintro ⟨name, ⟨⟨⟩, _⟩, _⟩
  · intro scope statement state after hafter
    let D := Discipline.names (state.store.size .scope) (some scope.here)
      statement.form.declaredName?
    have htrusts := D.trusts_ofSteps host steps
    have hknows : D.Knows state.store scope := fun _ _ => trivial
    have hbinds : ∀ name, statement.form.declaredName? = some name → D.binds scope.here name :=
      fun name hname _ => ⟨rfl, hname⟩
    have hobeys := (Discipline.Respects.executeForm htrusts hknows hbinds host).obeys
    rw [executeStatement_apply, Result.after?_settled] at hafter
    obtain ⟨hsize, hallows⟩ := (hobeys (Nat.le_refl _)).passes hafter
    refine ⟨hsize, fun ref hlt => (hallows ref hlt).imp_right ?_⟩
    rintro ⟨name, ⟨hhere, hname⟩, hnew, hkeys⟩
    exact ⟨(Option.some.inj hhere).symm, name, hname, hnew, hkeys⟩

/-- A declaration of a name for what a call gives. The function declares a name of its own and
assigns to one outside; in the scope of the declaration there is one more name in the end. -/
theorem names_declared_after_call :
    let part (form : ExpressionForm) : Expression := ⟨form, default⟩
    let own : Statement := ⟨.var ⟨"own", default⟩ (part .nothing) default, default⟩
    let assigned : Statement :=
      ⟨.assignment (part (.identifier "count")) .assign (part (.identifier "own")) default, default⟩
    let called := part (.call (part (.function [] ⟨[own, assigned], default⟩)) [])
    let statement : Statement := ⟨.var ⟨"total", default⟩ called default, default⟩
    let host : Host := ⟨false, .fromMemory [], []⟩
    let bindings : OrderedMap Value := .ofList [("count", .bool true)]
    let state : State := { (default : State) with store := Store.empty.add .scope bindings }
    let scope : Scope := ⟨⟨0⟩, [], "main", ⟨0⟩⟩
    ∃ after, (executeStatement host (.ofSteps host 9) scope statement state).after? = some after ∧
      scope.here.index < state.store.size .scope ∧
      (after.store.get scope.here).keys = ["count", "total"] ∧
      ((after.store.get scope.here).keys = (state.store.get scope.here).keys ∨
        ∃ name, statement.form.declaredName? = some name ∧
          name ∉ (state.store.get scope.here).keys ∧
          (after.store.get scope.here).keys = (state.store.get scope.here).keys ++ [name]) := by
  intro part own assigned called statement host bindings state scope
  obtain ⟨after, hafter, hkeys⟩ : ∃ after,
      (executeStatement host (.ofSteps host 9) scope statement state).after? = some after ∧
        (after.store.get scope.here).keys = ["count", "total"] :=
    ⟨_, rfl, rfl⟩
  have hlt : scope.here.index < state.store.size .scope := by decide
  obtain ⟨_, hnames⟩ := (names_stay_or_declared host 9).2 scope statement state after hafter
  exact ⟨after, hafter, hlt, hkeys, (hnames scope.here hlt).imp_right And.right⟩

end Kestrel
