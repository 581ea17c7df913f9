import Mathlib.Data.Nat.Basic

/-!
# Equality of numbers

Two numbers are equal if they are the same double, or both zero; only what is not a number differs
from itself. Equality is symmetric and transitive on all doubles.
-/

namespace Kestrel

open Float.Model

/-- Exponents and mantissas compare as equal if they are the same. -/
theorem compare_parts_eq_iff {m n : Nat} {e f : Int} :
    (compare e f).then (compare m n) = .eq ↔ e = f ∧ m = n := by
  rw [Ordering.then_eq_eq, Std.compare_eq_iff_eq, Std.compare_eq_iff_eq]

/-- Doubles compare as equal if they are numbers, and the same one or both zero. -/
theorem compare_eq_iff {x y : UnpackedFloat} :
    x.compare y = some .eq ↔ x ≠ .notANumber ∧ (x = y ∨ ∃ s t, x = .zero s ∧ y = .zero t) := by
  constructor
  · intro hequal
    have hnumber : x ≠ .notANumber := by
      rintro rfl
      cases hequal
    refine ⟨hnumber, ?_⟩
    cases x with
    | notANumber => exact absurd rfl hnumber
    | infinity s =>
      cases y with
      | infinity t => cases s <;> cases t <;> first | exact .inl rfl | cases hequal
      | _ => cases s <;> cases hequal
    | zero s =>
      cases y with
      | zero t => exact .inr ⟨s, t, rfl, rfl⟩
      | notANumber => cases hequal
      | infinity t | finite t => cases t <;> cases hequal
    | finite s m e =>
      cases y with
      | finite t n f =>
        have hparts : s = t ∧ (compare e f).then (compare m n) = .eq := by
          cases s <;> cases t
          · exact ⟨rfl, Ordering.swap_eq_eq.mp (Option.some.inj hequal)⟩
          · cases hequal
          · cases hequal
          · exact ⟨rfl, Option.some.inj hequal⟩
        obtain ⟨rfl, hsame⟩ := hparts
        obtain ⟨rfl, rfl⟩ := compare_parts_eq_iff.mp hsame
        exact .inl rfl
      | notANumber => cases hequal
      | infinity t => cases s <;> cases t <;> cases hequal
      | zero t => cases s <;> cases hequal
  · rintro ⟨hnumber, rfl | ⟨s, t, rfl, rfl⟩⟩
    · cases x with
      | notANumber => exact absurd rfl hnumber
      | infinity s => cases s <;> rfl
      | zero s => rfl
      | finite s m e =>
        have hsame : (compare e e).then (compare m m) = .eq := compare_parts_eq_iff.mpr ⟨rfl, rfl⟩
        cases s
        · exact congrArg some (Ordering.swap_eq_eq.mpr hsame)
        · exact congrArg some hsame
    · rfl

variable {x y z : Float}

/-- Numbers are equal if they compare as equal when they are unpacked. -/
theorem float_beq_iff :
    (x == y) = true ↔ x.toModel.unpack.compare y.toModel.unpack = some .eq := by
  change (x.toModel.unpack.compare y.toModel.unpack == some .eq) = true ↔ _
  exact beq_iff_eq

/-- Numbers compare as equal in both orders. -/
theorem float_beq_symm (hxy : (x == y) = true) : (y == x) = true := by
  rw [float_beq_iff, compare_eq_iff] at hxy ⊢
  obtain ⟨hx, heq | ⟨s, t, hs, ht⟩⟩ := hxy
  · rw [← heq]
    exact ⟨hx, .inl rfl⟩
  · rw [hs, ht]
    exact ⟨by simp, .inr ⟨t, s, rfl, rfl⟩⟩

/-- Numbers that compare as equal to the same number compare as equal. -/
theorem float_beq_trans (hxy : (x == y) = true) (hyz : (y == z) = true) : (x == z) = true := by
  rw [float_beq_iff, compare_eq_iff] at hxy hyz ⊢
  obtain ⟨hx, heq | ⟨s, t, hs, ht⟩⟩ := hxy
  · rw [heq]
    exact hyz
  · refine ⟨hx, .inr ?_⟩
    obtain ⟨-, heq | ⟨_, u, -, hu⟩⟩ := hyz
    · exact ⟨s, t, hs, heq ▸ ht⟩
    · exact ⟨s, u, hs, hu⟩

/-- A number equals itself, unless it is none. -/
theorem float_beq_self_iff : (x == x) = true ↔ x.isNaN = false := by
  rw [float_beq_iff, compare_eq_iff]
  change _ ↔ x.toModel.unpack.isNaN = false
  cases x.toModel.unpack with
  | notANumber =>
    constructor
    · intro hnumber
      exact absurd rfl hnumber.1
    · intro hnumber
      cases hnumber
  | _ =>
    constructor
    · intro _
      rfl
    · intro _
      refine ⟨?_, .inl rfl⟩
      intro hnone
      cases hnone

end Kestrel
