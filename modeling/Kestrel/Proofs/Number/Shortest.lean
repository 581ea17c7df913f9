import Kestrel.Number.Shortest
import Mathlib.Algebra.Order.Field.Power
import Mathlib.Algebra.Order.Field.Rat
import Mathlib.Data.Rat.Cast.Order
import Mathlib.Tactic.Linarith
import Mathlib.Tactic.Positivity
import Mathlib.Tactic.Ring

/-!
# Doubles by their shortest decimals

The reals that are read as a double lie in its reading range. The ranges of two doubles have no real
in common: where they touch, one of the mantissas is odd. The shortest decimal is found on one of
the grids that are tried, as the finest one is finer than the range, and it lies in the range. So a
double is known by its shortest decimal.
-/

namespace Kestrel

/-- The rational number that a decimal denotes. -/
def Decimal.value (decimal : Decimal) : ℚ := decimal.digits * 10 ^ decimal.exponent

/-- A natural power is an integer one, up to the power for a negative exponent. -/
theorem natPow_toNat (base : Nat) (hbase : 0 < base) (exponent : Int) :
    ((base ^ exponent.toNat : Nat) : ℚ) =
      (base : ℚ) ^ exponent * ((base ^ (-exponent).toNat : Nat) : ℚ) := by
  have hne : (base : ℚ) ≠ 0 := by positivity
  rw [Nat.cast_pow, Nat.cast_pow, ← zpow_natCast, ← zpow_natCast, ← zpow_add₀ hne]
  congr 1
  omega

namespace ReadingRange

/-- The size of a quarter of a unit in the last place. -/
def quarter (range : ReadingRange) : ℚ := 2 ^ range.exponent

/-- A rational number lies in the range; the ends only belong to it if it is inclusive. -/
structure Holds (range : ReadingRange) (x : ℚ) : Prop where
  low_le : range.low * range.quarter ≤ x
  le_high : x ≤ range.high * range.quarter
  inside : range.inclusive = false → range.low * range.quarter ≠ x ∧ x ≠ range.high * range.quarter

variable {range : ReadingRange} {grid : Int} {point : Nat}

/-- Both counts are the sizes that they stand for, in a common fraction. -/
theorem coarse_fine_eq (range : ReadingRange) (grid : Int) :
    ∃ scale : ℚ, 0 < scale ∧ (range.coarse grid : ℚ) = 10 ^ grid * scale ∧
      (range.fine grid : ℚ) = range.quarter * scale := by
  have hten := natPow_toNat 10 (by decide) grid
  have htwo := natPow_toNat 2 (by decide) range.exponent
  refine ⟨((10 ^ (-grid).toNat : Nat) : ℚ) * ((2 ^ (-range.exponent).toNat : Nat) : ℚ), ?_, ?_, ?_⟩
  · positivity
  · change ((10 ^ grid.toNat * 2 ^ (-range.exponent).toNat : Nat) : ℚ) = _
    rw [Nat.cast_mul, hten]
    push_cast
    ring
  · change ((2 ^ range.exponent.toNat * 10 ^ (-grid).toNat : Nat) : ℚ) = _
    rw [Nat.cast_mul, htwo]
    unfold quarter
    push_cast
    ring

/-- The exact comparisons find out whether a point of a grid lies in the range. -/
theorem holds_iff : range.holds grid point = true ↔ range.Holds (point * 10 ^ grid) := by
  obtain ⟨scale, hscale, hcoarse, hfine⟩ := range.coarse_fine_eq grid
  have hplace (bound : Nat) : ((bound * range.fine grid : Nat) : ℚ) =
      bound * range.quarter * scale := by
    rw [Nat.cast_mul, hfine, mul_assoc]
  have hpoint : ((point * range.coarse grid : Nat) : ℚ) = point * 10 ^ grid * scale := by
    rw [Nat.cast_mul, hcoarse, mul_assoc]
  have hle_point (bound : Nat) : bound * range.fine grid ≤ point * range.coarse grid ↔
      bound * range.quarter ≤ point * 10 ^ grid := by
    rw [← Nat.cast_le (α := ℚ), hplace, hpoint, mul_le_mul_iff_left₀ hscale]
  have hpoint_le (bound : Nat) : point * range.coarse grid ≤ bound * range.fine grid ↔
      point * 10 ^ grid ≤ bound * range.quarter := by
    rw [← Nat.cast_le (α := ℚ), hplace, hpoint, mul_le_mul_iff_left₀ hscale]
  unfold holds
  dsimp only
  split
  · next hinclusive =>
    rw [Bool.and_eq_true, decide_eq_true_iff, decide_eq_true_iff, hle_point, hpoint_le]
    constructor
    · rintro ⟨hlow, hhigh⟩
      exact ⟨hlow, hhigh, fun hexclusive => by simp [hinclusive] at hexclusive⟩
    · rintro ⟨hlow, hhigh, -⟩
      exact ⟨hlow, hhigh⟩
  · next hexclusive =>
    rw [Bool.and_eq_true, decide_eq_true_iff, decide_eq_true_iff, ← not_le, ← not_le, hle_point,
      hpoint_le, not_le, not_le]
    constructor
    · rintro ⟨hlow, hhigh⟩
      exact ⟨hlow.le, hhigh.le, fun _ => ⟨hlow.ne, hhigh.ne⟩⟩
    · rintro ⟨hlow, hhigh, hinside⟩
      obtain ⟨hlow', hhigh'⟩ := hinside (by simpa using hexclusive)
      exact ⟨lt_of_le_of_ne hlow hlow', lt_of_le_of_ne hhigh hhigh'⟩

/-- What is nearest on a grid lies in the range. -/
theorem holds_of_nearest? (hnearest : range.nearest? grid = some point) :
    range.Holds (point * 10 ^ grid) := by
  rw [← holds_iff]
  unfold nearest? at hnearest
  dsimp only at hnearest
  split at hnearest
  · cases hnearest
  · next hbelow _ =>
    cases hnearest
    exact hbelow
  · next habove =>
    cases hnearest
    exact habove
  · next hbelow habove =>
    split at hnearest
    · cases hnearest
      exact hbelow
    · cases hnearest
      exact habove

/-- A grid with steps of no more than a quarter has a point in the range, right below the value. -/
theorem isSome_nearest? (hlow : range.low < range.value) (hhigh : range.value < range.high)
    (hsteps : range.coarse grid ≤ range.fine grid) : (range.nearest? grid).isSome := by
  have hfine : 0 < range.fine grid := by
    change 0 < 2 ^ range.exponent.toNat * 10 ^ (-grid).toNat
    positivity
  have hcoarse : 0 < range.coarse grid := by
    change 0 < 10 ^ grid.toNat * 2 ^ (-range.exponent).toNat
    positivity
  have hbelow : range.holds grid (range.value * range.fine grid / range.coarse grid) = true := by
    have hlow' : range.low * range.fine grid + range.fine grid ≤ range.value * range.fine grid := by
      rw [← Nat.succ_mul]
      exact Nat.mul_le_mul_right _ hlow
    have hhigh' : range.value * range.fine grid < range.high * range.fine grid :=
      Nat.mul_lt_mul_of_pos_right hhigh hfine
    have hle := Nat.div_mul_le_self (range.value * range.fine grid) (range.coarse grid)
    have hlt := Nat.lt_div_mul_add hcoarse (a := range.value * range.fine grid)
    unfold holds
    dsimp only
    split <;> simp only [Bool.and_eq_true, decide_eq_true_eq] <;> omega
  unfold nearest?
  dsimp only
  rw [hbelow]
  split
  · next hfalse _ => cases hfalse
  · rfl
  · rfl
  · split <;> rfl

end ReadingRange

/-- The estimate of a decimal exponent by a binary one is never much too large: with fewer than some
thousand bits it is off by less than one bit. -/
theorem tenPow_estimate_le {bits : Int} (hsmall : -4000 ≤ bits) (hlarge : bits ≤ 4000) :
    (10 : ℚ) ^ (bits * 30103 / 100000) ≤ 2 ^ (bits + 1) := by
  have hestimate := Int.ediv_mul_le (bits * 30103) (show (100000 : Int) ≠ 0 by decide)
  generalize bits * 30103 / 100000 = estimate at hestimate
  rcases lt_or_ge estimate 0 with hneg | hpos
  · obtain ⟨k, rfl⟩ : ∃ k : Nat, estimate = -k := ⟨estimate.natAbs, by omega⟩
    rcases le_or_gt 0 (bits + 1) with hbits | hbits
    · calc (10 : ℚ) ^ (-k : Int) ≤ 1 := zpow_le_one_of_nonpos₀ (by norm_num) (by omega)
        _ ≤ 2 ^ (bits + 1) := one_le_zpow₀ (by norm_num) hbits
    · obtain ⟨n, hn⟩ : ∃ n : Nat, bits + 1 = -n := ⟨(bits + 1).natAbs, by omega⟩
      -- `2 ^ 93` is a little less than `10 ^ 28`.
      have hpowers : 2 ^ n ≤ 10 ^ k := by
        refine le_of_pow_le_pow_left₀ (n := 93) (by decide) (by positivity) ?_
        calc (2 ^ n) ^ 93 = (2 ^ 93) ^ n := by rw [← pow_mul, ← pow_mul, mul_comm]
          _ ≤ (10 ^ 28) ^ n := Nat.pow_le_pow_left (by norm_num) n
          _ = 10 ^ (28 * n) := by rw [← pow_mul]
          _ ≤ 10 ^ (k * 93) := Nat.pow_le_pow_right (by decide) (by omega)
          _ = (10 ^ k) ^ 93 := by rw [← pow_mul]
      rw [hn, zpow_neg, zpow_neg, zpow_natCast, zpow_natCast]
      exact inv_anti₀ (by positivity) (by exact_mod_cast hpowers)
  · obtain ⟨k, rfl⟩ : ∃ k : Nat, estimate = k := ⟨estimate.toNat, by omega⟩
    obtain ⟨n, hn⟩ : ∃ n : Nat, bits + 1 = n := ⟨(bits + 1).toNat, by omega⟩
    -- `10 ^ 59` is a little less than `2 ^ 196`.
    have hpowers : 10 ^ k ≤ 2 ^ n := by
      refine le_of_pow_le_pow_left₀ (n := 59) (by decide) (by positivity) ?_
      calc (10 ^ k) ^ 59 = (10 ^ 59) ^ k := by rw [← pow_mul, ← pow_mul, mul_comm]
        _ ≤ (2 ^ 196) ^ k := Nat.pow_le_pow_left (by norm_num) k
        _ = 2 ^ (196 * k) := by rw [← pow_mul]
        _ ≤ 2 ^ (n * 59) := Nat.pow_le_pow_right (by decide) (by omega)
        _ = (2 ^ n) ^ 59 := by rw [← pow_mul]
    rw [hn, zpow_natCast, zpow_natCast]
    exact_mod_cast hpowers

/-- The mantissa and the exponent of a finite double. -/
structure Binary.IsParts (mantissa : Nat) (exponent : Int) : Prop where
  lt : mantissa < 2 ^ 53
  least : Binary.leastExponent ≤ exponent
  greatest : exponent ≤ 971
  /-- Only the smallest exponent has mantissas without a leading one. -/
  leading : Binary.leastExponent < exponent → 2 ^ 52 ≤ mantissa

section Doubles

variable {m n : Nat} {e f : Int} {x : ℚ}

/-- The finest of the grids that are tried has steps of no more than a quarter. -/
theorem coarse_le_fine_of_finest (hparts : Binary.IsParts m e) (hm : 0 < m) :
    ∃ grid ∈ decimalGrids m e,
      (ReadingRange.ofDouble m e).coarse grid ≤ (ReadingRange.ofDouble m e).fine grid := by
  have hlog : m.log2 < 53 := (Nat.log2_lt hm.ne').mpr hparts.lt
  have hleast := hparts.least
  have hgreatest := hparts.greatest
  unfold Binary.leastExponent at hleast
  refine ⟨(e + (m.log2 + 1 : Nat)) * 30103 / 100000 + 1 - (20 : Nat), ?_, ?_⟩
  · exact List.mem_map.mpr ⟨20, by simp, rfl⟩
  · generalize hbits : e + ((m.log2 + 1 : Nat) : Int) = bits
    have hestimate := @tenPow_estimate_le bits (by omega) (by omega)
    have hsteps : (10 : ℚ) ^ (bits * 30103 / 100000 + 1 - (20 : Nat)) ≤ 2 ^ (e - 2) := by
      calc (10 : ℚ) ^ (bits * 30103 / 100000 + 1 - ((20 : Nat) : Int))
          = 10 ^ (bits * 30103 / 100000) * 10 ^ (-19 : Int) := by
            rw [← zpow_add₀ (by norm_num)]
            congr 1
            omega
        _ ≤ 2 ^ (bits + 1) * 2 ^ (-63 : Int) :=
            mul_le_mul hestimate (by norm_num) (by positivity) (by positivity)
        _ = 2 ^ (bits + 1 + -63) := (zpow_add₀ (by norm_num) _ _).symm
        _ ≤ 2 ^ (e - 2) := zpow_le_zpow_right₀ (by norm_num) (by omega)
    obtain ⟨scale, hscale, hcoarse, hfine⟩ := (ReadingRange.ofDouble m e).coarse_fine_eq
      (bits * 30103 / 100000 + 1 - (20 : Nat))
    rw [← Nat.cast_le (α := ℚ), hcoarse, hfine]
    exact mul_le_mul_of_nonneg_right hsteps hscale.le

/-- The shortest decimal is read as the double. -/
theorem holds_shortest (hparts : Binary.IsParts m e) (hm : 0 < m) :
    (ReadingRange.ofDouble m e).Holds (Decimal.shortest m e).value := by
  obtain ⟨grid, hgrid, hsteps⟩ := coarse_le_fine_of_finest hparts hm
  have hlow : (ReadingRange.ofDouble m e).low < (ReadingRange.ofDouble m e).value := by
    change 4 * m - (if _ then 1 else 2) < 4 * m
    split <;> omega
  have hhigh : (ReadingRange.ofDouble m e).value < (ReadingRange.ofDouble m e).high :=
    Nat.lt_add_of_pos_right (by decide)
  have hsome := ReadingRange.isSome_nearest? hlow hhigh hsteps
  let found := (decimalGrids m e).findSome? fun grid =>
    ((ReadingRange.ofDouble m e).nearest? grid).map fun digits => (⟨digits, grid⟩ : Decimal)
  have hfound : found.isSome := List.findSome?_isSome_iff.mpr ⟨grid, hgrid, by simpa using hsome⟩
  obtain ⟨decimal, hdecimal⟩ := Option.isSome_iff_exists.mp hfound
  have hshortest : Decimal.shortest m e = decimal := by
    change found.getD default = decimal
    rw [hdecimal, Option.getD_some]
  obtain ⟨grid, -, hmade⟩ := List.exists_of_findSome?_eq_some hdecimal
  obtain ⟨digits, hnearest, rfl⟩ := Option.map_eq_some_iff.mp hmade
  rw [hshortest]
  exact ReadingRange.holds_of_nearest? hnearest

/-- A number in the range of a double is no larger than the middle between the double and the next
one, and is this middle only if the mantissa is even. -/
theorem le_of_holds (hholds : (ReadingRange.ofDouble m e).Holds x) :
    x ≤ (4 * m + 2) * 2 ^ (e - 2) ∧ (x = (4 * m + 2) * 2 ^ (e - 2) → m % 2 = 0) := by
  have hhigh : (((ReadingRange.ofDouble m e).high : Nat) : ℚ) *
      (ReadingRange.ofDouble m e).quarter = (4 * m + 2) * 2 ^ (e - 2) := by
    change ((4 * m + 2 : Nat) : ℚ) * 2 ^ (e - 2) = _
    push_cast
    rfl
  refine ⟨hhigh ▸ hholds.le_high, fun hend => ?_⟩
  by_contra hodd
  have hinclusive : (ReadingRange.ofDouble m e).inclusive = false := by
    change (m % 2 == 0) = false
    simpa using hodd
  exact (hholds.inside hinclusive).2 (hend.trans hhigh.symm)

/-- A number in the range of a double is no smaller than the middle between the double and the one
before it, and is this middle only if the mantissa is even. Below a power of two the doubles are
twice as close. -/
theorem ge_of_holds (hholds : (ReadingRange.ofDouble n f).Holds x) (hn : 0 < n) :
    (4 * n - if n = 2 ^ 52 ∧ Binary.leastExponent < f then 1 else 2) * 2 ^ (f - 2) ≤ x ∧
      (x = (4 * n - if n = 2 ^ 52 ∧ Binary.leastExponent < f then 1 else 2) * 2 ^ (f - 2) →
        n % 2 = 0) := by
  have hlow : (((ReadingRange.ofDouble n f).low : Nat) : ℚ) *
      (ReadingRange.ofDouble n f).quarter =
      (4 * n - if n = 2 ^ 52 ∧ Binary.leastExponent < f then 1 else 2) * 2 ^ (f - 2) := by
    change ((4 * n - (if n = 2 ^ 52 ∧ Binary.leastExponent < f then 1 else 2) : Nat) : ℚ) *
      2 ^ (f - 2) = _
    rw [Nat.cast_sub (by split <;> omega)]
    push_cast
    rfl
  refine ⟨hlow ▸ hholds.low_le, fun hend => ?_⟩
  by_contra hodd
  have hinclusive : (ReadingRange.ofDouble n f).inclusive = false := by
    change (n % 2 == 0) = false
    simpa using hodd
  exact (hholds.inside hinclusive).1 (hlow.trans hend.symm)

/-- Of two doubles with one exponent, the ranges have no number in common. -/
theorem not_holds_of_mantissa_lt (hfirst : Binary.IsParts m e) (hlt : m < n)
    (hm : (ReadingRange.ofDouble m e).Holds x) : ¬ (ReadingRange.ofDouble n e).Holds x := by
  intro hn
  obtain ⟨hhigh, hhigh'⟩ := le_of_holds hm
  obtain ⟨hlow, hlow'⟩ := ge_of_holds hn (by omega)
  have hpower : ¬ (n = 2 ^ 52 ∧ Binary.leastExponent < e) := by
    rintro ⟨rfl, hexponent⟩
    exact absurd (hfirst.leading hexponent) (by omega)
  rw [if_neg hpower] at hlow hlow'
  have hquarter : (0 : ℚ) < 2 ^ (e - 2) := zpow_pos (by norm_num) _
  have hnext : n = m + 1 := by
    have hle := (mul_le_mul_iff_left₀ hquarter).mp (hlow.trans hhigh)
    have hle' : (4 * n : ℚ) ≤ ((4 * m + 4 : Nat) : ℚ) := by
      push_cast
      linarith
    have hbound : 4 * n ≤ 4 * m + 4 := by exact_mod_cast hle'
    omega
  -- The two ranges touch in the middle, which one of the mantissas does not admit.
  subst hnext
  have hsame : ((4 * ((m + 1 : Nat) : ℚ) - 2) * 2 ^ (e - 2) : ℚ) = (4 * m + 2) * 2 ^ (e - 2) := by
    push_cast
    ring
  have hmiddle : x = (4 * m + 2) * 2 ^ (e - 2) := le_antisymm hhigh (hsame ▸ hlow)
  have hfirst' := hhigh' hmiddle
  have hsecond := hlow' (hmiddle.trans hsame.symm)
  omega

/-- Of two doubles with different exponents, the ranges have no number in common. -/
theorem not_holds_of_exponent_lt (hfirst : Binary.IsParts m e) (hsecond : Binary.IsParts n f)
    (hlt : e < f) (hm : (ReadingRange.ofDouble m e).Holds x) :
    ¬ (ReadingRange.ofDouble n f).Holds x := by
  intro hn
  have hf : Binary.leastExponent < f := lt_of_le_of_lt hfirst.least hlt
  have hleading := hsecond.leading hf
  obtain ⟨hhigh, hhigh'⟩ := le_of_holds hm
  obtain ⟨hlow, -⟩ := ge_of_holds hn (by omega)
  have hquarter : (0 : ℚ) < 2 ^ (e - 2) := zpow_pos (by norm_num) _
  have hsplit : (2 : ℚ) ^ (f - 2) = 2 ^ (f - e) * 2 ^ (e - 2) := by
    rw [← zpow_add₀ (by norm_num)]
    congr 1
    omega
  have htwice : (2 : ℚ) ≤ 2 ^ (f - e) := by
    calc (2 : ℚ) = 2 ^ (1 : Int) := (zpow_one 2).symm
      _ ≤ 2 ^ (f - e) := zpow_le_zpow_right₀ (by norm_num) (by omega)
  have hlargest : (m : ℚ) + 1 ≤ 2 ^ 53 := by exact_mod_cast hfirst.lt
  rw [hsplit, ← mul_assoc] at hlow
  have hbetween := (mul_le_mul_iff_left₀ hquarter).mp (hlow.trans hhigh)
  by_cases hpower : n = 2 ^ 52
  · -- The ranges touch in the middle only after the largest mantissa, which is odd.
    rw [if_pos ⟨hpower, hf⟩, hpower] at hlow hbetween
    have hleast : (2 : ℚ) ^ 55 - 2 ≤ (4 * ((2 ^ 52 : Nat) : ℚ) - 1) * 2 ^ (f - e) := by
      push_cast
      linarith
    have hmiddle : x = (4 * m + 2) * 2 ^ (e - 2) := by
      refine le_antisymm hhigh ((mul_le_mul_of_nonneg_right ?_ hquarter.le).trans hlow)
      linarith
    have hmantissa : (m : ℚ) + 1 = 2 ^ 53 := by linarith
    have hodd : m + 1 = 2 ^ 53 := by exact_mod_cast hmantissa
    have heven := hhigh' hmiddle
    omega
  · rw [if_neg fun h => hpower h.1] at hbetween
    have hnext : (2 : ℚ) ^ 52 + 1 ≤ n := by
      have hnext : 2 ^ 52 + 1 ≤ n := by omega
      exact_mod_cast hnext
    have hdouble : (4 * n - 2 : ℚ) * 2 ≤ (4 * n - 2) * 2 ^ (f - e) :=
      mul_le_mul_of_nonneg_left htwice (by linarith)
    linarith

/-- A number is read as one double only. -/
theorem parts_eq_of_holds (hfirst : Binary.IsParts m e) (hsecond : Binary.IsParts n f)
    (hm : (ReadingRange.ofDouble m e).Holds x) (hn : (ReadingRange.ofDouble n f).Holds x) :
    m = n ∧ e = f := by
  rcases lt_trichotomy e f with hlt | rfl | hlt
  · exact absurd hn (not_holds_of_exponent_lt hfirst hsecond hlt hm)
  · rcases lt_trichotomy m n with hlt | rfl | hlt
    · exact absurd hn (not_holds_of_mantissa_lt hfirst hlt hm)
    · exact ⟨rfl, rfl⟩
    · exact absurd hm (not_holds_of_mantissa_lt hsecond hlt hn)
  · exact absurd hm (not_holds_of_exponent_lt hsecond hfirst hlt hn)

/-- A double is not zero if its shortest decimal is read as it. -/
theorem pos_of_holds (hm : 0 < m) (hholds : (ReadingRange.ofDouble m e).Holds x) : 0 < x := by
  obtain ⟨hlow, -⟩ := ge_of_holds hholds hm
  have hquarter : (0 : ℚ) < 2 ^ (e - 2) := zpow_pos (by norm_num) _
  have hone : (1 : ℚ) ≤ m := by exact_mod_cast hm
  refine lt_of_lt_of_le (mul_pos ?_ hquarter) hlow
  split <;> linarith

end Doubles

end Kestrel
