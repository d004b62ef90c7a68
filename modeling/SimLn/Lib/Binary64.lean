import Mathlib.Data.Int.Log
import Mathlib.Algebra.Order.Round
import Mathlib.Data.Rat.Floor
import Mathlib.Tactic.Ring
import Mathlib.Tactic.NormNum
import Mathlib.Tactic.Linarith

/-!
# Rounding to binary64

In its normal range binary64 holds the rationals `m * 2 ^ e` with `m` an integer of at most 53
bits. `nearest x` is the one nearest to a non-negative `x`, ties going to the even significand;
the limits of the exponent are left out, so it is the IEEE rounding for every `x` whose exponent
lies between them.
-/

namespace SimLn.Lib.Binary64

/-- The nearest integer, a tie going to the even one. -/
def roundEven (x : ℚ) : ℤ :=
  if 2 * Int.fract x < 1 then ⌊x⌋
  else if 1 < 2 * Int.fract x then ⌊x⌋ + 1
  else if ⌊x⌋ % 2 = 0 then ⌊x⌋
  else ⌊x⌋ + 1

/-- The weight of the last of the 53 significant bits of `x`. -/
def ulp (x : ℚ) : ℚ := 2 ^ (Int.log 2 x - 52)

/-- The value of the format nearest to `x`. -/
def nearest (x : ℚ) : ℚ := roundEven (x / ulp x) * ulp x

@[simp] theorem roundEven_intCast (n : ℤ) : roundEven n = n := by
  simp [roundEven]

theorem ulp_ne_zero (x : ℚ) : ulp x ≠ 0 := zpow_ne_zero _ two_ne_zero

theorem nearest_zero : nearest 0 = 0 := by
  simp [nearest, roundEven]

/-- Multiplying by a power of two moves the leading bit by its exponent. -/
theorem log_natCast_mul_zpow {m : ℕ} (hm : m ≠ 0) (e : ℤ) :
    Int.log 2 ((m : ℚ) * 2 ^ e) = Nat.log 2 m + e := by
  have htwo : (0 : ℚ) < 2 ^ e := zpow_pos two_pos e
  have hpos : (0 : ℚ) < m * 2 ^ e := mul_pos (by exact_mod_cast Nat.pos_of_ne_zero hm) htwo
  have hlow : (2 : ℚ) ^ Nat.log 2 m ≤ m := by exact_mod_cast Nat.pow_log_le_self 2 hm
  have hhigh : (m : ℚ) < 2 ^ (Nat.log 2 m + 1) := by
    exact_mod_cast Nat.lt_pow_succ_log_self one_lt_two m
  apply le_antisymm
  · rw [← Int.lt_add_one_iff, ← Int.lt_zpow_iff_log_lt one_lt_two hpos]
    calc (m : ℚ) * 2 ^ e < 2 ^ (Nat.log 2 m + 1) * 2 ^ e := mul_lt_mul_of_pos_right hhigh htwo
      _ = ((2 : ℕ) : ℚ) ^ ((Nat.log 2 m : ℤ) + e + 1) := by
        rw [← zpow_natCast, ← zpow_add₀ two_ne_zero]
        push_cast
        ring_nf
  · rw [← Int.zpow_le_iff_le_log one_lt_two hpos]
    calc ((2 : ℕ) : ℚ) ^ ((Nat.log 2 m : ℤ) + e) = 2 ^ Nat.log 2 m * 2 ^ e := by
          push_cast
          rw [zpow_add₀ two_ne_zero, zpow_natCast]
      _ ≤ m * 2 ^ e := mul_le_mul_of_nonneg_right hlow htwo.le

/-- A value of the format is its own nearest value: of an `m` with at most 53 bits the
significand keeps every bit, and `2 ^ 53` is a power of two. -/
theorem nearest_eq_self {m : ℕ} (hm : m ≤ 2 ^ 53) (e : ℤ) :
    nearest ((m : ℚ) * 2 ^ e) = m * 2 ^ e := by
  rcases Nat.eq_zero_or_pos m with rfl | hpos
  · simp [nearest_zero]
  have hulp : ulp ((m : ℚ) * 2 ^ e) = 2 ^ ((Nat.log 2 m : ℤ) + e - 52) := by
    rw [ulp, log_natCast_mul_zpow hpos.ne']
  obtain ⟨n, hn⟩ : ∃ n : ℕ, (m : ℚ) * 2 ^ e / ulp ((m : ℚ) * 2 ^ e) = n := by
    have hquot : (m : ℚ) * 2 ^ e / ulp ((m : ℚ) * 2 ^ e) = m * 2 ^ (52 - (Nat.log 2 m : ℤ)) := by
      rw [hulp, mul_div_assoc, ← zpow_sub₀ two_ne_zero]
      ring_nf
    rw [hquot]
    rcases hm.lt_or_eq with hlt | rfl
    · have hlog : Nat.log 2 m ≤ 52 := Nat.lt_succ_iff.mp (Nat.log_lt_of_lt_pow hpos.ne' hlt)
      refine ⟨m * 2 ^ (52 - Nat.log 2 m), ?_⟩
      rw [show (52 - (Nat.log 2 m : ℤ)) = ((52 - Nat.log 2 m : ℕ) : ℤ) by omega, zpow_natCast]
      push_cast
      rfl
    · refine ⟨2 ^ 52, ?_⟩
      rw [Nat.log_pow one_lt_two]
      norm_num
  rw [nearest, hn, show ((n : ℕ) : ℚ) = ((n : ℤ) : ℚ) by simp, roundEven_intCast]
  rw [show (((n : ℤ) : ℚ)) = (n : ℚ) by simp, ← hn, div_mul_cancel₀ _ (ulp_ne_zero _)]

/-- Integers up to `2 ^ 53` are exact. -/
theorem nearest_natCast {n : ℕ} (hn : n ≤ 2 ^ 53) : nearest n = n := by
  simpa using nearest_eq_self hn 0

/-- The next integer is not: it lies halfway between two values and goes to the even one. -/
theorem nearest_two_pow_succ : nearest ((2 ^ 53 + 1 : ℕ)) = 2 ^ 53 := by
  have hlog : Nat.log 2 (2 ^ 53 + 1) = 53 := by
    rw [Nat.log_eq_iff] <;> norm_num
  have hulp : ulp ((2 ^ 53 + 1 : ℕ)) = 2 := by
    rw [ulp, Int.log_natCast, hlog]
    norm_num
  have hfloor : ⌊((2 ^ 53 + 1 : ℕ) : ℚ) / 2⌋ = 2 ^ 52 := by
    rw [Int.floor_eq_iff]
    norm_num
  have hround : roundEven (((2 ^ 53 + 1 : ℕ) : ℚ) / 2) = 2 ^ 52 := by
    unfold roundEven Int.fract
    rw [hfloor]
    norm_num
  rw [nearest, hulp, hround]
  norm_num

/-! ## Rounding keeps to the values of the format -/

theorem roundEven_le {x : ℚ} {n : ℤ} (h : x ≤ n) : roundEven x ≤ n := by
  have hfloor : ⌊x⌋ ≤ n := by exact_mod_cast (Int.floor_le x).trans h
  have hfract : ⌊x⌋ + Int.fract x = x := Int.floor_add_fract x
  -- above the floor there is a fraction left
  have hceil : 1 ≤ 2 * Int.fract x → ⌊x⌋ + 1 ≤ n := by
    intro hhalf
    have hlt : (⌊x⌋ : ℚ) < n := by linarith
    exact_mod_cast hlt
  unfold roundEven
  split_ifs with hlow hhigh
  · exact hfloor
  · exact hceil hhigh.le
  · exact hfloor
  · exact hceil (not_lt.mp hlow)

theorem le_roundEven {x : ℚ} {n : ℤ} (h : n ≤ x) : n ≤ roundEven x := by
  have hfloor : n ≤ ⌊x⌋ := Int.le_floor.mpr h
  unfold roundEven
  split_ifs <;> omega

theorem ulp_pos (x : ℚ) : 0 < ulp x := zpow_pos two_pos _

/-- What lies below a value of the format is not rounded above it: the value is on the finer grid
too. -/
theorem nearest_le {x v : ℚ} (hx : 0 < x) (hv : nearest v = v) (h : x ≤ v) : nearest x ≤ v := by
  obtain ⟨k, hk⟩ := Int.le.dest (Int.log_mono_right (b := 2) hx h)
  have hulp : ulp v = 2 ^ k * ulp x := by
    rw [ulp, ulp, ← hk, ← zpow_natCast, ← zpow_add₀ two_ne_zero]
    congr 1
    omega
  obtain ⟨m, hm⟩ : ∃ m : ℤ, m * ulp v = v := ⟨_, hv⟩
  have hgrid : ((m * 2 ^ k : ℤ) : ℚ) * ulp x = v := by
    rw [← hm, hulp]
    push_cast
    ring
  rw [nearest, ← hgrid]
  refine mul_le_mul_of_nonneg_right ?_ (ulp_pos x).le
  have hle : x / ulp x ≤ (m * 2 ^ k : ℤ) := by
    rw [div_le_iff₀ (ulp_pos x), hgrid]
    exact h
  exact_mod_cast roundEven_le hle

/-- What lies above a value of the format is not rounded below it. -/
theorem le_nearest {x v : ℚ} (hv₀ : 0 < v) (hv : nearest v = v) (h : v ≤ x) : v ≤ nearest x := by
  have hx : 0 < x := hv₀.trans_le h
  have hround (n : ℤ) (hn : n * ulp x ≤ x) : n * ulp x ≤ nearest x := by
    refine mul_le_mul_of_nonneg_right ?_ (ulp_pos x).le
    have hle : (n : ℚ) ≤ x / ulp x := by rwa [le_div_iff₀ (ulp_pos x)]
    exact_mod_cast le_roundEven hle
  rcases (Int.log_mono_right (b := 2) hv₀ h).eq_or_lt with hlog | hlog
  -- both are on one grid
  · have hulp : ulp v = ulp x := by rw [ulp, ulp, hlog]
    obtain ⟨m, hm⟩ : ∃ m : ℤ, m * ulp v = v := ⟨_, hv⟩
    rw [hulp] at hm
    rw [← hm]
    exact hround m (hm ▸ h)
  -- else there is a power of two between them
  · have hbelow : v < 2 ^ (Int.log 2 v + 1) := by
      exact_mod_cast Int.lt_zpow_succ_log_self (b := 2) one_lt_two v
    have hpow : (2 : ℚ) ^ (Int.log 2 v + 1) ≤ 2 ^ Int.log 2 x :=
      zpow_le_zpow_right₀ one_le_two (by omega)
    have hself : (2 : ℚ) ^ Int.log 2 x ≤ x := by
      exact_mod_cast Int.zpow_log_le_self (b := 2) one_lt_two hx
    have hgrid : ((2 ^ 52 : ℤ) : ℚ) * ulp x = 2 ^ Int.log 2 x := by
      rw [ulp, zpow_sub₀ two_ne_zero]
      norm_num
      ring
    have hnearest := hround (2 ^ 52) (hgrid ▸ hself)
    rw [hgrid] at hnearest
    exact (hbelow.le.trans hpow).trans hnearest

end SimLn.Lib.Binary64
