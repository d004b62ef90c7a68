import SimLn.Lib.Binary64

/-!
# SimLn — time

`std::time::Duration` and `SystemTime` as counts of nanoseconds, with the limit of a Unix
`SystemTime` (64-bit signed seconds), and the time the producer sleeps before a payment: what is
left until its execution time, rounded to whole seconds in `f64` arithmetic.
-/

namespace SimLn

open Lib

/-- A span of time, in nanoseconds. -/
abbrev Duration := Nat

/-- A point in time, in nanoseconds since the Unix epoch. -/
abbrev SystemTime := Int

def nanosPerSec : Nat := 1000000000

/-- `Duration::from_secs`. -/
def Duration.fromSecs (secs : Nat) : Duration := secs * nanosPerSec

/-- The first point in time that a `SystemTime` cannot represent. -/
def SystemTime.limit : SystemTime := 2 ^ 63 * nanosPerSec

/-- `SystemTime::checked_add`. -/
def SystemTime.checkedAdd (self : SystemTime) (wait : Duration) : Option SystemTime :=
  if self + wait < SystemTime.limit then some (self + wait) else none

/-- `SystemTime::duration_since`, which fails when `earlier` is later. -/
def SystemTime.durationSince (self earlier : SystemTime) : Option Duration :=
  if earlier ≤ self then some (self - earlier).toNat else none

/-- `Duration::as_secs_f64`: the whole seconds and the fraction are rounded to `f64`, and so is
their sum. -/
def Duration.asSecsF64 (self : Duration) : ℚ :=
  Binary64.nearest (Binary64.nearest (self / nanosPerSec : ℕ)
    + Binary64.nearest ((self % nanosPerSec : ℕ) / nanosPerSec))

/-- The cast `as u64` of a float, which saturates. -/
def asU64 (n : ℤ) : Nat := min n.toNat (2 ^ 64 - 1)

/-- How long the producer sleeps at `internalNow` before a payment due at `executionTime`. -/
def waitTime (executionTime internalNow : SystemTime) : Duration :=
  match executionTime.durationSince internalNow with
  | some elapsed => .fromSecs (asU64 (round elapsed.asSecsF64))
  | none => 0

theorem SystemTime.checkedAdd_eq_some {t t' : SystemTime} {d : Duration} :
    t.checkedAdd d = some t' ↔ t + d < SystemTime.limit ∧ t' = t + d := by
  unfold SystemTime.checkedAdd
  split <;> simp_all [eq_comm]

theorem SystemTime.checkedAdd_eq_none {t : SystemTime} {d : Duration} :
    t.checkedAdd d = none ↔ SystemTime.limit ≤ t + d := by
  simp [SystemTime.checkedAdd]

/-- Whole seconds up to `2 ^ 53` pass through `f64` unchanged. -/
theorem asSecsF64_fromSecs {secs : Nat} (h : secs ≤ 2 ^ 53) :
    (Duration.fromSecs secs).asSecsF64 = secs := by
  have hdiv : Duration.fromSecs secs / nanosPerSec = secs :=
    Nat.mul_div_cancel secs (by decide)
  have hmod : Duration.fromSecs secs % nanosPerSec = 0 := Nat.mul_mod_left secs nanosPerSec
  rw [Duration.asSecsF64, hdiv, hmod, Binary64.nearest_natCast h]
  simp [Binary64.nearest_zero, Binary64.nearest_natCast h]

/-- The producer sleeps until the execution time exactly, when that is at most `2 ^ 53` whole
seconds ahead. -/
theorem waitTime_wholeSeconds {now : SystemTime} {secs : Nat} (h : secs ≤ 2 ^ 53) :
    waitTime (now + Duration.fromSecs secs) now = Duration.fromSecs secs := by
  have hround : asU64 (round (secs : ℚ)) = secs := by
    rw [round_natCast, asU64, Int.toNat_natCast]
    omega
  have hsince : SystemTime.durationSince (now + Duration.fromSecs secs) now
      = some (Duration.fromSecs secs) := by
    simp [SystemTime.durationSince]
  rw [waitTime, hsince]
  simp only [asSecsF64_fromSecs h, hround]

/-- In `f64` too, the last half of a second lies between its middle and its end. -/
theorem asSecsF64_lastHalf {secs nanos : Nat} (hsecs : secs < 2 ^ 52) (hhalf : nanosPerSec ≤ 2 * nanos)
    (hlt : nanos < nanosPerSec) :
    (secs + 1 / 2 : ℚ) ≤ Duration.asSecsF64 (secs * nanosPerSec + nanos) ∧
      Duration.asSecsF64 (secs * nanosPerSec + nanos) ≤ secs + 1 := by
  have hpos : 0 < nanosPerSec := by decide
  have hdiv : (secs * nanosPerSec + nanos) / nanosPerSec = secs := by
    rw [Nat.add_comm, Nat.add_mul_div_right _ _ hpos, Nat.div_eq_of_lt hlt, Nat.zero_add]
  have hmod : (secs * nanosPerSec + nanos) % nanosPerSec = nanos := by
    rw [Nat.add_comm, Nat.add_mul_mod_self_right, Nat.mod_eq_of_lt hlt]
  have hposQ : (0 : ℚ) < nanosPerSec := by exact_mod_cast hpos
  have hhalfQ : (nanosPerSec : ℚ) ≤ 2 * nanos := by exact_mod_cast hhalf
  have hltQ : (nanos : ℚ) ≤ nanosPerSec := by exact_mod_cast hlt.le
  have hmiddle : Binary64.nearest (1 / 2) = 1 / 2 := by
    have h := Binary64.nearest_eq_self (m := 1) (by decide) (-1)
    norm_num at h ⊢
    exact h
  have hone : Binary64.nearest 1 = 1 := by
    simpa using Binary64.nearest_natCast (n := 1) (by decide)
  have hfrom : (1 / 2 : ℚ) ≤ nanos / nanosPerSec := by
    rw [le_div_iff₀ hposQ]
    linarith
  have hto : (nanos / nanosPerSec : ℚ) ≤ 1 := (div_le_one hposQ).mpr hltQ
  -- the fraction is rounded first
  have hlow := Binary64.le_nearest one_half_pos hmiddle hfrom
  have hhigh := Binary64.nearest_le (lt_of_lt_of_le one_half_pos hfrom) hone hto
  have hsecsQ : (0 : ℚ) ≤ secs := Nat.cast_nonneg secs
  have hmiddle' : Binary64.nearest (secs + 1 / 2) = secs + 1 / 2 := by
    have h := Binary64.nearest_eq_self (m := 2 * secs + 1) (by omega) (-1)
    have hcast : (((2 * secs + 1 : ℕ) : ℚ)) * 2 ^ (-1 : ℤ) = secs + 1 / 2 := by
      push_cast
      rw [zpow_neg_one]
      ring
    rwa [hcast] at h
  have hend : Binary64.nearest (secs + 1) = secs + 1 := by
    exact_mod_cast Binary64.nearest_natCast (n := secs + 1) (by omega)
  rw [Duration.asSecsF64, hdiv, hmod, Binary64.nearest_natCast (by omega)]
  exact ⟨Binary64.le_nearest (by linarith) hmiddle' (by linarith),
    Binary64.nearest_le (by linarith) hend (by linarith)⟩

/-- Nothing is waited for once the time has come. -/
theorem waitTime_of_le {executionTime now : SystemTime} (h : executionTime ≤ now) :
    waitTime executionTime now = 0 := by
  rcases h.lt_or_eq with hlt | rfl
  · rw [waitTime, SystemTime.durationSince, if_neg (not_le.mpr hlt)]
  · have hnow : waitTime (executionTime + Duration.fromSecs 0) executionTime = Duration.fromSecs 0 :=
      waitTime_wholeSeconds (by decide)
    simpa [Duration.fromSecs] using hnow

/-- What is left of whole seconds after a sleep that ended late. -/
theorem durationSince_of_late (now : SystemTime) {whole late : Nat} (hlate : late ≤ nanosPerSec) :
    SystemTime.durationSince (now + (whole + 1 : ℤ) * nanosPerSec - late) now
      = some (whole * nanosPerSec + (nanosPerSec - late)) := by
  have hleft : now + (whole + 1 : ℤ) * nanosPerSec - late - now
      = (whole * nanosPerSec + (nanosPerSec - late) : ℕ) := by
    push_cast [hlate]
    ring
  have hle : now ≤ now + (whole + 1 : ℤ) * nanosPerSec - late := by
    rw [← sub_nonneg, hleft]
    exact Int.natCast_nonneg _
  rw [SystemTime.durationSince, if_pos hle, hleft, Int.toNat_natCast]

/-- Half a second is made up for: of the seconds to an event that has been waiting for a sleep that
ended no later than that, none is lost. -/
theorem waitTime_of_late {now : SystemTime} {secs : ℤ} {late : Nat} (hsecs : secs ≤ 2 ^ 52)
    (hlate : 2 * late ≤ nanosPerSec) :
    waitTime (now + secs * nanosPerSec - late) now = Duration.fromSecs secs.toNat := by
  rcases le_or_gt secs 0 with hdue | hahead
  -- it is due already
  · have hle : now + secs * nanosPerSec - late ≤ now := by
      have hmul : secs * nanosPerSec ≤ 0 := mul_nonpos_of_nonpos_of_nonneg hdue (by decide)
      have hcast : (0 : ℤ) ≤ late := Int.natCast_nonneg late
      linarith
    rw [Int.toNat_eq_zero.mpr hdue, waitTime_of_le hle]
    rfl
  · obtain ⟨whole, rfl⟩ : ∃ whole : ℕ, secs = whole + 1 := ⟨(secs - 1).toNat, by omega⟩
    have hcount : asU64 (whole + 1 : ℤ) = whole + 1 := by
      rw [asU64]
      omega
    rw [show ((whole : ℤ) + 1).toNat = whole + 1 by omega]
    rcases Nat.eq_zero_or_pos late with rfl | hpos
    · have hexact : waitTime (now + Duration.fromSecs (whole + 1)) now = Duration.fromSecs (whole + 1) :=
        waitTime_wholeSeconds (by omega)
      simpa [Duration.fromSecs] using hexact
    · have hbelow : whole < 2 ^ 52 := by omega
      have hhalf : nanosPerSec ≤ 2 * (nanosPerSec - late) := by omega
      have hlt : nanosPerSec - late < nanosPerSec := by omega
      obtain ⟨hlow, hhigh⟩ := asSecsF64_lastHalf hbelow hhalf hlt
      have hround : round (Duration.asSecsF64 (whole * nanosPerSec + (nanosPerSec - late)))
          = (whole + 1 : ℤ) := by
        rw [round_eq, Int.floor_eq_iff]
        push_cast
        constructor
        · linarith
        · linarith
      rw [waitTime, durationSince_of_late now (by omega)]
      simp only [hround, hcount]

/-- A fraction of a second is rounded away: after a sleep of two seconds, a payment due in one and
a half is late. -/
theorem waitTime_fraction : waitTime 1500000000 0 = 2000000000 := by
  have hsecs : Binary64.nearest ((1500000000 / nanosPerSec : ℕ)) = 1 := by
    rw [show 1500000000 / nanosPerSec = 1 by decide]
    simpa using Binary64.nearest_natCast (n := 1) (by decide)
  have hnanos : Binary64.nearest (((1500000000 % nanosPerSec : ℕ) : ℚ) / nanosPerSec) = 1 / 2 := by
    have h := Binary64.nearest_eq_self (m := 1) (by decide) (-1)
    norm_num [nanosPerSec] at h ⊢
    exact h
  have hsum : Duration.asSecsF64 1500000000 = 3 / 2 := by
    have h := Binary64.nearest_eq_self (m := 3) (by decide) (-1)
    rw [Duration.asSecsF64, hsecs, hnanos]
    norm_num at h ⊢
    exact h
  have hround : round (3 / 2 : ℚ) = 2 := by norm_num [round_eq]
  rw [waitTime, show SystemTime.durationSince 1500000000 0 = some 1500000000 by decide]
  simp only [hsum, hround]
  decide

/-- Past `2 ^ 53` seconds the whole seconds are not exact either. -/
theorem waitTime_inexact :
    waitTime (Duration.fromSecs (2 ^ 53 + 1)) 0 = Duration.fromSecs (2 ^ 53) := by
  have hsince : SystemTime.durationSince (Duration.fromSecs (2 ^ 53 + 1)) 0
      = some (Duration.fromSecs (2 ^ 53 + 1)) := by decide
  have hsecs : Duration.asSecsF64 (Duration.fromSecs (2 ^ 53 + 1)) = 2 ^ 53 := by
    have hdiv : Duration.fromSecs (2 ^ 53 + 1) / nanosPerSec = 2 ^ 53 + 1 := by decide
    have hmod : Duration.fromSecs (2 ^ 53 + 1) % nanosPerSec = 0 := by decide
    have hexact := Binary64.nearest_natCast (n := 2 ^ 53) le_rfl
    rw [Duration.asSecsF64, hdiv, hmod, Binary64.nearest_two_pow_succ]
    simp only [Nat.cast_zero, zero_div, Binary64.nearest_zero, add_zero]
    exact_mod_cast hexact
  have hround : round (2 ^ 53 : ℚ) = 2 ^ 53 := by
    have hcast : round ((2 ^ 53 : ℕ) : ℚ) = (2 ^ 53 : ℕ) := round_natCast _
    exact_mod_cast hcast
  rw [waitTime, hsince]
  simp only [hsecs, hround]
  decide

end SimLn
