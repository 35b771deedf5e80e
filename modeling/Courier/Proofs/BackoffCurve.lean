import Courier.Retry
import Mathlib.Algebra.Order.Field.Rat
import Mathlib.Data.Rat.Floor
import Mathlib.Tactic.Linarith
import Mathlib.Tactic.Positivity
import Mathlib.Tactic.Ring
/-!
How long to wait before the next attempt.  Read over the rationals, the delay before it is spread is
the whole part of the first delay times a power of the factor, cut off at the bound and at the longest
span that 64 bits can count.  Spreading takes away or adds no more than the jitter's part of it, and a
greater draw never gives a shorter wait.
-/
namespace Courier

namespace Quantity

/-- The greatest whole number that a quantity is turned into. -/
def mostWhole : Nat := Nat.pow 2 64 - 1

variable {x y : Rat}

theorem ofNat_rat (n : Nat) : (ofNat n : Rat) = n := rfl

theorem le_rat (x y : Rat) : le x y = decide (x ≤ y) := rfl

theorem atMost_rat (x cap : Rat) : atMost x cap = min x cap := by
  rw [atMost, le_rat, min_def]
  simp only [decide_eq_true_eq]

/-- The whole part of a quantity, cut off at the ends of the range. -/
theorem whole_rat (x : Rat) : whole x = min ⌊x⌋₊ mostWhole := by
  change (if x < 0 then 0 else min x.floor.toNat mostWhole) = _
  by_cases hneg : x < 0
  · rw [if_pos hneg, Nat.floor_of_nonpos hneg.le, Nat.zero_min]
  · rw [if_neg hneg]
    rfl

theorem whole_mono (h : x ≤ y) : whole x ≤ whole y := by
  rw [whole_rat, whole_rat]
  exact min_le_min_right _ (Nat.floor_le_floor h)

theorem whole_le (hnonneg : 0 ≤ x) : (whole x : Rat) ≤ x := by
  have hfloor : whole x ≤ ⌊x⌋₊ := by
    rw [whole_rat]
    exact min_le_left _ _
  calc (whole x : Rat) ≤ (⌊x⌋₊ : Nat) := by exact_mod_cast hfloor
    _ ≤ x := Nat.floor_le hnonneg

theorem floor_le_whole (h : x ≤ mostWhole) : ⌊x⌋₊ ≤ whole x := by
  rw [whole_rat]
  exact le_min le_rfl (Nat.floor_le_of_le h)

end Quantity

namespace RetryPolicy

open Quantity (mostWhole)

section Curve

variable (policy : RetryPolicy Rat)

/-- The delays that grow without a bound: the first one times a power of the factor. -/
def curve (attempt : Nat) : Rat :=
  policy.initialDelay * policy.multiplier ^ (max attempt 1 - 1)

/-- Where the delays stop to grow. -/
def ceiling : Nat :=
  min policy.maxDelay mostWhole

theorem baseDelay_eq (attempt : Nat) :
    policy.baseDelay attempt = min ⌊policy.curve attempt⌋₊ policy.ceiling := by
  by_cases hzero : policy.initialDelay = 0
  · simp [baseDelay, curve, hzero]
  · have hmin : ⌊min (policy.curve attempt) policy.maxDelay⌋₊ =
        min ⌊policy.curve attempt⌋₊ policy.maxDelay := by
      rw [Nat.floor_mono.map_min, Nat.floor_natCast]
    simp only [baseDelay, hzero, if_false, Quantity.atMost_rat, Quantity.whole_rat]
    change min ⌊min (policy.curve attempt) policy.maxDelay⌋₊ mostWhole = _
    rw [hmin, min_assoc, ceiling]

theorem baseDelay_le_ceiling (attempt : Nat) : policy.baseDelay attempt ≤ policy.ceiling := by
  rw [baseDelay_eq]
  exact min_le_right _ _

theorem baseDelay_le_maxDelay (attempt : Nat) : policy.baseDelay attempt ≤ policy.maxDelay :=
  (policy.baseDelay_le_ceiling attempt).trans (min_le_left _ _)

theorem baseDelay_le_mostWhole (attempt : Nat) : policy.baseDelay attempt ≤ mostWhole :=
  (policy.baseDelay_le_ceiling attempt).trans (min_le_right _ _)

variable {policy} {first attempt : Nat}

theorem curve_mono (hgrows : 1 ≤ policy.multiplier) (h : first ≤ attempt) :
    policy.curve first ≤ policy.curve attempt := by
  have hpower : policy.multiplier ^ (max first 1 - 1) ≤ policy.multiplier ^ (max attempt 1 - 1) :=
    pow_le_pow_right₀ hgrows (by omega)
  exact mul_le_mul_of_nonneg_left hpower (Nat.cast_nonneg _)

theorem baseDelay_mono (hgrows : 1 ≤ policy.multiplier) (h : first ≤ attempt) :
    policy.baseDelay first ≤ policy.baseDelay attempt := by
  rw [baseDelay_eq, baseDelay_eq]
  exact min_le_min_right _ (Nat.floor_le_floor (curve_mono hgrows h))

theorem baseDelay_eq_ceiling (h : (policy.ceiling : Rat) ≤ policy.curve attempt) :
    policy.baseDelay attempt = policy.ceiling := by
  rw [baseDelay_eq]
  exact min_eq_right (Nat.le_floor h)

end Curve

section Spread

variable {delay : Nat} {part draw draw' : Rat}

/-- A stored part as it is used. -/
theorem clampPart_rat (x : Rat) : clampPart x = max 0 (min x 1) := by
  simp only [clampPart, Quantity.ofNat_rat, Quantity.le_rat, Nat.cast_zero, Nat.cast_one]
  change (if (!decide (0 ≤ x)) = true then 0 else if (!decide (x ≤ 1)) = true then 1 else x) = _
  by_cases hneg : 0 ≤ x
  · by_cases hone : x ≤ 1
    · simp [hneg, hone]
    · simp [hneg, hone, (not_le.mp hone).le]
  · simp [hneg, (not_le.mp hneg).le]

/-- The quantity whose whole part a spread delay is. -/
def spreadAt (delay : Nat) (part draw : Rat) : Rat :=
  delay * (1 - part) + draw * (2 * (delay * part))

theorem spread_rat : spread delay part draw = Quantity.whole (spreadAt delay part draw) := by
  simp only [spread, Quantity.ofNat_rat, spreadAt]
  congr 1
  push_cast
  ring

theorem spreadAt_mono (hpart : 0 ≤ part) (h : draw ≤ draw') :
    spreadAt delay part draw ≤ spreadAt delay part draw' := by
  have hrange : (0 : Rat) ≤ 2 * (delay * part) := by positivity
  have hdraw := mul_le_mul_of_nonneg_right h hrange
  unfold spreadAt
  linarith

/-- The draw 0 stands for the shortest delay. -/
theorem le_spreadAt (hpart : 0 ≤ part) (hdraw : 0 ≤ draw) :
    delay * (1 - part) ≤ spreadAt delay part draw := by
  calc (delay : Rat) * (1 - part) = spreadAt delay part 0 := by simp [spreadAt]
    _ ≤ spreadAt delay part draw := spreadAt_mono hpart hdraw

/-- The draw 1 stands for the longest delay. -/
theorem spreadAt_le (hpart : 0 ≤ part) (hdraw : draw ≤ 1) :
    spreadAt delay part draw ≤ delay * (1 + part) := by
  calc spreadAt delay part draw ≤ spreadAt delay part 1 := spreadAt_mono hpart hdraw
    _ = delay * (1 + part) := by unfold spreadAt; ring

theorem spread_mono (hpart : 0 ≤ part) (h : draw ≤ draw') :
    spread delay part draw ≤ spread delay part draw' := by
  rw [spread_rat, spread_rat]
  exact Quantity.whole_mono (spreadAt_mono hpart h)

theorem floor_le_spread (hdelay : delay ≤ mostWhole) (hpart : 0 ≤ part) (hdraw : 0 ≤ draw) :
    ⌊(delay : Rat) * (1 - part)⌋₊ ≤ spread delay part draw := by
  have hless : (delay : Rat) * (1 - part) ≤ mostWhole := by
    have htaken : (0 : Rat) ≤ delay * part := by positivity
    have hmost : (delay : Rat) ≤ mostWhole := by exact_mod_cast hdelay
    linarith
  rw [spread_rat]
  exact (Quantity.floor_le_whole hless).trans (Quantity.whole_mono (le_spreadAt hpart hdraw))

theorem spread_le (hpart : 0 ≤ part) (hone : part ≤ 1) (hzero : 0 ≤ draw) (hdraw : draw ≤ 1) :
    (spread delay part draw : Rat) ≤ delay * (1 + part) := by
  have hshortest : (0 : Rat) ≤ delay * (1 - part) := mul_nonneg (Nat.cast_nonneg _) (by linarith)
  rw [spread_rat]
  exact (Quantity.whole_le (hshortest.trans (le_spreadAt hpart hzero))).trans
    (spreadAt_le hpart hdraw)

/-- Nothing is to be spread, or by nothing. -/
theorem spread_of_mul_eq_zero (hdelay : delay ≤ mostWhole) (h : (delay : Rat) * part = 0) :
    spread delay part draw = delay := by
  have hat : spreadAt delay part draw = delay := by
    unfold spreadAt
    rw [h, mul_sub, h]
    ring
  rw [spread_rat, hat, Quantity.whole_rat, Nat.floor_natCast]
  exact min_eq_left hdelay

end Spread

variable (policy : RetryPolicy Rat)

/-- The part by which delays are spread: the stored one, between 0 and 1. -/
def jitterPart : Rat :=
  max 0 (min policy.jitter 1)

theorem jitterPart_nonneg : 0 ≤ policy.jitterPart := le_max_left _ _

theorem jitterPart_le_one : policy.jitterPart ≤ 1 :=
  max_le zero_le_one (min_le_right _ _)

/-- Where a delay is not spread, spreading it would leave it as it is. -/
theorem backoffWith_rat (attempt : Nat) (draw : Rat) :
    policy.backoffWith attempt draw =
      spread (policy.baseDelay attempt) policy.jitterPart draw := by
  simp only [backoffWith, clampPart_rat, Quantity.le_rat, Quantity.ofNat_rat, Nat.cast_zero]
  change (if (decide (policy.jitterPart ≤ 0) || decide (policy.baseDelay attempt = 0)) = true then
    policy.baseDelay attempt else _) = _
  split_ifs with hkept
  · rw [Bool.or_eq_true, decide_eq_true_eq, decide_eq_true_eq] at hkept
    refine (spread_of_mul_eq_zero (policy.baseDelay_le_mostWhole attempt) ?_).symm
    rcases hkept with hpart | hdelay
    · rw [le_antisymm hpart policy.jitterPart_nonneg, mul_zero]
    · rw [hdelay, Nat.cast_zero, zero_mul]
  · rfl

/-- A part that is no number spreads nothing. -/
theorem backoffWith_of_not_finite {floats : RetryPolicy Float}
    (h : floats.jitter.isFinite = false) (attempt : Nat) (draw : Float) :
    floats.backoffWith attempt draw = floats.baseDelay attempt := by
  have hpart : clampPart floats.jitter = Quantity.ofNat 0 := by
    have hfinite : Quantity.isFinite floats.jitter = false := h
    simp [clampPart, hfinite]
  have hle : Quantity.le (Quantity.ofNat 0 : Float) (Quantity.ofNat 0) = true := by decide
  simp [backoffWith, hpart, hle]

/-- The delay before it is spread is the whole part of the curve below the bound; a factor of at least
one never makes it shorter, and from the first attempt at which the curve is at the bound it stays
there.  Spreading keeps it within the jitter's part to both sides, and a greater draw never gives less;
jitter that is no number spreads nothing. -/
theorem backoff_follows_curve (policy : RetryPolicy Rat) :
    (∀ attempt,
      policy.baseDelay attempt =
          min ⌊policy.initialDelay * policy.multiplier ^ (max attempt 1 - 1)⌋₊
            (min policy.maxDelay (Nat.pow 2 64 - 1)) ∧
        policy.baseDelay attempt ≤ policy.maxDelay) ∧
      (1 ≤ policy.multiplier →
        (∀ first attempt, first ≤ attempt →
          policy.baseDelay first ≤ policy.baseDelay attempt) ∧
        ∀ first attempt, (policy.ceiling : Rat) ≤ policy.curve first → first ≤ attempt →
          policy.baseDelay attempt = min policy.maxDelay (Nat.pow 2 64 - 1)) ∧
      (∀ attempt draw, 0 ≤ draw → draw < 1 →
        ⌊policy.baseDelay attempt * (1 - policy.jitterPart)⌋₊ ≤ policy.backoffWith attempt draw ∧
          (policy.backoffWith attempt draw : Rat) ≤
            policy.baseDelay attempt * (1 + policy.jitterPart) ∧
          (policy.backoffWith attempt draw : Rat) ≤ policy.maxDelay * (1 + policy.jitterPart)) ∧
      (∀ attempt draw draw', 0 ≤ draw → draw ≤ draw' → draw' < 1 →
        policy.backoffWith attempt draw ≤ policy.backoffWith attempt draw') ∧
      ∀ floats : RetryPolicy Float, floats.jitter.isFinite = false → ∀ attempt draw,
        floats.backoffWith attempt draw = floats.baseDelay attempt := by
  have hpart := policy.jitterPart_nonneg
  refine ⟨?_, ?_, ?_, ?_, ?_⟩
  · intro attempt
    exact ⟨policy.baseDelay_eq attempt, policy.baseDelay_le_maxDelay attempt⟩
  · intro hgrows
    refine ⟨fun first attempt h => baseDelay_mono hgrows h, ?_⟩
    intro first attempt hreached h
    exact baseDelay_eq_ceiling (hreached.trans (curve_mono hgrows h))
  · intro attempt draw hzero hdraw
    have hbase : (policy.baseDelay attempt : Rat) ≤ policy.maxDelay := by
      exact_mod_cast policy.baseDelay_le_maxDelay attempt
    have habove : (spread (policy.baseDelay attempt) policy.jitterPart draw : Rat) ≤
        policy.baseDelay attempt * (1 + policy.jitterPart) :=
      spread_le hpart policy.jitterPart_le_one hzero hdraw.le
    rw [backoffWith_rat]
    refine ⟨floor_le_spread (policy.baseDelay_le_mostWhole attempt) hpart hzero, habove, ?_⟩
    exact habove.trans (mul_le_mul_of_nonneg_right hbase (by linarith))
  · intro attempt draw draw' _ h _
    rw [backoffWith_rat, backoffWith_rat]
    exact spread_mono hpart h
  · intro floats hjitter attempt draw
    exact backoffWith_of_not_finite hjitter attempt draw

end RetryPolicy

namespace BackoffCurveWitness

/-- A tenth of a second, half as long again each time, a second at most, with too much jitter. -/
def policy : RetryPolicy Rat :=
  { maxAttempts := 9
    initialDelay := Span.ofMillis 100
    maxDelay := Span.ofMillis 1000
    multiplier := 3 / 2
    jitter := 7
    statuses := [] }

/-- The curve is at the bound from the seventh attempt on; the fourth delay, which is not a whole
number of milliseconds, may be drawn to be half as long again. -/
theorem bound_from_seventh_attempt :
    policy.baseDelay 4 = 337500000 ∧
      (policy.baseDelay 6 : Rat) < policy.ceiling ∧
      (∀ attempt, 7 ≤ attempt → policy.baseDelay attempt = Span.ofMillis 1000) ∧
      policy.backoffWith 4 (3 / 4) = 506250000 ∧
      (policy.backoffWith 4 (3 / 4) : Rat) ≤ 2 * policy.baseDelay 4 := by
  obtain ⟨_, hrising, hspread, _, _⟩ := RetryPolicy.backoff_follows_curve policy
  have hgrows : 1 ≤ policy.multiplier := by decide +kernel
  have hreached : (policy.ceiling : Rat) ≤ policy.curve 7 := by decide +kernel
  obtain ⟨_, habove, _⟩ := hspread 4 (3 / 4) (by decide +kernel) (by decide +kernel)
  have hpart : policy.jitterPart = 1 := by decide
  refine ⟨by decide +kernel, by decide +kernel, ?_, by decide +kernel, ?_⟩
  · intro attempt h
    exact (hrising hgrows).2 7 attempt hreached h
  · rw [hpart] at habove
    linarith

end BackoffCurveWitness
end Courier
