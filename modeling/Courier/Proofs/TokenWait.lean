import Courier.Proofs.BucketLaw
/-!
How long to wait for a token.  Who is refused is told the time until a token is there, rounded to the
nearest nanosecond.  So the wait is never off by more than half a nanosecond; but it is not enough
where it was rounded down, and it is nothing at all when at most half a nanosecond was left.
-/
namespace Courier

namespace Decimal

/-- A whole number is nearest to a quantity, and the even one where two are equally near. -/
structure Nearest (x : Rat) (n : Nat) : Prop where
  le_add : x ≤ n + 1 / 2
  sub_le : (n : Rat) ≤ x + 1 / 2
  even_of_half : x = n + 1 / 2 ∨ (n : Rat) = x + 1 / 2 → n % 2 = 0

variable {x f : Rat} {n q : Nat}

theorem nearest_of_lt_half (hnonneg : 0 ≤ f) (hhalf : f < 1 / 2) : Nearest (q + f) q := by
  refine ⟨by linarith, by linarith, ?_⟩
  rintro (h | h)
  · linarith
  · linarith

theorem nearest_of_half_lt (hhalf : 1 / 2 < f) (hone : f < 1) : Nearest (q + f) (q + 1) := by
  have hcast : ((q + 1 : Nat) : Rat) = q + 1 := Nat.cast_add_one q
  refine ⟨by linarith, by linarith, ?_⟩
  rintro (h | h)
  · linarith
  · linarith

theorem nearest_of_half (hhalf : f = 1 / 2) :
    Nearest (q + f) (if q % 2 = 0 then q else q + 1) := by
  have hcast : ((q + 1 : Nat) : Rat) = q + 1 := Nat.cast_add_one q
  by_cases heven : q % 2 = 0
  · rw [if_pos heven]
    exact ⟨by linarith, by linarith, fun _ => heven⟩
  · rw [if_neg heven]
    exact ⟨by linarith, by linarith, fun _ => by omega⟩

/-- A ratio is its whole part and a rest, and the rest decides. -/
theorem nearest_divNearest (num : Nat) {den : Nat} (hden : 0 < den) :
    Nearest ((num : Rat) / den) (divNearest num den) := by
  have hpos : (0 : Rat) < den := by exact_mod_cast hden
  have hratio : (num : Rat) / den = (num / den : Nat) + ((num % den : Nat) : Rat) / den := by
    have hsplit : (num : Rat) = den * (num / den : Nat) + (num % den : Nat) := by
      exact_mod_cast (Nat.div_add_mod num den).symm
    rw [eq_comm, ← mul_right_inj' hpos.ne', mul_add, mul_div_cancel₀ _ hpos.ne',
      mul_div_cancel₀ _ hpos.ne', ← hsplit]
  have hone : ((num % den : Nat) : Rat) / den < 1 := by
    rw [div_lt_one hpos]
    exact_mod_cast Nat.mod_lt num hden
  have hless : 2 * (num % den) < den ↔ ((num % den : Nat) : Rat) / den < 1 / 2 := by
    rw [div_lt_div_iff₀ hpos two_pos, one_mul, mul_comm]
    exact_mod_cast Iff.rfl
  have hmore : den < 2 * (num % den) ↔ 1 / 2 < ((num % den : Nat) : Rat) / den := by
    rw [div_lt_div_iff₀ two_pos hpos, one_mul, mul_comm]
    exact_mod_cast Iff.rfl
  rw [hratio, divNearest]
  simp only [hless, hmore]
  by_cases hlt : ((num % den : Nat) : Rat) / den < 1 / 2
  · rw [if_pos hlt]
    exact nearest_of_lt_half (by positivity) hlt
  · rw [if_neg hlt]
    by_cases hgt : 1 / 2 < ((num % den : Nat) : Rat) / den
    · rw [if_pos hgt]
      exact nearest_of_half_lt hgt hone
    · rw [if_neg hgt]
      exact nearest_of_half (le_antisymm (not_lt.mp hgt) (not_lt.mp hlt))

theorem Nearest.pos_iff (h : Nearest x n) : 0 < n ↔ 1 / 2 < x := by
  constructor
  · intro hpos
    by_cases hone : n = 1
    · have hsub := h.sub_le
      have hne : (n : Rat) ≠ x + 1 / 2 := by
        intro heq
        have heven := h.even_of_half (.inr heq)
        omega
      rw [hone, Nat.cast_one] at hsub hne
      have hlt := lt_of_le_of_ne hsub hne
      linarith
    · have htwo : (2 : Rat) ≤ n := by exact_mod_cast (by omega : 2 ≤ n)
      have hsub := h.sub_le
      linarith
  · intro hx
    have hle := h.le_add
    have hpos : (0 : Rat) < n := by linarith
    exact_mod_cast hpos

/-- Nothing is rounded where there is nothing to round. -/
theorem Nearest.eq_of_whole (h : Nearest x n) {k : Int} (hwhole : x = k) : (n : Rat) = x := by
  have hle := h.le_add
  have hsub := h.sub_le
  rw [hwhole] at hle hsub ⊢
  have habove : k < (n : Int) + 1 := by
    have hlt : (k : Rat) < ((n + 1 : Int) : Rat) := by
      push_cast
      linarith
    exact_mod_cast hlt
  have hbelow : (n : Int) < k + 1 := by
    have hlt : ((n : Int) : Rat) < ((k + 1 : Int) : Rat) := by
      push_cast
      linarith
    exact_mod_cast hlt
  have heq : (n : Int) = k := by omega
  exact_mod_cast heq

end Decimal

namespace Quantity

/-- Seconds that are not too many become the nearest nanoseconds. -/
theorem secondsToSpan?_rat {x : Rat} (hnonneg : 0 ≤ x) (hle : x * 1000000000 ≤ Span.longest) :
    ∃ d, secondsToSpan? x = some d ∧ Decimal.Nearest (x * 1000000000) d := by
  have hratio : ((x.num.toNat * 1000000000 : Nat) : Rat) / x.den = x * 1000000000 := by
    have hnum : ((x.num.toNat : Nat) : Rat) = x.num := by
      exact_mod_cast Int.toNat_of_nonneg (Rat.num_nonneg.mpr hnonneg)
    have hx := Rat.num_div_den x
    rw [Nat.cast_mul, hnum, mul_div_right_comm, hx]
    rfl
  have hnearest := Decimal.nearest_divNearest (x.num.toNat * 1000000000) x.den_pos
  rw [hratio] at hnearest
  have hlongest : Decimal.divNearest (x.num.toNat * 1000000000) x.den ≤ Span.longest := by
    have hsub := hnearest.sub_le
    have hlt : ((Decimal.divNearest (x.num.toNat * 1000000000) x.den : Nat) : Rat) <
        ((Span.longest + 1 : Nat) : Rat) := by
      push_cast
      linarith
    exact Nat.lt_succ_iff.mp (Nat.cast_lt.mp hlt)
  refine ⟨_, ?_, hnearest⟩
  change (if x < 0 then none else spanOfRatio? x.num.toNat x.den) = _
  rw [if_neg (not_lt.mpr hnonneg)]
  simp only [spanOfRatio?, hlongest, ↓reduceIte]

end Quantity

namespace Rate

/-- The time in which so many tokens come back: nanoseconds, not rounded. -/
def timeFor (rate : Rate) (tokens : Rat) : Rat :=
  tokens * rate.window / rate.permits

variable {rate : Rate} {tokens : Rat}

theorem check_eq_ok_iff : rate.check = .ok () ↔ 0 < rate.permits ∧ 0 < rate.window := by
  unfold check
  by_cases hpermits : rate.permits = 0
  · simp [hpermits]
  · by_cases hwindow : rate.window = 0
    · simp [hpermits, hwindow]
    · simp [hpermits, hwindow, Nat.pos_of_ne_zero]

theorem cast_of_check (hcheck : rate.check = .ok ()) :
    (1 : Rat) ≤ rate.permits ∧ (0 : Rat) < rate.window := by
  obtain ⟨hpermits, hwindow⟩ := check_eq_ok_iff.mp hcheck
  exact ⟨by exact_mod_cast hpermits, by exact_mod_cast hwindow⟩

theorem timeFor_le_iff (hcheck : rate.check = .ok ()) (d : Nat) :
    rate.timeFor tokens ≤ d ↔ tokens ≤ rate.permits * d / rate.window := by
  obtain ⟨hpermits, hwindow⟩ := cast_of_check hcheck
  rw [timeFor, div_le_iff₀ (zero_lt_one.trans_le hpermits), le_div_iff₀ hwindow,
    mul_comm (d : Rat)]

theorem div_perSecondOf (rate : Rate) (tokens : Rat) :
    tokens / rate.perSecondOf Rat * 1000000000 = rate.timeFor tokens := by
  unfold perSecondOf
  rw [Quantity.seconds_rat]
  change tokens / ((rate.permits : Rat) / (rate.window / 1000000000)) * 1000000000 = _
  rw [timeFor, div_div_eq_mul_div]
  ring

theorem timeFor_pos (hcheck : rate.check = .ok ()) (htokens : 0 < tokens) :
    0 < rate.timeFor tokens := by
  obtain ⟨hpermits, hwindow⟩ := cast_of_check hcheck
  exact div_pos (mul_pos htokens hwindow) (zero_lt_one.trans_le hpermits)

/-- One token comes back within the window. -/
theorem timeFor_le_window (hcheck : rate.check = .ok ()) (hone : tokens ≤ 1) :
    rate.timeFor tokens ≤ rate.window := by
  obtain ⟨hpermits, hwindow⟩ := cast_of_check hcheck
  rw [timeFor_le_iff hcheck, mul_div_cancel_right₀ _ hwindow.ne']
  linarith

end Rate

namespace TokenBucket

variable {rate : Rate} {created now : Nat} {grants : List Nat} {bucket : TokenBucket Rat}

/-- The wait that a bucket reports is nearest to the time until it has a token. -/
theorem Tells.nearest_wait (h : Tells rate created grants bucket) (hcheck : rate.check = .ok ())
    (hlongest : rate.window ≤ Span.longest) (hnonneg : 0 ≤ bucket.tokens)
    (hless : bucket.tokens < 1) :
    Decimal.Nearest (rate.timeFor (1 - bucket.tokens)) bucket.wait := by
  have hpos := Rate.timeFor_pos hcheck (sub_pos.mpr hless)
  have hwindow := Rate.timeFor_le_window hcheck (show 1 - bucket.tokens ≤ 1 by linarith)
  have hlongest' : (rate.window : Rat) ≤ Span.longest := by exact_mod_cast hlongest
  rw [← Rate.div_perSecondOf] at hpos hwindow ⊢
  obtain ⟨d, hd, hnearest⟩ := Quantity.secondsToSpan?_rat
    (show 0 ≤ (1 - bucket.tokens) / rate.perSecondOf Rat by linarith) (hwindow.trans hlongest')
  have hwait : bucket.wait = d := by
    rw [wait, h.rate_eq]
    change (Quantity.secondsToSpan? ((((1 : Nat) : Rat) - bucket.tokens) /
      rate.perSecondOf Rat)).getD Span.longest = d
    rw [Nat.cast_one, hd, Option.getD_some]
  rw [hwait]
  exact hnearest

/-- After a span there is a token if the span is long enough for what is missing. -/
theorem Tells.one_le_refill_iff (h : Tells rate created grants bucket)
    (hcheck : rate.check = .ok ()) (d : Nat) :
    1 ≤ (bucket.refill (bucket.refilledAt + d)).tokens ↔
      rate.timeFor (1 - bucket.tokens) ≤ d := by
  obtain ⟨hpermits, _⟩ := Rate.cast_of_check hcheck
  rw [h.refill_tokens, Nat.add_sub_cancel_left, le_min_iff, Rate.timeFor_le_iff hcheck]
  constructor
  · rintro ⟨hone, _⟩
    linarith
  · intro hle
    exact ⟨by linarith, hpermits⟩

/-- Where each permit has a whole number of nanoseconds, so has the time until a token is there. -/
theorem Tells.timeFor_whole (h : Tells rate created grants bucket) (hcheck : rate.check = .ok ())
    (hdvd : rate.permits ∣ rate.window) : ∃ k : Int, rate.timeFor (1 - bucket.tokens) = k := by
  obtain ⟨hpermits, hwindow⟩ := Rate.cast_of_check hcheck
  obtain ⟨share, hshare⟩ := hdvd
  obtain ⟨u, _, _, hattained⟩ := h.attained
  refine ⟨(1 - rate.permits + grantsIn grants u bucket.refilledAt) * share -
    (bucket.refilledAt - u : Nat), ?_⟩
  have hpermits' : (rate.permits : Rat) ≠ 0 := (zero_lt_one.trans_le hpermits).ne'
  have hshare' : (rate.window : Rat) = rate.permits * share := by exact_mod_cast hshare
  rw [hattained, Rate.timeFor, Rate.allowance]
  rw [hshare'] at hwindow ⊢
  have hshare'' : (share : Rat) ≠ 0 := right_ne_zero_of_mul hwindow.ne'
  push_cast
  field_simp
  ring

end TokenBucket

namespace Limiter

variable {σ : Type} [World σ] {limiter : Limiter σ Rat} {created last now : Nat} {grants : List Nat}
  {s s₁ : σ} {wait : Span}

theorem Lawful.tokens_nonneg (h : limiter.Lawful created s grants last) (hle : last ≤ now) :
    0 ≤ ((limiter.bucket.get s).refill now).tokens := by
  obtain ⟨u, hcreated, hu, hattained⟩ := (h.tells.refill (Nat.le_trans h.recent hle)).attained
  have hlaw := h.law u _ hcreated hu
  rw [hattained]
  linarith

theorem eq_of_tryTake_error (h : limiter.tryTake now s = (.error wait, s₁)) :
    wait = ((limiter.bucket.get s).refill now).wait := by
  simp only [tryTake, TokenBucket.take] at h
  split at h
  · simp at h
  · simp only [Prod.mk.injEq, Except.error.injEq] at h
    exact h.1.symm

/-- Who is refused is told the time until a token is there, to the nearest nanosecond.  If nobody else
comes, a token is there after the wait exactly when it was not rounded down, and always a nanosecond
later; the wait is nothing when no more than half a nanosecond was left.  Where the permits share the
window in whole nanoseconds, nothing is rounded. -/
theorem tryTake_error_nearest (h : History limiter created s grants last)
    (hcheck : limiter.rate.check = .ok ()) (hlongest : limiter.rate.window ≤ Span.longest)
    (hle : last ≤ now) (htake : limiter.tryTake now s = (.error wait, s₁)) :
    ∃ due : Rat,
      due = limiter.rate.timeFor (1 - ((limiter.bucket.get s).refill now).tokens) ∧ 0 < due ∧
      Decimal.Nearest due wait ∧ (0 < wait ↔ 1 / 2 < due) ∧
      (∀ s' d, limiter.bucket.get s' = limiter.bucket.get s₁ →
        ((limiter.tryTake (now + d) s').1 = .ok () ↔ due ≤ d)) ∧
      (∀ s', limiter.bucket.get s' = limiter.bucket.get s₁ →
        ((limiter.tryTake (now + wait) s').1 = .ok () ↔ due ≤ wait) ∧
        (limiter.tryTake (now + (wait + 1)) s').1 = .ok ()) ∧
      (limiter.rate.permits ∣ limiter.rate.window → (wait : Rat) = due ∧ 0 < wait ∧
        ∀ s', limiter.bucket.get s' = limiter.bucket.get s₁ →
          (limiter.tryTake (now + wait) s').1 = .ok ()) := by
  have hlawful := h.lawful
  have htells := hlawful.tells.refill (Nat.le_trans hlawful.recent hle)
  have hless : ((limiter.bucket.get s).refill now).tokens < 1 := by
    have hrefused : ¬ (limiter.tryTake now s).1 = .ok () := by
      rw [htake]
      simp
    rw [tryTake_ok_iff, Quantity.le_rat_iff] at hrefused
    exact not_le.mp hrefused
  have hnearest := htells.nearest_wait hcheck hlongest (hlawful.tokens_nonneg hle) hless
  rw [← eq_of_tryTake_error htake] at hnearest
  have hdue := Rate.timeFor_pos hcheck (sub_pos.mpr hless)
  have hlater : ∀ s' d, limiter.bucket.get s' = limiter.bucket.get s₁ →
      ((limiter.tryTake (now + d) s').1 = .ok () ↔
        limiter.rate.timeFor (1 - ((limiter.bucket.get s).refill now).tokens) ≤ d) := by
    intro s' d hsame
    rw [tryTake_ok_iff, Quantity.le_rat_iff, hsame, get_of_tryTake_error htake]
    exact htells.one_le_refill_iff hcheck d
  refine ⟨_, rfl, hdue, hnearest, hnearest.pos_iff, hlater, ?_, ?_⟩
  · intro s' hsame
    refine ⟨hlater s' wait hsame, (hlater s' (wait + 1) hsame).mpr ?_⟩
    have hround := hnearest.le_add
    push_cast
    linarith
  · intro hdvd
    obtain ⟨k, hk⟩ := htells.timeFor_whole hcheck hdvd
    have heq := hnearest.eq_of_whole hk
    refine ⟨heq, ?_, ?_⟩
    · rw [← heq] at hdue
      exact_mod_cast hdue
    · intro s' hsame
      exact (hlater s' wait hsame).mpr heq.ge

end Limiter

namespace TokenWaitWitness

open BucketLawWitness (Cellar)

/-- Three permits in a nanosecond more than three milliseconds. -/
def limiter : Limiter Cellar Rat :=
  { BucketLawWitness.limiter with rate := ⟨3, Span.ofNanos 3000001⟩ }

/-- The cellar after a grant at the beginning. -/
def granted (cellar : Cellar) : Cellar := (limiter.visit 0 cellar .tryTake).2

def emptied : Cellar := granted (granted (granted ⟨.full limiter.rate 0⟩))

theorem history_granted {cellar : Cellar} {grants : List Nat}
    (h : limiter.History 0 cellar grants 0) (hgranted : (limiter.visit 0 cellar .tryTake).1 = true) :
    limiter.History 0 (granted cellar) (0 :: grants) 0 := by
  have hvisited := h.visited .tryTake (Nat.le_refl 0)
  rw [hgranted, if_pos rfl] at hvisited
  exact hvisited

theorem history_emptied : limiter.History 0 emptied [0, 0, 0] 0 := by
  have hmade : limiter.History 0 ⟨.full limiter.rate 0⟩ [] 0 := .made rfl
  have hfirst := history_granted hmade (by decide +kernel)
  have hsecond := history_granted hfirst (by decide +kernel)
  exact history_granted hsecond (by decide +kernel)

/-- Who is refused a millisecond after the grants is told a wait of nothing, and gets a token only a
nanosecond later. -/
theorem token_a_nanosecond_later :
    (limiter.tryTake (Span.ofMillis 1) emptied).1 = .error 0 ∧
      (limiter.tryTake (Span.ofMillis 1 + 1)
        (limiter.tryTake (Span.ofMillis 1) emptied).2).1 = .ok () := by
  have hrefused : (limiter.tryTake (Span.ofMillis 1) emptied).1 = .error 0 := by decide +kernel
  obtain ⟨_, _, _, _, _, _, hwait, _⟩ := Limiter.tryTake_error_nearest history_emptied
    (by decide) (by decide +kernel) (Nat.zero_le _) (Prod.ext hrefused rfl)
  exact ⟨hrefused, (hwait _ rfl).2⟩

/-- The wait of one millisecond is not enough, and the wait after it is nothing and not enough. -/
theorem wait_not_enough :
    limiter.rate.check = .ok () ∧ limiter.History 0 emptied [0, 0, 0] 0 ∧
      (limiter.tryTake 0 emptied).1 = .error (Span.ofMillis 1) ∧
      (limiter.tryTake (0 + Span.ofMillis 1) (limiter.tryTake 0 emptied).2).1 = .error 0 ∧
      (limiter.tryTake (Span.ofMillis 1 + 0)
        (limiter.tryTake (Span.ofMillis 1) (limiter.tryTake 0 emptied).2).2).1 = .error 0 := by
  refine ⟨by decide, history_emptied, ?_, ?_, ?_⟩
  · decide +kernel
  · decide +kernel
  · decide +kernel

end TokenWaitWitness
end Courier
