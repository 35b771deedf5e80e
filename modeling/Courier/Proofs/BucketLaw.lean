import Courier.Proofs.LimiterTurn
import Mathlib.Algebra.Order.Field.Rat
import Mathlib.Data.List.Count
import Mathlib.Tactic.FieldSimp
import Mathlib.Tactic.Linarith
import Mathlib.Tactic.Positivity
import Mathlib.Tactic.Ring
/-!
What a token bucket admits.  Read over the rationals, the tokens in a bucket are the least, over all
moments of its past, of what the rate allows from that moment on less the grants since then.  So a
token is there exactly when one more grant keeps every interval within its allowance; looking at the
bucket, being refused and giving up change nothing.
-/
namespace Courier

namespace Rate

/-- How many grants a rate allows in a span: its permits, and those that come back meanwhile. -/
def allowance (rate : Rate) (d : Nat) : Rat :=
  rate.permits + rate.permits * d / rate.window

theorem allowance_zero (rate : Rate) : rate.allowance 0 = rate.permits := by
  simp [allowance]

theorem allowance_add (rate : Rate) (c d : Nat) :
    rate.allowance (c + d) = rate.allowance c + rate.permits * d / rate.window := by
  unfold allowance
  push_cast
  ring

theorem permits_le_allowance (rate : Rate) (d : Nat) : (rate.permits : Rat) ≤ rate.allowance d := by
  unfold allowance
  have hback : (0 : Rat) ≤ rate.permits * d / rate.window := by positivity
  linarith

theorem allowance_mono (rate : Rate) {c d : Nat} (h : c ≤ d) :
    rate.allowance c ≤ rate.allowance d := by
  obtain ⟨e, rfl⟩ := Nat.exists_eq_add_of_le h
  rw [allowance_add]
  have hback : (0 : Rat) ≤ rate.permits * e / rate.window := by positivity
  linarith

end Rate

namespace Quantity

theorem seconds_rat (d : Span) : (seconds d : Rat) = d / 1000000000 := by
  have hsplit : d = 1000000000 * d.seconds + d.subsecond :=
    (Nat.div_add_mod d 1000000000).symm
  change ((d.seconds : Nat) : Rat) + (d.subsecond : Nat) / ((1000000000 : Nat) : Rat) = _
  conv_rhs => rw [hsplit]
  push_cast
  ring

theorem le_rat_iff {x : Rat} : le (ofNat 1) x = true ↔ 1 ≤ x := by
  change decide (((1 : Nat) : Rat) ≤ x) = true ↔ 1 ≤ x
  rw [decide_eq_true_eq, Nat.cast_one]

end Quantity

/-- The grants from one moment to another, both included. -/
def grantsIn (grants : List Nat) (u v : Nat) : Nat :=
  grants.countP fun g => u ≤ g ∧ g ≤ v

section GrantsIn

variable {grants : List Nat} {g u v r t : Nat}

theorem grantsIn_of_le (hpast : ∀ g ∈ grants, g ≤ r) (hle : r ≤ t) :
    grantsIn grants u t = grantsIn grants u r := by
  apply List.countP_congr
  intro g hg
  have hr := hpast g hg
  simp only [decide_eq_true_eq]
  omega

theorem grantsIn_eq_zero (hpast : ∀ g ∈ grants, g < u) : grantsIn grants u v = 0 := by
  apply List.countP_eq_zero.mpr
  intro g hg
  have hu := hpast g hg
  simp only [decide_eq_true_eq]
  omega

theorem grantsIn_cons (hu : u ≤ g) (hv : g ≤ v) :
    grantsIn (g :: grants) u v = grantsIn grants u v + 1 := by
  simp [grantsIn, hu, hv]

theorem grantsIn_cons_of_not (h : ¬ (u ≤ g ∧ g ≤ v)) :
    grantsIn (g :: grants) u v = grantsIn grants u v := by
  simp only [grantsIn, List.countP_cons, h, decide_false, Bool.false_eq_true, ↓reduceIte,
    Nat.add_zero]

end GrantsIn

namespace TokenBucket

variable {rate : Rate} {created t : Nat} {grants : List Nat} {bucket : TokenBucket Rat}

/-- What comes back into the bucket in a span. -/
theorem seconds_mul_perSecondOf (rate : Rate) (d : Nat) :
    (Quantity.seconds d : Rat) * rate.perSecondOf Rat = rate.permits * d / rate.window := by
  unfold Rate.perSecondOf
  rw [Quantity.seconds_rat, Quantity.seconds_rat]
  change (d : Rat) / 1000000000 * ((rate.permits : Rat) / (rate.window / 1000000000)) = _
  by_cases hwindow : (rate.window : Rat) = 0
  · simp [hwindow]
  · field_simp

/-- The tokens of a bucket are the least, over all moments since it was made, of what the rate allows
from there on less the grants since then. -/
structure Tells (rate : Rate) (created : Nat) (grants : List Nat) (bucket : TokenBucket Rat) :
    Prop where
  capacity_eq : bucket.capacity = rate.permits
  rate_eq : bucket.rate = rate.perSecondOf Rat
  created_le : created ≤ bucket.refilledAt
  past : ∀ g ∈ grants, g ≤ bucket.refilledAt
  least : ∀ u, created ≤ u → u ≤ bucket.refilledAt →
    bucket.tokens ≤ rate.allowance (bucket.refilledAt - u) - grantsIn grants u bucket.refilledAt
  attained : ∃ u, created ≤ u ∧ u ≤ bucket.refilledAt ∧
    bucket.tokens = rate.allowance (bucket.refilledAt - u) - grantsIn grants u bucket.refilledAt

theorem tells_full (rate : Rate) (created : Nat) : Tells rate created [] (.full rate created) where
  capacity_eq := rfl
  rate_eq := rfl
  created_le := Nat.le_refl _
  past := by simp
  least := by
    intro u _ _
    have hpermits := rate.permits_le_allowance (created - u)
    change (rate.permits : Rat) ≤ rate.allowance (created - u) - ((0 : Nat) : Rat)
    simpa using hpermits
  attained := by
    refine ⟨created, Nat.le_refl _, Nat.le_refl _, ?_⟩
    change (rate.permits : Rat) = rate.allowance (created - created) - ((0 : Nat) : Rat)
    rw [Nat.sub_self, Rate.allowance_zero]
    simp

theorem Tells.tokens_le (h : Tells rate created grants bucket) : bucket.tokens ≤ rate.permits := by
  have hleast := h.least bucket.refilledAt h.created_le (Nat.le_refl _)
  rw [Nat.sub_self, Rate.allowance_zero] at hleast
  have hcount : (0 : Rat) ≤ grantsIn grants bucket.refilledAt bucket.refilledAt := by positivity
  linarith

theorem Tells.refill_tokens (h : Tells rate created grants bucket) (t : Nat) :
    (bucket.refill t).tokens = min
      (bucket.tokens + rate.permits * ((t - bucket.refilledAt : Nat) : Rat) / rate.window)
      rate.permits := by
  change Quantity.atMost (bucket.tokens + Quantity.seconds (t - bucket.refilledAt) * bucket.rate)
    bucket.capacity = _
  rw [h.rate_eq, h.capacity_eq, seconds_mul_perSecondOf]
  unfold Quantity.atMost
  change (if decide (_ ≤ (rate.permits : Rat)) = true then _ else _) = _
  simp only [decide_eq_true_eq, min_def]

/-- What the rate allows up to a later moment is more by what comes back until then. -/
theorem allowance_sub {u r t : Nat} (rate : Rate) (hu : u ≤ r) (hle : r ≤ t) :
    rate.allowance (t - u) =
      rate.allowance (r - u) + rate.permits * ((t - r : Nat) : Rat) / rate.window := by
  rw [← Rate.allowance_add]
  congr 1
  omega

theorem Tells.refill (h : Tells rate created grants bucket) (hle : bucket.refilledAt ≤ t) :
    Tells rate created grants (bucket.refill t) := by
  have htokens := h.refill_tokens t
  have hpast : ∀ g ∈ grants, g ≤ t := fun g hg => Nat.le_trans (h.past g hg) hle
  have hcount : ∀ u, grantsIn grants u t = grantsIn grants u bucket.refilledAt :=
    fun u => grantsIn_of_le h.past hle
  have hlater : ∀ u, bucket.refilledAt < u → grantsIn grants u t = 0 :=
    fun u hu => grantsIn_eq_zero fun g hg => Nat.lt_of_le_of_lt (h.past g hg) hu
  refine ⟨h.capacity_eq, h.rate_eq, Nat.le_trans h.created_le hle, hpast, ?_, ?_⟩
  · intro u hcreated hu
    change u ≤ t at hu
    change _ ≤ rate.allowance (t - u) - grantsIn grants u t
    rw [htokens]
    rcases Nat.lt_or_ge bucket.refilledAt u with hlt | hge
    · -- nothing was granted since the bucket was last brought up to date
      have hpermits := rate.permits_le_allowance (t - u)
      rw [hlater u hlt, Nat.cast_zero, sub_zero]
      exact (min_le_right _ _).trans hpermits
    · have hleast := h.least u hcreated hge
      rw [allowance_sub rate hge hle, hcount]
      refine (min_le_left _ _).trans ?_
      linarith
  · change ∃ u, created ≤ u ∧ u ≤ t ∧ _ = rate.allowance (t - u) - grantsIn grants u t
    rw [htokens]
    by_cases hfull : bucket.tokens + rate.permits * ((t - bucket.refilledAt : Nat) : Rat) /
        rate.window ≤ rate.permits
    · obtain ⟨u, hcreated, hu, hattained⟩ := h.attained
      refine ⟨u, hcreated, Nat.le_trans hu hle, ?_⟩
      rw [min_eq_left hfull, allowance_sub rate hu hle, hcount, hattained]
      ring
    · -- the bucket ran full, so the moment that decides is now
      have hlt : bucket.refilledAt < t := by
        refine Nat.lt_of_le_of_ne hle fun heq => hfull ?_
        rw [← heq, Nat.sub_self, Nat.cast_zero, mul_zero, zero_div, add_zero]
        exact h.tokens_le
      refine ⟨t, Nat.le_trans h.created_le hle, Nat.le_refl _, ?_⟩
      rw [min_eq_right (le_of_not_ge hfull), hlater t hlt, Nat.sub_self, Rate.allowance_zero,
        Nat.cast_zero, sub_zero]

/-- A grant counts in every interval that reaches up to it. -/
theorem Tells.debit (h : Tells rate created grants bucket) :
    Tells rate created (bucket.refilledAt :: grants) bucket.debit := by
  have hcount : ∀ u, u ≤ bucket.refilledAt →
      ((grantsIn (bucket.refilledAt :: grants) u bucket.refilledAt : Nat) : Rat) =
        grantsIn grants u bucket.refilledAt + 1 := by
    intro u hu
    rw [grantsIn_cons hu (Nat.le_refl _), Nat.cast_add, Nat.cast_one]
  have htokens : bucket.debit.tokens = bucket.tokens - 1 := rfl
  refine ⟨h.capacity_eq, h.rate_eq, h.created_le, ?_, ?_, ?_⟩
  · exact List.forall_mem_cons.mpr ⟨Nat.le_refl _, h.past⟩
  · intro u hcreated hu
    change u ≤ bucket.refilledAt at hu
    change _ ≤ rate.allowance (bucket.refilledAt - u) -
      grantsIn (bucket.refilledAt :: grants) u bucket.refilledAt
    have hleast := h.least u hcreated hu
    rw [htokens, hcount u hu]
    linarith
  · obtain ⟨u, hcreated, hu, hattained⟩ := h.attained
    refine ⟨u, hcreated, hu, ?_⟩
    change _ = rate.allowance (bucket.refilledAt - u) -
      grantsIn (bucket.refilledAt :: grants) u bucket.refilledAt
    rw [htokens, hcount u hu, hattained]
    ring

/-- There is a token if and only if one more grant keeps every interval within its allowance. -/
theorem Tells.one_le_iff (h : Tells rate created grants bucket) :
    1 ≤ bucket.tokens ↔ ∀ u, created ≤ u → u ≤ bucket.refilledAt →
      (grantsIn grants u bucket.refilledAt : Rat) + 1 ≤
        rate.allowance (bucket.refilledAt - u) := by
  constructor
  · intro hone u hcreated hu
    have hleast := h.least u hcreated hu
    linarith
  · intro hall
    obtain ⟨u, hcreated, hu, hattained⟩ := h.attained
    have hu := hall u hcreated hu
    linarith

/-- Of two buckets brought up to date at the same moment neither has less tokens if they have seen
the same grants. -/
theorem Tells.eq {bucket' : TokenBucket Rat} (h : Tells rate created grants bucket)
    (h' : Tells rate created grants bucket') (hat : bucket.refilledAt = bucket'.refilledAt) :
    bucket = bucket' := by
  have htokens : bucket.tokens = bucket'.tokens := by
    obtain ⟨u, hcreated, hu, hattained⟩ := h.attained
    obtain ⟨u', hcreated', hu', hattained'⟩ := h'.attained
    have hle' := h'.least u hcreated (hat ▸ hu)
    have hle := h.least u' hcreated' (hat ▸ hu')
    rw [← hat] at hle' hattained'
    linarith
  obtain ⟨tokens, capacity, refillRate, refilledAt⟩ := bucket
  obtain ⟨tokens', capacity', refillRate', refilledAt'⟩ := bucket'
  have hcapacity := h.capacity_eq.trans h'.capacity_eq.symm
  have hrate := h.rate_eq.trans h'.rate_eq.symm
  simp_all

end TokenBucket

namespace Rate

/-- One more grant at the moment `t` leaves the grants of every interval since the bucket was made
within what the rate allows. -/
def Admits (rate : Rate) (created : Nat) (grants : List Nat) (t : Nat) : Prop :=
  ∀ u, created ≤ u → u ≤ t → (grantsIn grants u t : Rat) + 1 ≤ rate.allowance (t - u)

end Rate

namespace Limiter

variable {σ : Type} [World σ] {limiter : Limiter σ Rat} {created last t : Nat} {grants : List Nat}
  {s : σ}

/-- What callers do with a limiter: they try to take a token, they look how many there are, or they
try once inside a scope, as those do again and again who wait for a token. -/
inductive Visit
  | tryTake
  | look
  | turn (scope : Scope)

/-- Whether a visit gets a token, and the world after it. -/
def visit (limiter : Limiter σ Rat) (now : Moment) (s : σ) : Visit → Bool × σ
  | .tryTake => ((limiter.tryTake now s).1.isOk, (limiter.tryTake now s).2)
  | .look => (false, (limiter.tokens now s).2)
  | .turn scope =>
      match limiter.attempt scope now s with
      | (.ready (.ok ()), s) => (true, s)
      | (.ready (.error _), s) => (false, s)
      | (.later _, s) => (false, s)

/-- A world after any visits at moments that do not go back, with the grants so far and the moment of
the last visit; in between anything may happen to the rest of the world. -/
inductive History (limiter : Limiter σ Rat) (created : Nat) : σ → List Nat → Nat → Prop
  | made {s : σ} (hfull : limiter.bucket.get s = .full limiter.rate created) :
      History limiter created s [] created
  | visited {s : σ} {grants : List Nat} {last t : Nat} (visit : Visit)
      (h : History limiter created s grants last) (hle : last ≤ t) :
      History limiter created (limiter.visit t s visit).2
        (if (limiter.visit t s visit).1 then t :: grants else grants) t
  | elsewhere {s s' : σ} {grants : List Nat} {last : Nat}
      (h : History limiter created s grants last)
      (hkept : limiter.bucket.get s' = limiter.bucket.get s) :
      History limiter created s' grants last

theorem tryTake_cases (limiter : Limiter σ Rat) (t : Moment) (s : σ) :
    (∃ s₁, limiter.tryTake t s = (.ok (), s₁) ∧ 1 ≤ ((limiter.bucket.get s).refill t).tokens ∧
      limiter.bucket.get s₁ = ((limiter.bucket.get s).refill t).debit) ∨
    ∃ wait s₁, limiter.tryTake t s = (.error wait, s₁) ∧
      limiter.bucket.get s₁ = (limiter.bucket.get s).refill t := by
  rcases htake : limiter.tryTake t s with ⟨wait | _, s₁⟩
  · exact .inr ⟨wait, s₁, rfl, get_of_tryTake_error htake⟩
  · have hle := tryTake_ok_iff.mp (congrArg Prod.fst htake)
    exact .inl ⟨s₁, rfl, Quantity.le_rat_iff.mp hle, get_of_tryTake_ok htake⟩

/-- A visit takes a token that is there, or brings the bucket up to date, or leaves it alone. -/
theorem visit_cases (limiter : Limiter σ Rat) (t : Moment) (s : σ) (visit : Visit) :
    ((limiter.visit t s visit).1 = true ∧ 1 ≤ ((limiter.bucket.get s).refill t).tokens ∧
      limiter.bucket.get (limiter.visit t s visit).2 =
        ((limiter.bucket.get s).refill t).debit) ∨
    ((limiter.visit t s visit).1 = false ∧
      (limiter.bucket.get (limiter.visit t s visit).2 = (limiter.bucket.get s).refill t ∨
        limiter.bucket.get (limiter.visit t s visit).2 = limiter.bucket.get s)) := by
  cases visit with
  | tryTake =>
      rcases limiter.tryTake_cases t s with ⟨s₁, htake, hone, hget⟩ | ⟨wait, s₁, htake, hget⟩
      · simp only [Limiter.visit, htake]
        exact .inl ⟨rfl, hone, hget⟩
      · simp only [Limiter.visit, htake]
        exact .inr ⟨rfl, .inl hget⟩
  | look =>
      refine .inr ⟨rfl, .inl ?_⟩
      simp only [Limiter.visit, tokens, limiter.bucket.get_set]
  | turn scope =>
      rcases hended : scope.ended? t with _ | reason
      · rcases limiter.tryTake_cases t s with ⟨s₁, htake, hone, hget⟩ | ⟨wait, s₁, htake, hget⟩
        · simp only [Limiter.visit, attempt, hended, htake]
          exact .inl ⟨trivial, hone, hget⟩
        · simp only [Limiter.visit, attempt, hended, htake, limiter.get_record]
          exact .inr ⟨trivial, .inl hget⟩
      · refine .inr ⟨?_, .inr ?_⟩
        · simp only [Limiter.visit, attempt, hended]
        · simp only [Limiter.visit, attempt, hended]

/-- What holds of a limiter with these grants: its bucket tells of them, and no interval has seen more
of them than the rate allows. -/
structure Lawful (limiter : Limiter σ Rat) (created : Nat) (s : σ) (grants : List Nat)
    (last : Nat) : Prop where
  tells : TokenBucket.Tells limiter.rate created grants (limiter.bucket.get s)
  recent : (limiter.bucket.get s).refilledAt ≤ last
  law : ∀ u v, created ≤ u → u ≤ v → (grantsIn grants u v : Rat) ≤ limiter.rate.allowance (v - u)

theorem Lawful.admits_iff (h : limiter.Lawful created s grants last) (hle : last ≤ t) :
    1 ≤ ((limiter.bucket.get s).refill t).tokens ↔ limiter.rate.Admits created grants t :=
  (h.tells.refill (Nat.le_trans h.recent hle)).one_le_iff

theorem Lawful.visited (h : limiter.Lawful created s grants last) (hle : last ≤ t)
    (visit : Visit) :
    limiter.Lawful created (limiter.visit t s visit).2
      (if (limiter.visit t s visit).1 then t :: grants else grants) t := by
  have hnow := Nat.le_trans h.recent hle
  have htells := h.tells.refill hnow
  rcases limiter.visit_cases t s visit with ⟨hgranted, hone, hget⟩ | ⟨hrefused, hget⟩
  · rw [hgranted, if_pos rfl]
    refine ⟨?_, ?_, ?_⟩
    · rw [hget]
      exact htells.debit
    · rw [hget]
      exact Nat.le_refl t
    · intro u v hcreated huv
      by_cases hin : u ≤ t ∧ t ≤ v
      · have hadmits := (h.admits_iff hle).mp hone u hcreated hin.1
        have hmono := limiter.rate.allowance_mono (show t - u ≤ v - u by omega)
        rw [grantsIn_cons hin.1 hin.2, grantsIn_of_le htells.past hin.2, Nat.cast_add, Nat.cast_one]
        exact hadmits.trans hmono
      · rw [grantsIn_cons_of_not hin]
        exact h.law u v hcreated huv
  · rw [hrefused, if_neg Bool.false_ne_true]
    rcases hget with hget | hget
    · refine ⟨?_, ?_, h.law⟩
      · rw [hget]
        exact htells
      · rw [hget]
        exact Nat.le_refl t
    · refine ⟨?_, ?_, h.law⟩
      · rw [hget]
        exact h.tells
      · rw [hget]
        exact hnow

/-- Every history leaves the limiter lawful. -/
theorem History.lawful (h : History limiter created s grants last) :
    limiter.Lawful created s grants last := by
  induction h with
  | made hfull =>
      refine ⟨?_, ?_, ?_⟩
      · rw [hfull]
        exact TokenBucket.tells_full _ _
      · rw [hfull]
        exact Nat.le_refl _
      · intro u v _ _
        have hpermits := limiter.rate.permits_le_allowance (v - u)
        have hnone : (0 : Rat) ≤ limiter.rate.permits := by positivity
        change ((0 : Nat) : Rat) ≤ _
        rw [Nat.cast_zero]
        exact hnone.trans hpermits
  | visited visit _ hle ih => exact ih.visited hle visit
  | elsewhere _ hkept ih =>
      refine ⟨?_, ?_, ih.law⟩
      · rw [hkept]
        exact ih.tells
      · rw [hkept]
        exact ih.recent

theorem turn_eq_true_iff {scope : Scope} :
    (limiter.visit t s (.turn scope)).1 = true ↔
      scope.ended? t = none ∧ (limiter.tryTake t s).1 = .ok () := by
  rcases hended : scope.ended? t with _ | reason
  · rcases htake : limiter.tryTake t s with ⟨wait | _, s₁⟩
    · simp [visit, attempt, hended, htake]
    · simp [visit, attempt, hended, htake]
  · simp [visit, attempt, hended]

theorem world_visit_turn (limiter : Limiter σ Rat) (t : Moment) (s : σ) (scope : Scope) :
    (limiter.visit t s (.turn scope)).2 = (limiter.attempt scope t s).2 := by
  rcases hattempt : limiter.attempt scope t s with ⟨(reason | _) | wake, s₁⟩
  · simp only [visit, hattempt]
  · simp only [visit, hattempt]
  · simp only [visit, hattempt]

/-- Somebody who waits for a token, or has ceased to. -/
inductive Waiting (limiter : Limiter σ Rat) : Flow.Member σ (Except Interruption Unit) → Prop
  | ended {t : Moment} {r : Except Interruption Unit} : Waiting limiter (.ended t r)
  | pending {wake : Moment} {scope : Scope} :
      Waiting limiter (.pending wake (limiter.acquire scope))

/-- The moments at which answers came that bring a token. -/
def granted (answers : List (Moment × Except Interruption Unit)) : List Nat :=
  (answers.filter fun answer => answer.2.isOk).map Prod.fst

/-- The callers that are waited for at a moment go on waiting or end, and their visits bring a grant for
each of the answers with a token. -/
theorem history_turn {now : Nat} {members : List (Flow.Member σ (Except Interruption Unit))}
    (hmembers : ∀ member ∈ members, limiter.Waiting member)
    (h : History limiter created s grants last) (hle : last ≤ now) :
    (∀ member ∈ (Flow.turn now members s).1, limiter.Waiting member) ∧
      ∃ more last', History limiter created (Flow.turn now members s).2 (more ++ grants) last' ∧
        last' ≤ now ∧
        (granted (Flow.results (Flow.turn now members s).1)).Perm
          (more ++ granted (Flow.results members)) := by
  induction members generalizing s grants last with
  | nil => exact ⟨hmembers, [], last, h, hle, .refl _⟩
  | cons member rest ih =>
      obtain ⟨hmember, hrest⟩ := List.forall_mem_cons.mp hmembers
      cases hmember with
      | @ended t r =>
          obtain ⟨hwaiting, more, last', hhistory, hle', hperm⟩ := ih hrest h hle
          refine ⟨List.forall_mem_cons.mpr ⟨.ended, hwaiting⟩, more, last', hhistory, hle', ?_⟩
          cases r with
          | error reason => exact hperm
          | ok u => exact (hperm.cons t).trans List.perm_middle.symm
      | @pending wake scope =>
          by_cases hwake : wake ≤ now
          · have hvisit := h.visited (.turn scope) hle
            rw [world_visit_turn] at hvisit
            obtain ⟨hwaiting, more, last', hhistory, hle', hperm⟩ := ih hrest hvisit (Nat.le_refl now)
            simp only [Flow.turn, hwake, ↓reduceIte, acquire, Flow.advance]
            rcases hattempt : limiter.attempt scope now s with ⟨(reason | u) | wake', s₁⟩
            · simp only [visit, hattempt, Bool.false_eq_true, ↓reduceIte] at hwaiting hhistory hperm
              exact ⟨List.forall_mem_cons.mpr ⟨.ended, hwaiting⟩, more, last', hhistory, hle', hperm⟩
            · simp only [visit, hattempt, ↓reduceIte] at hwaiting hhistory hperm
              refine ⟨List.forall_mem_cons.mpr ⟨.ended, hwaiting⟩, more ++ [now], last', ?_, hle', ?_⟩
              · rwa [List.append_assoc]
              · rw [List.append_assoc]
                exact (hperm.cons now).trans List.perm_middle.symm
            · simp only [visit, hattempt, Bool.false_eq_true, ↓reduceIte] at hwaiting hhistory hperm
              exact ⟨List.forall_mem_cons.mpr ⟨.pending, hwaiting⟩, more, last', hhistory, hle', hperm⟩
          · obtain ⟨hwaiting, more, last', hhistory, hle', hperm⟩ := ih hrest h hle
            simp only [Flow.turn, hwake, ↓reduceIte]
            exact ⟨List.forall_mem_cons.mpr ⟨.pending, hwaiting⟩, more, last', hhistory, hle', hperm⟩

/-- However many wait for a token side by side, what they do is a history, with a grant for each of
their answers that bring a token. -/
theorem history_runAll {fuel now : Nat}
    {members : List (Flow.Member σ (Except Interruption Unit))}
    {outcome : Flow.Outcome σ (List (Moment × Except Interruption Unit))}
    (hmembers : ∀ member ∈ members, limiter.Waiting member)
    (h : History limiter created s grants last) (hle : last ≤ now)
    (hrun : Flow.runAll now members s fuel = some outcome) :
    ∃ more last', History limiter created outcome.world (more ++ grants) last' ∧
      last' ≤ outcome.moment ∧
      (granted outcome.value).Perm (more ++ granted (Flow.results members)) := by
  induction fuel generalizing now members s grants last with
  | zero => simp [Flow.runAll] at hrun
  | succ fuel ih =>
      obtain ⟨hwaiting, more, last', hhistory, hle', hperm⟩ := history_turn hmembers h hle
      cases hnext : Flow.nextWake (Flow.turn now members s).1 with
      | none =>
          simp only [Flow.runAll, hnext, Option.some.injEq] at hrun
          subst hrun
          exact ⟨more, last', hhistory, hle', hperm⟩
      | some wake =>
          simp only [Flow.runAll, hnext] at hrun
          have hmove : now ≤ Moment.tick (max now wake) :=
            Nat.le_trans (Nat.le_max_left now wake) (Moment.le_tick (max now wake))
          obtain ⟨more', last'', hhistory', hlast, hperm'⟩ :=
            ih hwaiting hhistory (Nat.le_trans hle' hmove) hrun
          refine ⟨more' ++ more, last'', ?_, hlast, ?_⟩
          · rwa [List.append_assoc]
          · rw [List.append_assoc]
            exact hperm'.trans (hperm.append_left more')

/-- Who tries to take a token gets one if and only if the rate admits one more grant; so no interval
sees more grants than the rate allows, and of all that went before nothing counts but the grants.  It
stays so when any number of callers wait for tokens side by side: each answer with a token is a grant at
its moment, and there are no other grants. -/
theorem tryTake_ok_iff_admits (h : History limiter created s grants last) :
    (∀ t, last ≤ t →
      ((limiter.tryTake t s).1 = .ok () ↔ limiter.rate.Admits created grants t)) ∧
    (∀ scope t, last ≤ t → ((limiter.visit t s (.turn scope)).1 = true ↔
      scope.ended? t = none ∧ limiter.rate.Admits created grants t)) ∧
    (∀ u v, created ≤ u → u ≤ v →
      (grantsIn grants u v : Rat) ≤ limiter.rate.allowance (v - u)) ∧
    (∀ s' last', History limiter created s' grants last' → ∀ t, last ≤ t → last' ≤ t →
      (limiter.bucket.get s').refill t = (limiter.bucket.get s).refill t ∧
      (limiter.tryTake t s').1 = (limiter.tryTake t s).1) ∧
    ∀ now members fuel outcome, last ≤ now → (∀ member ∈ members, limiter.Waiting member) →
      Flow.runAll now members s fuel = some outcome →
        ∃ more last', History limiter created outcome.world (more ++ grants) last' ∧
          last' ≤ outcome.moment ∧
          (granted outcome.value).Perm (more ++ granted (Flow.results members)) := by
  have hlawful := h.lawful
  have hadmits : ∀ t, last ≤ t →
      ((limiter.tryTake t s).1 = .ok () ↔ limiter.rate.Admits created grants t) := by
    intro t hle
    rw [tryTake_ok_iff, Quantity.le_rat_iff, hlawful.admits_iff hle]
  refine ⟨hadmits, ?_, hlawful.law, ?_, ?_⟩
  · intro scope t hle
    rw [turn_eq_true_iff, hadmits t hle]
  · intro s' last' h' t hle hle'
    have htells := hlawful.tells.refill (Nat.le_trans hlawful.recent hle)
    have htells' := h'.lawful.tells.refill (Nat.le_trans h'.lawful.recent hle')
    have hbucket := htells'.eq htells rfl
    refine ⟨hbucket, ?_⟩
    simp only [tryTake, TokenBucket.take, hbucket]
  · intro now members fuel outcome hle hmembers hrun
    exact history_runAll hmembers h hle hrun

end Limiter

namespace BucketLawWitness

/-- A world that is nothing but a bucket. -/
structure Cellar where
  bucket : TokenBucket Rat

instance : World Cellar where
  record _ cellar := cellar
  random cellar := (0, cellar)

def limiter : Limiter Cellar Rat where
  rate := .perSecond 1
  bucket := { get := Cellar.bucket, set := fun bucket _ => ⟨bucket⟩ }

def stocked : Cellar := ⟨.full limiter.rate 0⟩

/-- The cellar after a grant at the beginning and a look after half a second. -/
def cellar : Cellar :=
  (limiter.visit (Span.ofMillis 500) (limiter.visit 0 stocked .tryTake).2 .look).2

theorem history_cellar : limiter.History 0 cellar [0] (Span.ofMillis 500) := by
  have hgranted : (limiter.visit 0 stocked .tryTake).1 = true := by decide +kernel
  have hmade : limiter.History 0 stocked [] 0 := .made rfl
  have hfirst := hmade.visited .tryTake (Nat.le_refl 0)
  rw [hgranted, if_pos rfl] at hfirst
  exact hfirst.visited .look (Nat.zero_le _)

/-- The rate admits the next grant after a second and not a millisecond before. -/
theorem next_token_after_a_second :
    limiter.History 0 cellar [0] (Span.ofMillis 500) ∧
      ¬ limiter.rate.Admits 0 [0] (Span.ofMillis 999) ∧
      limiter.rate.Admits 0 [0] (Span.ofSeconds 1) := by
  have hadmits := (Limiter.tryTake_ok_iff_admits history_cellar).1
  refine ⟨history_cellar, ?_, ?_⟩
  · rw [← hadmits _ (by decide)]
    decide +kernel
  · rw [← hadmits _ (by decide)]
    decide +kernel

end BucketLawWitness
end Courier
