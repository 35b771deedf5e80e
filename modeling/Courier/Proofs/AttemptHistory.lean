import Courier.Proofs.AttemptLoop
/-!
Histories of attempts.  Every request that is admitted makes its attempts one after the other, each
of them at the same wire request, with a wait in between.  The last attempt is final, or the scope
ends before the wait after it does.  So a fact about what a request comes to is a fact about these
two ends, carried over the attempts before them.
-/
namespace Courier

namespace Moment

/-- The moment at which somebody goes on who waits for a span from now on: the first whole millisecond
that is not before the end of the span.  Who need not wait goes on at once, and a span that passes the
end of the clock is cut. -/
def afterWait (t : Moment) (d : Span) : Moment :=
  if t + d < last then if d = 0 then t else tick (t + d) else tick (t + farAway)

theorem afterWait_eq (t d : Nat) :
    afterWait t d = if wakeAfter t d ≤ t then t else tick (wakeAfter t d) := by
  have hfar : ¬ t + farAway ≤ t := Nat.not_le.mpr (Nat.lt_add_of_pos_right (by decide))
  have hstay : t + d ≤ t ↔ d = 0 := by omega
  unfold afterWait wakeAfter add?
  by_cases hlast : t + d < last
  · simp only [if_pos hlast, Option.getD_some, hstay]
  · simp only [if_neg hlast, Option.getD_none, if_neg hfar]

end Moment

namespace Flow

variable {σ : Type} {others : σ → σ → Prop}

theorem run_sleepUntil {wake t t' : Moment} {s s' : σ} {steps : List (Step σ)} {u : Unit}
    (h : Run others (sleepUntil wake) t s steps u t' s') :
    t' = if wake ≤ t then t else Moment.tick wake := by
  by_cases hwake : wake ≤ t
  · obtain ⟨_, _, _, hrest, _⟩ := h.of_ready (by rw [if_pos hwake])
    simp only [run_done_iff] at hrest
    rw [if_pos hwake]
    exact hrest.2.2.1
  · obtain ⟨_, _, _, hrest, _⟩ := h.of_later (by rw [if_neg hwake])
    rw [Nat.max_eq_right (Nat.le_of_not_le hwake)] at hrest
    obtain ⟨_, _, _, hdone, _⟩ := hrest.of_ready (by rw [if_pos (Moment.le_tick wake)])
    simp only [run_done_iff] at hdone
    rw [if_neg hwake]
    exact hdone.2.2.1

theorem run_sleep {d : Span} {t t' : Moment} {s s' : σ} {steps : List (Step σ)} {u : Unit}
    (h : Run others (sleep d) t s steps u t' s') : t' = t.afterWait d := by
  obtain ⟨_, t₁, t₂, _, _, hnow, hwait, _⟩ := run_bind_iff.mp h
  simp only [now, run_act_iff] at hnow
  obtain ⟨_, rfl, rfl, _⟩ := hnow
  rw [Moment.afterWait_eq]
  exact run_sleepUntil hwait

end Flow

namespace Client

variable {σ : Type} [World σ] {client : Client σ} {others : σ → σ → Prop} {scope : Scope}
  {request : Request} {wire : WireRequest}

/-- What a request comes to if this is the outcome of its last attempt. -/
def resultOf (wire : WireRequest) (number : Nat) : Outcome → Except Failure Response
  | .answered answer =>
      let response : Response :=
        { status := answer.status, headers := answer.headers, body := answer.body, url := wire.url,
          attempts := number }
      if answer.status < 400 then .ok response
      else
        .error
          { kind := .http, method := wire.method, url := wire.url.toText, attempts := number,
            response := some response }
  | .unsigned cause =>
      .error
        { kind := .unknown, method := wire.method, url := wire.url.toText, attempts := number,
          cause := some (.signing cause) }
  | .failed cause =>
      .error
        { kind := .ofTransport cause, method := wire.method, url := wire.url.toText,
          attempts := number, cause := some (.transport cause) }

/-- This is the last number that an attempt can have: what the policy says, one at least, and one if
there is no policy. -/
def IsLast (client : Client σ) (number : Nat) : Prop :=
  number = client.settings.retry.elim 1 fun policy => max 1 policy.maxAttempts

/-- With this outcome an attempt is the last one. -/
def Concludes (client : Client σ) (number : Nat) : Outcome → Prop
  | .answered answer =>
      answer.status < 400 ∨ (∀ policy ∈ client.settings.retry, answer.status ∉ policy.statuses) ∨
        client.IsLast number
  | .unsigned _ => True
  | .failed _ => client.IsLast number

theorem isLast_iff {number : Nat} : client.IsLast number ↔ number = client.attempts := by
  unfold IsLast attempts RetryPolicy.attempts
  cases client.settings.retry with
  | none => exact Iff.rfl
  | some policy => exact Iff.rfl

/-- The wait after an attempt: what the answer asks for, else what the policy says. -/
def delayAfter (client : Client σ) (number : Nat) (outcome : Outcome) (bits : Nat) : Span :=
  match client.settings.retry with
  | none => 0
  | some policy =>
      let backoff := policy.backoffWith number (RetryPolicy.drawOfBits bits)
      match outcome with
      | .answered answer => (RetryPolicy.retryAfter answer.headers).getD backoff
      | .unsigned _ | .failed _ => backoff

theorem judge_eq (client : Client σ) (wire : WireRequest) (number : Nat) (draw : Float)
    (outcome : Outcome) :
    client.judge wire number draw outcome =
      match resultOf wire number outcome with
      | .ok response => .success response
      | .error failure => .failure failure (client.decide number draw outcome) := by
  cases outcome with
  | answered answer =>
      by_cases hstatus : answer.status < 400
      · simp [judge, resultOf, Status.isFailure, Response.ofWire, hstatus, Nat.not_le.mpr hstatus]
      · simp [judge, resultOf, Status.isFailure, Response.ofWire, Failure.ofResponse, hstatus,
          Nat.le_of_not_lt hstatus]
  | unsigned cause => rfl
  | failed cause => rfl

/-- What is final is not tried again. -/
theorem decide_of_concludes {number : Nat} {outcome : Outcome} {failure : Failure} (draw : Float)
    (h : client.Concludes number outcome) (hresult : resultOf wire number outcome = .error failure) :
    client.decide number draw outcome = .stop := by
  unfold decide
  cases hpolicy : client.settings.retry with
  | none => rfl
  | some policy =>
      have hlast : client.IsLast number → policy.maxAttempts ≤ number := by
        intro hnumber
        rw [IsLast, hpolicy, Option.elim_some] at hnumber
        rw [hnumber]
        exact Nat.le_max_right 1 _
      cases outcome with
      | answered answer =>
          simp only [RetryPolicy.afterStatus]
          rcases h with hstatus | hstatus | hnumber
          · simp [resultOf, hstatus] at hresult
          · simp [RetryPolicy.retries, hstatus policy (by simp [hpolicy])]
          · simp [hlast hnumber]
      | unsigned cause => rfl
      | failed cause => simp [RetryPolicy.afterFailure, hlast h]

theorem ne_attempts_of_not_concludes {number : Nat} {outcome : Outcome}
    (h : ¬ client.Concludes number outcome) : number ≠ client.attempts := by
  intro hnumber
  have hlast : client.IsLast number := isLast_iff.mpr hnumber
  cases outcome with
  | answered answer => exact h (.inr (.inr hlast))
  | unsigned cause => exact h trivial
  | failed cause => exact h hlast

/-- What is not final is tried again after the delay. -/
theorem decide_of_not_concludes {number : Nat} {outcome : Outcome} (bits : Nat)
    (hone : 1 ≤ number) (hle : number ≤ client.attempts)
    (h : ¬ client.Concludes number outcome) :
    client.decide number (RetryPolicy.drawOfBits bits) outcome =
      .retry (client.delayAfter number outcome bits) := by
  have hlt := Nat.lt_of_le_of_ne hle (ne_attempts_of_not_concludes h)
  unfold decide delayAfter
  cases hpolicy : client.settings.retry with
  | none =>
      simp only [attempts, hpolicy] at hlt
      omega
  | some policy =>
      have hmore : ¬ policy.maxAttempts ≤ number := by
        simp only [attempts, hpolicy, RetryPolicy.attempts] at hlt
        omega
      cases outcome with
      | answered answer =>
          have hretries : policy.retries answer.status = true := by
            by_contra hnot
            exact h (.inr (.inl (by simpa [RetryPolicy.retries, hpolicy] using hnot)))
          simp [RetryPolicy.afterStatus, hmore, hretries]
      | unsigned cause => exact absurd trivial h
      | failed cause => simp [RetryPolicy.afterFailure, hmore]

theorem judge_of_concludes {number : Nat} {outcome : Outcome} (wire : WireRequest) (draw : Float)
    (h : client.Concludes number outcome) :
    (∃ response, resultOf wire number outcome = .ok response ∧
      client.judge wire number draw outcome = .success response) ∨
    ∃ failure, resultOf wire number outcome = .error failure ∧
      client.judge wire number draw outcome = .failure failure .stop := by
  rw [judge_eq]
  cases hresult : resultOf wire number outcome with
  | ok response => exact .inl ⟨response, rfl, rfl⟩
  | error failure =>
      refine .inr ⟨failure, rfl, ?_⟩
      simp only [decide_of_concludes draw h hresult]

theorem judge_of_not_concludes {number : Nat} {outcome : Outcome} (wire : WireRequest) (bits : Nat)
    (hone : 1 ≤ number) (hle : number ≤ client.attempts)
    (h : ¬ client.Concludes number outcome) :
    ∃ failure, resultOf wire number outcome = .error failure ∧
      client.judge wire number (RetryPolicy.drawOfBits bits) outcome =
        .failure failure (.retry (client.delayAfter number outcome bits)) := by
  rw [judge_eq, decide_of_not_concludes bits hone hle h]
  cases outcome with
  | answered answer =>
      have hstatus : ¬ answer.status < 400 := fun hlt => h (.inl hlt)
      simp only [resultOf, if_neg hstatus]
      exact ⟨_, rfl, rfl⟩
  | unsigned cause => exact ⟨_, rfl, rfl⟩
  | failed cause => exact ⟨_, rfl, rfl⟩

/-- An attempt with all that belongs to it: the report that announces it, its polls, what it came
to, the random bits drawn after it, and the polls of the wait until the next one. -/
structure Trial (σ : Type) where
  number : Nat
  report : Flow.Step σ
  polls : List (Flow.Step σ)
  outcome : Outcome
  draw : Flow.Step σ
  pause : List (Flow.Step σ)

namespace Trial

def began (trial : Trial σ) : Moment := trial.report.moment

def ended (trial : Trial σ) : Moment := trial.draw.moment

def bits (trial : Trial σ) : Nat := (World.random trial.draw.before).1

def steps (trial : Trial σ) : List (Flow.Step σ) :=
  trial.report :: trial.polls ++ trial.draw :: trial.pause

/-- The trial is one attempt of the client. -/
structure Genuine (client : Client σ) (others : σ → σ → Prop) (scope : Scope) (wire : WireRequest)
    (trial : Trial σ) : Prop where
  announced : trial.report.after = World.record
    (.sending wire.method wire.url.toText trial.number client.attempts) trial.report.before
  attempted : ∃ s, others trial.report.after s ∧
    Flow.Run others (client.attempt scope wire) trial.began s trial.polls trial.outcome
      trial.ended trial.draw.before
  drawn : trial.draw.after = (World.random trial.draw.before).2

def delay (client : Client σ) (trial : Trial σ) : Span :=
  client.delayAfter trial.number trial.outcome trial.bits

end Trial

/-- One attempt with its report and its draw is a trial. -/
theorem run_tryOnce {number : Nat} {t t' : Moment} {s s' : σ} {steps : List (Flow.Step σ)}
    {verdict : Verdict}
    (h : Flow.Run others (client.tryOnce scope wire number) t s steps verdict t' s') :
    ∃ trial : Trial σ, trial.Genuine client others scope wire ∧ trial.pause = [] ∧
      trial.number = number ∧ trial.began = t ∧ trial.steps = steps ∧ trial.ended = t' ∧
      others trial.draw.after s' ∧
      client.judge wire number (RetryPolicy.drawOfBits trial.bits) trial.outcome = verdict := by
  obtain ⟨_, _, t₁, s₁, rest₁, hreport, hrest₁, rfl⟩ := Flow.run_bind_iff.mp h
  simp only [World.report, Flow.update, Flow.run_act_iff] at hreport
  obtain ⟨rfl, _, rfl, hothers⟩ := hreport
  obtain ⟨polls, outcome, t₂, s₂, rest₂, hattempt, hrest₂, rfl⟩ := Flow.run_bind_iff.mp hrest₁
  obtain ⟨_, bits, t₃, s₃, rest₃, hdraw, hrest₃, rfl⟩ := Flow.run_bind_iff.mp hrest₂
  simp only [World.draw, Flow.run_act_iff] at hdraw
  obtain ⟨rfl, rfl, rfl, hothers'⟩ := hdraw
  simp only [Flow.pure_eq, Flow.run_done_iff] at hrest₃
  obtain ⟨rfl, rfl, rfl, rfl⟩ := hrest₃
  let announce : Event := .sending wire.method wire.url.toText number client.attempts
  let trial : Trial σ :=
    { number, report := ⟨t₁, s, World.record announce s⟩, polls, outcome,
      draw := ⟨t', s₂, (World.random s₂).2⟩, pause := [] }
  have hgenuine : trial.Genuine client others scope wire := ⟨rfl, ⟨s₁, hothers, hattempt⟩, rfl⟩
  exact ⟨trial, hgenuine, rfl, rfl, rfl, rfl, rfl, hothers', rfl⟩

/-- A wait takes as long as it should if the scope outlasts it, and ends with the scope if not. -/
theorem run_pause {number : Nat} {delay : Span} {failure : Failure} {t t' : Moment} {s s' : σ}
    {steps : List (Flow.Step σ)} {r : Except Interruption Unit}
    (h : Flow.Run others (pause scope wire number delay failure) t s steps r t' s') :
    (r = .ok () ∧ t' = t.afterWait delay ∧ scope.ended? t' = none) ∨
      ∃ reason, r = .error reason ∧ scope.ended? t' = some reason := by
  obtain ⟨head, t₁, t₂, s₂, tail, hnow, htail, rfl⟩ := Flow.run_bind_iff.mp h
  simp only [Flow.now, Flow.run_act_iff] at hnow
  obtain ⟨rfl, rfl, rfl, _⟩ := hnow
  rcases hended : scope.ended? t₂ with _ | reason
  · simp only [hended] at htail
    obtain ⟨head, _, t₃, s₃, tail, hreport, hwithin, rfl⟩ := Flow.run_bind_iff.mp htail
    simp only [World.report, Flow.update, Flow.run_act_iff] at hreport
    obtain ⟨rfl, _, rfl, _⟩ := hreport
    rcases Flow.run_within hwithin with ⟨reason, hended', _⟩ | ⟨_, _, _, _, _, hguarded⟩
    · simp [hended] at hended'
    · cases hguarded with
      | whole hrun _ hopen => exact .inl ⟨rfl, Flow.run_sleep hrun, hopen⟩
      | @cut _ reason _ _ _ _ _ _ hended' _ => exact .inr ⟨reason, rfl, hended'⟩
  · simp only [hended, Flow.pure_eq, Flow.run_done_iff] at htail
    obtain ⟨_, rfl, rfl, _⟩ := htail
    exact .inr ⟨reason, rfl, hended⟩

/-- The trials that a request makes in a row from a number and a moment on, and what they come to at
the end. -/
inductive Course (client : Client σ) (others : σ → σ → Prop) (scope : Scope) (wire : WireRequest) :
    Nat → Moment → List (Trial σ) → Except Failure Response → Moment → Prop
  /-- the trial is final -/
  | final {trial : Trial σ} (hgenuine : trial.Genuine client others scope wire)
      (hrests : trial.pause = []) (hstops : client.Concludes trial.number trial.outcome) :
      Course client others scope wire trial.number trial.began [trial]
        (resultOf wire trial.number trial.outcome) trial.ended
  /-- the scope is over before the wait after the trial is -/
  | interrupted {trial : Trial σ} {failure : Failure} {reason : Interruption} {t' : Moment}
      {s s' : σ} (hgenuine : trial.Genuine client others scope wire)
      (hgoes : ¬ client.Concludes trial.number trial.outcome)
      (hfailure : resultOf wire trial.number trial.outcome = .error failure)
      (hothers : others trial.draw.after s)
      (hpause : Flow.Run others (pause scope wire trial.number (trial.delay client) failure)
        trial.ended s trial.pause (.error reason) t' s') :
      Course client others scope wire trial.number trial.began [trial]
        (.error (.ofInterruption wire.method wire.url.toText trial.number reason
          failure.response)) t'
  /-- after the trial and the wait there is another one -/
  | again {trial : Trial σ} {trials : List (Trial σ)} {failure : Failure}
      {result : Except Failure Response} {t₁ t' : Moment} {s s' : σ}
      (hgenuine : trial.Genuine client others scope wire)
      (hgoes : ¬ client.Concludes trial.number trial.outcome)
      (hfailure : resultOf wire trial.number trial.outcome = .error failure)
      (hothers : others trial.draw.after s)
      (hpause : Flow.Run others (pause scope wire trial.number (trial.delay client) failure)
        trial.ended s trial.pause (.ok ()) t₁ s')
      (hrest : Course client others scope wire (trial.number + 1) t₁ trials result t') :
      Course client others scope wire trial.number trial.began (trial :: trials) result t'

/-- A final trial and what comes of it, whatever the loop does with the verdicts that are not final. -/
theorem course_final {trial : Trial σ} {flow : Flow σ (Except Failure Response)}
    {verdict : Verdict} {rest : List (Flow.Step σ)} {result : Except Failure Response} {t' : Moment}
    {s s' : σ} (hgenuine : trial.Genuine client others scope wire) (hrests : trial.pause = [])
    (hstops : client.Concludes trial.number trial.outcome)
    (hverdict : client.judge wire trial.number (RetryPolicy.drawOfBits trial.bits) trial.outcome =
      verdict)
    (hrest : Flow.Run others flow trial.ended s rest result t' s')
    (hsuccess : ∀ response, verdict = .success response → flow = .done (.ok response))
    (hstop : ∀ failure, verdict = .failure failure .stop → flow = .done (.error failure)) :
    client.Course others scope wire trial.number trial.began [trial] result t' ∧
      trial.steps ++ rest = [trial].flatMap Trial.steps := by
  have hdone : flow = .done (resultOf wire trial.number trial.outcome) := by
    rcases judge_of_concludes wire (RetryPolicy.drawOfBits trial.bits) hstops with
      ⟨response, hresult, hjudge⟩ | ⟨failure, hresult, hjudge⟩
    · rw [hresult]
      exact hsuccess response (hverdict.symm.trans hjudge)
    · rw [hresult]
      exact hstop failure (hverdict.symm.trans hjudge)
  rw [hdone, Flow.run_done_iff] at hrest
  obtain ⟨rfl, rfl, rfl, _⟩ := hrest
  exact ⟨.final hgenuine hrests hstops, by simp⟩

/-- Whatever becomes of a request, its attempts make a course. -/
theorem exists_course {first more : Nat} {t t' : Moment} {s s' : σ} {steps : List (Flow.Step σ)}
    {result : Except Failure Response}
    (h : Flow.Run others (client.attemptFrom scope wire first more) t s steps result t' s')
    (hone : 1 ≤ first) (hcount : first + more = client.attempts) :
    ∃ trials, client.Course others scope wire first t trials result t' ∧
      steps = trials.flatMap Trial.steps := by
  induction more generalizing first t s steps with
  | zero =>
      obtain ⟨_, verdict, t₁, s₁, rest, htry, hrest, rfl⟩ := Flow.run_bind_iff.mp h
      obtain ⟨trial, hgenuine, hrests, rfl, rfl, rfl, rfl, _, hverdict⟩ := run_tryOnce htry
      have hstops : client.Concludes trial.number trial.outcome := by
        by_contra hgoes
        exact ne_attempts_of_not_concludes hgoes hcount
      refine ⟨[trial], course_final hgenuine hrests hstops hverdict hrest ?_ ?_⟩
      · rintro response rfl
        rfl
      · rintro failure rfl
        rfl
  | succ more ih =>
      obtain ⟨_, verdict, t₁, s₁, rest, htry, hrest, rfl⟩ := Flow.run_bind_iff.mp h
      obtain ⟨trial, hgenuine, hrests, rfl, rfl, rfl, rfl, hothers, hverdict⟩ := run_tryOnce htry
      by_cases hstops : client.Concludes trial.number trial.outcome
      · refine ⟨[trial], course_final hgenuine hrests hstops hverdict hrest ?_ ?_⟩
        · rintro response rfl
          rfl
        · rintro failure rfl
          rfl
      · -- the loop counts down while the policy counts up: `first + more` stays the number of attempts
        have hle : trial.number ≤ client.attempts := by omega
        obtain ⟨failure, hfailure, hjudge⟩ :=
          judge_of_not_concludes wire trial.bits hone hle hstops
        simp only [← hverdict, hjudge] at hrest
        obtain ⟨pauses, r, t₂, s₂, rest', hpause, hrest', rfl⟩ := Flow.run_bind_iff.mp hrest
        let waited : Trial σ := { trial with pause := pauses }
        have hwaited : waited.Genuine client others scope wire :=
          ⟨hgenuine.announced, hgenuine.attempted, hgenuine.drawn⟩
        have hsteps : trial.steps ++ pauses = waited.steps := by
          simp [Trial.steps, hrests, waited]
        rcases r with reason | _
        · simp only [Flow.pure_eq, Flow.run_done_iff] at hrest'
          obtain ⟨rfl, rfl, rfl, _⟩ := hrest'
          refine ⟨[waited], .interrupted hwaited hstops hfailure hothers hpause, ?_⟩
          simp [hsteps]
        · obtain ⟨trials, hcourse, rfl⟩ := ih hrest' (by omega) (by omega)
          refine ⟨waited :: trials, .again hwaited hstops hfailure hothers hpause hcourse, ?_⟩
          rw [← List.append_assoc, hsteps, List.flatMap_cons]

/-- Every trial of a course starts from the same wire request. -/
theorem Course.genuine {first : Nat} {t t' : Moment} {trials : List (Trial σ)}
    {result : Except Failure Response}
    (h : client.Course others scope wire first t trials result t') :
    ∀ trial ∈ trials, trial.Genuine client others scope wire := by
  induction h with
  | final hgenuine => simpa using hgenuine
  | interrupted hgenuine => simpa using hgenuine
  | again hgenuine _ _ _ _ _ ih => exact List.forall_mem_cons.mpr ⟨hgenuine, ih⟩

/-- The first trial of a course. -/
theorem Course.exists_head {first : Nat} {t t' : Moment} {trials : List (Trial σ)}
    {result : Except Failure Response}
    (h : client.Course others scope wire first t trials result t') :
    ∃ trial rest, trials = trial :: rest ∧ trial.number = first ∧ trial.began = t ∧
      trial.Genuine client others scope wire := by
  cases h with
  | final hgenuine => exact ⟨_, [], rfl, rfl, rfl, hgenuine⟩
  | interrupted hgenuine => exact ⟨_, [], rfl, rfl, rfl, hgenuine⟩
  | again hgenuine => exact ⟨_, _, rfl, rfl, rfl, hgenuine⟩

/-- A prepared request gets no token, or its attempts make a course from the moment on at which it
gets one. -/
theorem course_of_run_execute {t t' : Moment} {s s' : σ} {steps : List (Flow.Step σ)}
    {result : Except Failure Response} (hprepare : request.prepare client.settings = .ok wire)
    (h : Flow.Run others (client.execute scope request) t s steps result t' s') :
    (∃ reason, Flow.Run others (client.awaitToken scope) t s steps (.error reason) t' s' ∧
      result = .error (request.failBefore client.settings .rateLimit (.admission reason))) ∨
    ∃ t₀ s₀ admission trials,
      Flow.Run others (client.awaitToken scope) t s admission (.ok ()) t₀ s₀ ∧
      steps = admission ++ ⟨t₀, s₀, s₀⟩ :: trials.flatMap Trial.steps ∧
      client.Course others (client.scopeOf scope request t₀) wire 1 t₀ trials result t' := by
  rcases run_execute hprepare h with
    hturned | ⟨t₀, s₀, s₁, admission, rest, hadmission, _, rfl, hrest⟩
  · exact .inl hturned
  · have hcount : 1 + (client.attempts - 1) = client.attempts :=
      Nat.add_sub_cancel' (one_le_attempts client)
    obtain ⟨trials, hcourse, rfl⟩ := exists_course hrest (Nat.le_refl 1) hcount
    exact .inr ⟨t₀, s₀, admission, trials, hadmission, rfl, hcourse⟩

end Client
end Courier
