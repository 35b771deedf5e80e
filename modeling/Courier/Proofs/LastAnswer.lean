import Courier.Proofs.FailureShape
import Courier.Proofs.ScopeBound
/-!
The last answer.  When the scope of a request is over, the failure keeps the answer of the attempt
that was the last one, and no other: an answer that was received before is lost if the last attempt
received none.
-/
namespace Courier

namespace Client

variable {σ : Type} {wire : WireRequest}

/-- The answer that was received in a trial. -/
def Trial.answer? (wire : WireRequest) (trial : Trial σ) : Option Response :=
  match trial.outcome with
  | .answered answer => some (.ofWire answer wire.url trial.number)
  | .unsigned _ | .failed _ => none

/-- The answer that was received last in some trials. -/
def lastAnswer (wire : WireRequest) (trials : List (Trial σ)) : Option Response :=
  (trials.filterMap (Trial.answer? wire)).getLast?

theorem lastAnswer_concat (wire : WireRequest) (history : List (Trial σ)) (last : Trial σ) :
    lastAnswer wire (history ++ [last]) = (last.answer? wire).or (lastAnswer wire history) := by
  unfold lastAnswer
  rw [List.filterMap_append, List.getLast?_append]
  cases hanswer : last.answer? wire with
  | none => simp [hanswer]
  | some response => simp [hanswer]

/-- There is a last answer if there is any. -/
theorem lastAnswer_eq_none_iff {trials : List (Trial σ)} :
    lastAnswer wire trials = none ↔ ∀ trial ∈ trials, trial.answer? wire = none := by
  simp [lastAnswer]

/-- A failure at the end of an attempt has the answer of the attempt. -/
theorem response_of_resultOf {trial : Trial σ} {failure : Failure}
    (h : resultOf wire trial.number trial.outcome = .error failure) :
    failure.response = trial.answer? wire := by
  unfold Trial.answer?
  cases houtcome : trial.outcome with
  | answered answer =>
      by_cases hstatus : answer.status < 400
      · simp [houtcome, resultOf, hstatus] at h
      · rw [houtcome, resultOf, if_neg hstatus, Except.error.injEq] at h
        rw [← h]
        rfl
  | unsigned cause =>
      rw [houtcome, resultOf, Except.error.injEq] at h
      rw [← h]
  | failed cause =>
      rw [houtcome, resultOf, Except.error.injEq] at h
      rw [← h]

variable [World σ] {client : Client σ} {others : σ → σ → Prop} {scope : Scope} {request : Request}

/-- A course that ends with the scope fails with the answer of its last trial. -/
theorem Course.of_ended {first : Nat} {t t' : Moment} {trials : List (Trial σ)}
    {result : Except Failure Response} {reason : Interruption}
    (h : client.Course others scope wire first t trials result t')
    (hended : scope.ended? t' = some reason) :
    ∃ history last failure, trials = history ++ [last] ∧ result = .error failure ∧
      failure.kind = .ofInterruption reason ∧ failure.response = last.answer? wire := by
  induction h with
  | @final trial hgenuine _ _ =>
      obtain ⟨_, _, hattempt⟩ := hgenuine.attempted
      have houtcome := attempt_of_ended hattempt hended
      refine ⟨[], trial, _, rfl, congrArg (resultOf wire trial.number) houtcome, rfl, ?_⟩
      rw [Trial.answer?, houtcome]
  | @interrupted trial failure reason' _ _ _ _ _ hfailure _ hpause =>
      rcases run_pause hpause with ⟨hr, _⟩ | ⟨_, hr, hended'⟩
      · simp at hr
      · rw [hended, Option.some.injEq] at hended'
        rw [Except.error.injEq] at hr
        have hresponse := response_of_resultOf hfailure
        refine ⟨[], trial, _, rfl, rfl, ?_, hresponse⟩
        rw [hended', ← hr]
        rfl
  | @again trial _ _ _ _ _ _ _ _ _ _ _ _ _ ih =>
      obtain ⟨history, last, failure, rfl, hresult, hkind, hresponse⟩ := ih hended
      exact ⟨trial :: history, last, failure, rfl, hresult, hkind, hresponse⟩

/-- A request that returns when its scope is over fails with the answer of its last attempt.  That is
the last answer that it received if its last attempt received one, or none did. -/
theorem execute_keeps_answer_of_last_attempt {t t' : Moment} {s s' : σ}
    {steps : List (Flow.Step σ)} {result : Except Failure Response}
    (hprepare : request.prepare client.settings = .ok wire)
    (hrun : Flow.Run others (client.execute scope request) t s steps result t' s') :
    (∃ reason, Flow.Run others (client.awaitToken scope) t s steps (.error reason) t' s' ∧
      result = .error (request.failBefore client.settings .rateLimit (.admission reason))) ∨
    ∃ t₀ s₀ admission trials,
      Flow.Run others (client.awaitToken scope) t s admission (.ok ()) t₀ s₀ ∧
      steps = admission ++ ⟨t₀, s₀, s₀⟩ :: trials.flatMap Trial.steps ∧
      client.Course others (client.scopeOf scope request t₀) wire 1 t₀ trials result t' ∧
      ∀ reason, (client.scopeOf scope request t₀).ended? t' = some reason →
        ∃ history last failure, trials = history ++ [last] ∧ result = .error failure ∧
          failure.kind = .ofInterruption reason ∧ failure.response = last.answer? wire ∧
          (failure.response = lastAnswer wire trials ↔
            last.answer? wire ≠ none ∨ ∀ trial ∈ history, trial.answer? wire = none) := by
  rcases course_of_run_execute hprepare hrun with
    hturned | ⟨t₀, s₀, admission, trials, hadmission, hsteps, hcourse⟩
  · exact .inl hturned
  · refine .inr ⟨t₀, s₀, admission, trials, hadmission, hsteps, hcourse, ?_⟩
    intro reason hended
    obtain ⟨history, last, failure, rfl, hresult, hkind, hresponse⟩ := hcourse.of_ended hended
    refine ⟨history, last, failure, rfl, hresult, hkind, hresponse, ?_⟩
    rw [hresponse, lastAnswer_concat, ← lastAnswer_eq_none_iff]
    cases hanswer : last.answer? wire with
    | some response => simp
    | none => simp [eq_comm]

end Client

namespace LastAnswerWitness

open Rehearsal

def busy : WireResponse :=
  { status := 503, headers := ⟨[(.retryAfter, ⟨Octets.ofText "2", false⟩)]⟩ }

/-- A client of a server that is busy for a second and slow after that. -/
def client : Client Stage :=
  { settings := RetryScheduleWitness.settings
    transport := fun _ => Flow.now.bind fun t =>
      if t < Span.ofSeconds 1 then .done (.ok busy)
      else (Flow.sleep (Span.ofSeconds 10)).bind fun _ => .done (.ok { status := 200 }) }

def request (timeout : Span) : Request :=
  { TokenAccountWitness.request with timeout := some timeout }

/-- When a request of the client ends, and with what failure. -/
def ending (timeout : Span) : Option (Moment × Option (FailureKind × Nat × Option Nat)) :=
  ((client.execute .unbounded (request timeout)).run 0 .empty 3).map fun outcome =>
    (outcome.moment, FailureShapeWitness.partsOf outcome.value)

/-- The run of a request of which it is known how it ends. -/
theorem exists_run_of_ending {timeout : Span} {t' : Moment} {kind : FailureKind} {attempts : Nat}
    {status : Option Nat} (h : ending timeout = some (t', some (kind, attempts, status))) :
    ∃ steps failure s', Flow.Run Eq (client.execute .unbounded (request timeout)) 0 .empty steps
      (.error failure) t' s' ∧ failure.kind = kind ∧ failure.attempts = attempts ∧
      failure.response.map (·.status) = status := by
  obtain ⟨outcome, steps, _, hvalue, hsteps⟩ := Flow.exists_run_of_map h
  rw [Prod.mk.injEq] at hvalue
  obtain ⟨rfl, hparts⟩ := hvalue
  obtain ⟨failure, hresult, hparts⟩ := FailureShapeWitness.exists_failure_of_partsOf hparts
  rw [hresult] at hsteps
  exact ⟨steps, failure, _, hsteps, hparts⟩

/-- The request is admitted at once, since nobody limits the client. -/
theorem admitted_at_once {steps : List (Flow.Step Stage)} {r : Except Interruption Unit}
    {t' : Moment} {s' : Stage}
    (h : Flow.Run Eq (client.awaitToken .unbounded) 0 .empty steps r t' s') :
    r = .ok () ∧ t' = 0 := by
  simp only [Client.awaitToken, client, Flow.pure_eq, Flow.run_done_iff] at h
  exact ⟨h.2.1, h.2.2.1⟩

/-- An attempt that starts at once gets the busy answer. -/
theorem outcome_eq_busy {trial : Client.Trial Stage} {scope : Scope}
    (hgenuine : trial.Genuine client Eq scope RetryScheduleWitness.wire)
    (hbegan : trial.began = 0) (hopen : scope.ended? 0 = none) :
    trial.outcome = .answered busy := by
  obtain ⟨s, _, hattempt⟩ := hgenuine.attempted
  have hbusy : (client.attempt scope RetryScheduleWitness.wire).run 0 s 1 =
      some ⟨.answered busy, 0, s⟩ := by
    simp [Client.attempt, Client.send, client, Client.handler, Middleware.around, Flow.run,
      Flow.advance, Flow.within, Flow.guarded, Flow.guardPoll, Flow.bind, bind, Flow.now, Flow.act,
      hopen, Span.ofSeconds]
  obtain ⟨steps, hsteps⟩ := Flow.exists_run_of_run hbusy
  rw [hbegan] at hattempt
  exact (hattempt.unique hsteps).2.1

theorem prepare_request (timeout : Span) :
    (request timeout).prepare client.settings = .ok RetryScheduleWitness.wire := by
  have h : TokenAccountWitness.request.prepare RetryScheduleWitness.settings =
      .ok RetryScheduleWitness.wire := by
    rfl
  rw [← h]
  unfold Request.prepare
  rfl

/-- With one second the request ends in the wait after the busy answer, and the answer is kept. -/
theorem answer_kept_in_wait :
    ∃ steps failure s' trials,
      Flow.Run Eq (client.execute .unbounded (request (Span.ofSeconds 1))) 0 .empty steps
        (.error failure) (Span.ofSeconds 1) s' ∧
      client.Course Eq (client.scopeOf .unbounded (request (Span.ofSeconds 1)) 0)
        RetryScheduleWitness.wire 1 0 trials (.error failure) (Span.ofSeconds 1) ∧
      failure.response.map (·.status) = some 503 ∧
      failure.response = Client.lastAnswer RetryScheduleWitness.wire trials := by
  have hending : ending (Span.ofSeconds 1) =
      some (Span.ofSeconds 1, some (.timeout, 1, some 503)) := by decide +kernel
  obtain ⟨steps, failure, s', hrun, _, _, hstatus⟩ := exists_run_of_ending hending
  rcases Client.execute_keeps_answer_of_last_attempt (prepare_request _) hrun with
    ⟨reason, hturned, _⟩ | ⟨t₀, _, _, trials, hadmission, _, hcourse, hkept⟩
  · exact absurd (admitted_at_once hturned).1 nofun
  · obtain ⟨_, rfl⟩ := admitted_at_once hadmission
    obtain ⟨_, last, _, _, hfailure, _, hlast, hkept⟩ := hkept .deadlineExceeded (by decide)
    rw [Except.error.injEq] at hfailure
    rw [← hfailure] at hlast hkept
    have hanswered : last.answer? RetryScheduleWitness.wire ≠ none := by
      rw [← hlast]
      intro hnone
      simp [hnone] at hstatus
    exact ⟨steps, failure, s', trials, hrun, hcourse, hstatus, hkept.mpr (.inl hanswered)⟩

/-- With three seconds it ends in the second attempt, and the busy answer is lost. -/
theorem earlier_answer_lost :
    ∃ steps failure s' trials,
      Flow.Run Eq (client.execute .unbounded (request (Span.ofSeconds 3))) 0 .empty steps
        (.error failure) (Span.ofSeconds 3) s' ∧
      client.Course Eq (client.scopeOf .unbounded (request (Span.ofSeconds 3)) 0)
        RetryScheduleWitness.wire 1 0 trials (.error failure) (Span.ofSeconds 3) ∧
      (client.scopeOf .unbounded (request (Span.ofSeconds 3)) 0).ended? (Span.ofSeconds 3) =
        some .deadlineExceeded ∧
      (∃ trial ∈ trials, trial.outcome = .answered busy) ∧
      failure.kind = .timeout ∧ failure.attempts = 2 ∧ failure.response = none ∧
      Client.lastAnswer RetryScheduleWitness.wire trials ≠ none := by
  have hending : ending (Span.ofSeconds 3) =
      some (Span.ofSeconds 3, some (.timeout, 2, none)) := by decide +kernel
  obtain ⟨steps, failure, s', hrun, hkind, hattempts, hstatus⟩ := exists_run_of_ending hending
  rcases Client.course_of_run_execute (prepare_request _) hrun with
    ⟨reason, hturned, _⟩ | ⟨t₀, _, _, trials, hadmission, _, hcourse⟩
  · exact absurd (admitted_at_once hturned).1 nofun
  · obtain ⟨_, rfl⟩ := admitted_at_once hadmission
    obtain ⟨first, rest, hfirst, _, hbegan, hgenuine⟩ := hcourse.exists_head
    have hbusy := outcome_eq_busy hgenuine hbegan (by decide)
    have hmem : first ∈ trials := by simp [hfirst]
    have hanswered : Client.lastAnswer RetryScheduleWitness.wire trials ≠ none := by
      intro hnone
      have hunanswered := Client.lastAnswer_eq_none_iff.mp hnone first hmem
      simp [Client.Trial.answer?, hbusy] at hunanswered
    exact ⟨steps, failure, s', trials, hrun, hcourse, by decide, ⟨first, hmem, hbusy⟩, hkind,
      hattempts, Option.map_eq_none_iff.mp hstatus, hanswered⟩

end LastAnswerWitness
end Courier
