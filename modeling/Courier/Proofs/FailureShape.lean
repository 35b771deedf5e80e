import Courier.Proofs.Preparation
import Courier.Proofs.RetrySchedule
/-!
Shapes of failures.  A failure is made in one of a few ways, at the end of an attempt, between two
attempts or before the first one, and its kind, its cause and its answer fit together in each of
them.  A failure that takes over the answer of an earlier one takes it from the same attempt.
-/
namespace Courier

namespace Client

variable {σ : Type} [World σ] {client : Client σ} {others : σ → σ → Prop} {scope : Scope}
  {request : Request} {wire : WireRequest}

/-- How the parts of a failure of a request fit together. -/
structure Classified (client : Client σ) (request : Request) (failure : Failure) : Prop where
  method : failure.method = request.method
  url : failure.url = (request.url client.settings).toText
  http_iff : failure.kind = .http ↔
    (∃ response ∈ failure.response, 400 ≤ response.status) ∧ failure.cause = none
  parse : failure.kind = .parse →
    ∃ response ∈ failure.response, response.status < 400 ∧ response.body ≠ []
  rateLimit : failure.kind = .rateLimit → failure.attempts = 0 ∧ failure.response = none
  caused : failure.kind ≠ .http → failure.cause ≠ none
  numbered : ∀ response ∈ failure.response, response.attempts = failure.attempts ∧
    1 ≤ response.attempts ∧ response.attempts ≤ client.attempts

/-- The kinds of failures without an answer. -/
theorem kind_ofTransport (cause : TransportFailure) :
    FailureKind.ofTransport cause = .unknown ∨ FailureKind.ofTransport cause = .timeout ∨
      FailureKind.ofTransport cause = .network := by
  cases cause with
  | interrupted reason => cases reason <;> simp [FailureKind.ofTransport, FailureKind.ofInterruption]
  | _ => simp [FailureKind.ofTransport]

/-- A failure of a plain kind needs a cause, and an answer of its own attempt if it has one. -/
theorem classified_of_plain {failure : Failure} (hmethod : failure.method = request.method)
    (hurl : failure.url = (request.url client.settings).toText)
    (hkind : failure.kind = .unknown ∨ failure.kind = .timeout ∨ failure.kind = .network)
    (hcause : failure.cause ≠ none)
    (hnumbered : ∀ response ∈ failure.response, response.attempts = failure.attempts ∧
      1 ≤ response.attempts ∧ response.attempts ≤ client.attempts) :
    client.Classified request failure where
  method := hmethod
  url := hurl
  http_iff := by
    rcases hkind with hkind | hkind | hkind
    all_goals simp [hkind, hcause]
  parse := by
    rcases hkind with hkind | hkind | hkind
    all_goals simp [hkind]
  rateLimit := by
    rcases hkind with hkind | hkind | hkind
    all_goals simp [hkind]
  caused _ := hcause
  numbered := hnumbered

/-- What fails before the first attempt has neither attempts nor an answer. -/
theorem classified_failBefore {kind : FailureKind} {cause : FailureCause}
    (hkind : kind = .unknown ∨ kind = .rateLimit) :
    client.Classified request (request.failBefore client.settings kind cause) := by
  rcases hkind with rfl | rfl
  · exact classified_of_plain rfl rfl (.inl rfl) (by simp [Request.failBefore])
      (by simp [Request.failBefore])
  · constructor
    all_goals simp [Request.failBefore]

/-- What an attempt of a prepared request fails with. -/
theorem classified_resultOf {number : Nat} {outcome : Outcome} {failure : Failure}
    (hprepare : request.prepare client.settings = .ok wire) (hone : 1 ≤ number)
    (hle : number ≤ client.attempts) (hfailure : resultOf wire number outcome = .error failure) :
    client.Classified request failure ∧ failure.attempts = number := by
  obtain ⟨hmethod, hurl⟩ := Request.eq_of_prepare hprepare
  cases outcome with
  | answered answer =>
      by_cases hstatus : answer.status < 400
      · simp [resultOf, hstatus] at hfailure
      · rw [resultOf, if_neg hstatus, Except.error.injEq] at hfailure
        rw [← hfailure]
        refine ⟨?_, rfl⟩
        exact
          { method := hmethod
            url := congrArg Url.toText hurl
            http_iff := by simpa using Nat.le_of_not_lt hstatus
            parse := by simp
            rateLimit := by simp
            caused := by simp
            numbered := by simpa using ⟨hone, hle⟩ }
  | unsigned cause =>
      rw [resultOf, Except.error.injEq] at hfailure
      rw [← hfailure]
      refine ⟨classified_of_plain hmethod (congrArg Url.toText hurl) (.inl rfl) ?_ ?_, rfl⟩
      · simp
      · simp
  | failed cause =>
      rw [resultOf, Except.error.injEq] at hfailure
      rw [← hfailure]
      refine ⟨classified_of_plain hmethod (congrArg Url.toText hurl) (kind_ofTransport cause) ?_ ?_,
        rfl⟩
      · simp
      · simp

/-- What a request fails with whose scope is over between two attempts keeps the answer of the last
one. -/
theorem classified_ofInterruption {number : Nat} {reason : Interruption} {failure : Failure}
    (hprepare : request.prepare client.settings = .ok wire)
    (hclassified : client.Classified request failure) (hnumber : failure.attempts = number) :
    client.Classified request
      (.ofInterruption wire.method wire.url.toText number reason failure.response) := by
  obtain ⟨hmethod, hurl⟩ := Request.eq_of_prepare hprepare
  refine classified_of_plain hmethod (congrArg Url.toText hurl) ?_ ?_ ?_
  · exact kind_ofTransport (.interrupted reason)
  · simp [Failure.ofInterruption]
  · rw [← hnumber]
    exact hclassified.numbered

/-- A course ends with an answer that is no failure, to one of the attempts, or with a failure whose
parts fit together. -/
theorem Course.classified {first : Nat} {t t' : Moment} {trials : List (Trial σ)}
    {result : Except Failure Response}
    (h : client.Course others scope wire first t trials result t')
    (hprepare : request.prepare client.settings = .ok wire) (hone : 1 ≤ first)
    (hfirst : first ≤ client.attempts) :
    (∀ response, result = .ok response → response.status < 400 ∧
      response.url = request.url client.settings ∧ 1 ≤ response.attempts ∧
      response.attempts ≤ client.attempts) ∧
    ∀ failure, result = .error failure → client.Classified request failure := by
  induction h with
  | @final trial hgenuine hrests hstops =>
      constructor
      · intro response hresponse
        cases houtcome : trial.outcome with
        | answered answer =>
            by_cases hstatus : answer.status < 400
            · rw [houtcome, resultOf, if_pos hstatus, Except.ok.injEq] at hresponse
              rw [← hresponse]
              exact ⟨hstatus, (Request.eq_of_prepare hprepare).2, hone, hfirst⟩
            · simp [houtcome, resultOf, hstatus] at hresponse
        | unsigned cause => simp [houtcome, resultOf] at hresponse
        | failed cause => simp [houtcome, resultOf] at hresponse
      · intro failure hfailure
        exact (classified_resultOf hprepare hone hfirst hfailure).1
  | interrupted _ _ hfailure _ _ =>
      obtain ⟨hclassified, hnumber⟩ := classified_resultOf hprepare hone hfirst hfailure
      refine ⟨by simp, ?_⟩
      rintro _ ⟨⟩
      exact classified_ofInterruption hprepare hclassified hnumber
  | again _ hgoes _ _ _ _ ih =>
      have hlt := Nat.lt_of_le_of_ne hfirst (ne_attempts_of_not_concludes hgoes)
      exact ih (Nat.le_add_left 1 _) hlt

/-- What a run of a prepared and admitted request comes to. -/
theorem classified_of_run {t t' : Moment} {s s' : σ} {steps : List (Flow.Step σ)}
    {result : Except Failure Response}
    (h : Flow.Run others (client.execute scope request) t s steps result t' s') :
    (∀ response, result = .ok response → response.status < 400 ∧
      response.url = request.url client.settings ∧ 1 ≤ response.attempts ∧
      response.attempts ≤ client.attempts) ∧
    ∀ failure, result = .error failure → client.Classified request failure := by
  cases hprepare : request.prepare client.settings with
  | error failure =>
      obtain ⟨_, rfl, _⟩ := run_execute_of_error hprepare h
      obtain ⟨cause, rfl⟩ := Request.exists_cause_of_prepare hprepare
      refine ⟨by simp, ?_⟩
      rintro _ ⟨⟩
      exact classified_failBefore (.inl rfl)
  | ok wire =>
      rcases course_of_run_execute hprepare h with
        ⟨reason, _, rfl⟩ | ⟨_, _, _, trials, _, _, hcourse⟩
      · refine ⟨by simp, ?_⟩
        rintro _ ⟨⟩
        exact classified_failBefore (.inr rfl)
      · exact hcourse.classified hprepare (Nat.le_refl 1) (one_le_attempts client)

/-- What fails of a request for a document: the request, or the reading of a body that is there. -/
theorem run_executeJson_error {shape : Json.Shape} {t t' : Moment} {s s' : σ}
    {steps : List (Flow.Step σ)} {failure : Failure}
    (h : Flow.Run others (client.executeJson scope request shape) t s steps (.error failure) t' s') :
    ∃ steps' result t₁ s₁,
      Flow.Run others (client.execute scope request) t s steps' result t₁ s₁ ∧
      (result = .error failure ∨ ∃ response e, result = .ok response ∧ response.body ≠ [] ∧
        failure = .ofDocument request.method response e) := by
  obtain ⟨head, result, t₁, s₁, tail, hhead, htail, _⟩ := Flow.run_bind_iff.mp h
  refine ⟨head, result, t₁, s₁, hhead, ?_⟩
  rcases result with failure' | response
  · simp only [Flow.pure_eq, Flow.run_done_iff, Except.error.injEq] at htail
    exact .inl (congrArg Except.error htail.2.1.symm)
  · by_cases hempty : response.body = []
    · simp [hempty] at htail
    · simp only [List.isEmpty_iff, hempty, ↓reduceIte] at htail
      cases hread : response.json shape with
      | ok document => simp [hread] at htail
      | error e =>
          simp only [hread, Flow.pure_eq, Flow.run_done_iff, Except.error.injEq] at htail
          exact .inr ⟨response, e, rfl, hempty, htail.2.1⟩

/-- Every failure of a request, and of a request for a document, names the method and the URL of the
request, and its kind, cause, answer and number of attempts fit together. -/
theorem execute_failures_classified (client : Client σ) (request : Request) :
    (∀ others scope t s steps failure t' s',
      Flow.Run others (client.execute scope request) t s steps (.error failure) t' s' →
        client.Classified request failure) ∧
    ∀ others scope shape t s steps failure t' s',
      Flow.Run others (client.executeJson scope request shape) t s steps (.error failure) t' s' →
        client.Classified request failure := by
  constructor
  · intro others scope t s steps failure t' s' h
    exact (classified_of_run h).2 failure rfl
  · intro others scope shape t s steps failure t' s' h
    obtain ⟨_, result, _, _, hrun, hresult⟩ := run_executeJson_error h
    obtain ⟨hanswer, hfailure⟩ := classified_of_run hrun
    rcases hresult with rfl | ⟨response, e, rfl, hbody, rfl⟩
    · exact hfailure failure rfl
    · obtain ⟨hstatus, hurl, hone, hle⟩ := hanswer response rfl
      exact
        { method := rfl
          url := congrArg Url.toText hurl
          http_iff := by simp [Failure.ofDocument]
          parse := by simpa [Failure.ofDocument] using ⟨hstatus, hbody⟩
          rateLimit := by simp [Failure.ofDocument]
          caused := by simp [Failure.ofDocument]
          numbered := by simpa [Failure.ofDocument] using ⟨hone, hle⟩ }

end Client

namespace FailureShapeWitness

open Rehearsal

def request : Request := { TokenAccountWitness.request with timeout := some (Span.ofMillis 500) }

/-- A client of a server that answers what is no document. -/
def client : Client Stage :=
  { settings := TokenAccountWitness.settings
    transport := fun _ => .act fun _ stage => (.ok { status := 200, body := [0x78] }, stage) }

/-- The kind, the attempts and the status of a failure. -/
def partsOf {α : Type} : Except Failure α → Option (FailureKind × Nat × Option Nat)
  | .ok _ => none
  | .error failure => some (failure.kind, failure.attempts, failure.response.map (·.status))

theorem exists_failure_of_partsOf {α : Type} {result : Except Failure α} {kind : FailureKind}
    {attempts : Nat} {status : Option Nat} (h : partsOf result = some (kind, attempts, status)) :
    ∃ failure, result = .error failure ∧ failure.kind = kind ∧ failure.attempts = attempts ∧
      failure.response.map (·.status) = status := by
  cases result with
  | ok response => simp [partsOf] at h
  | error failure =>
      simp only [partsOf, Option.some.injEq, Prod.mk.injEq] at h
      exact ⟨failure, rfl, h⟩

/-- A wait that is cut off leaves the answer before it, and what is no document is kept as it came. -/
theorem answers_in_failures :
    (∃ outcome failure,
      (RetryScheduleWitness.client.execute .unbounded request).run 0 .empty 3 = some outcome ∧
      outcome.value = .error failure ∧ failure.kind = .timeout ∧ failure.attempts = 1 ∧
      failure.response.map (·.status) = some 503 ∧
      RetryScheduleWitness.client.Classified request failure) ∧
    ∃ outcome failure,
      (client.executeJson .unbounded request .any).run 0 .empty 3 = some outcome ∧
      outcome.value = .error failure ∧ failure.kind = .parse ∧
      client.Classified request failure := by
  constructor
  · have hrun : ((RetryScheduleWitness.client.execute .unbounded request).run 0 .empty 3).map
        (partsOf ·.value) = some (some (.timeout, 1, some 503)) := by decide +kernel
    obtain ⟨outcome, steps, houtcome, hvalue, hsteps⟩ := Flow.exists_run_of_map hrun
    obtain ⟨failure, hresult, hkind, hattempts, hstatus⟩ := exists_failure_of_partsOf hvalue
    rw [hresult] at hsteps
    have hclassified := (RetryScheduleWitness.client.execute_failures_classified request).1
      _ _ _ _ _ _ _ _ hsteps
    exact ⟨outcome, failure, houtcome, hresult, hkind, hattempts, hstatus, hclassified⟩
  · have hrun : ((client.executeJson .unbounded request .any).run 0 .empty 3).map
        (partsOf ·.value) = some (some (.parse, 1, some 200)) := by decide +kernel
    obtain ⟨outcome, steps, houtcome, hvalue, hsteps⟩ := Flow.exists_run_of_map hrun
    obtain ⟨failure, hresult, hkind, _, _⟩ := exists_failure_of_partsOf hvalue
    rw [hresult] at hsteps
    have hclassified := (client.execute_failures_classified request).2
      _ _ _ _ _ _ _ _ _ hsteps
    exact ⟨outcome, failure, houtcome, hresult, hkind, hclassified⟩

end FailureShapeWitness
end Courier
