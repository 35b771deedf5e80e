import Courier.Proofs.AttemptLoop
import Courier.Proofs.LimiterTurn
import Courier.Proofs.Together
import Courier.Rehearsal.Stage
/-!
Token accounts.  A request that is sent through a client with a limiter takes exactly one token if it
is admitted, however often it is tried then, and none if it fails before.  The account of a run says
for each poll what it does to the bucket; it holds whatever others do to the bucket in between.
-/
namespace Courier

namespace Limiter

variable {σ : Type} [World σ] {others : σ → σ → Prop} {scope : Scope} {limiter : Limiter σ}

/-- A poll at which one token is taken while the scope lasts. -/
structure Grants (limiter : Limiter σ) (scope : Scope) (step : Flow.Step σ) : Prop where
  live : scope.ended? step.moment = none
  granted : limiter.tryTake step.moment step.before = (.ok (), step.after)
  debited : limiter.bucket.get step.after =
    ((limiter.bucket.get step.before).refill step.moment).debit

/-- A poll at which no token is there while the scope lasts. -/
structure Refuses (limiter : Limiter σ) (scope : Scope) (step : Flow.Step σ) : Prop where
  live : scope.ended? step.moment = none
  refused : ∃ wait s, limiter.tryTake step.moment step.before = (.error wait, s) ∧
    step.after = World.record (.waiting wait) s
  kept : limiter.bucket.get step.after = (limiter.bucket.get step.before).refill step.moment

theorem grants_of_turn {t : Moment} {s s₁ : σ} {u : Unit} (hlive : scope.ended? t = none)
    (hturn : limiter.turn t s = (.ready u, s₁)) : limiter.Grants scope ⟨t, s, s₁⟩ :=
  ⟨hlive, tryTake_of_turn_ready hturn, get_of_tryTake_ok (tryTake_of_turn_ready hturn)⟩

theorem refuses_of_turn {t wake : Moment} {s s₁ : σ} (hlive : scope.ended? t = none)
    (hturn : limiter.turn t s = (.later wake, s₁)) : limiter.Refuses scope ⟨t, s, s₁⟩ := by
  obtain ⟨wait, s₂, htake, rfl⟩ := tryTake_of_turn_later hturn
  refine ⟨hlive, ⟨wait, s₂, htake, rfl⟩, ?_⟩
  rw [limiter.get_record, get_of_tryTake_error htake]

/-- Whoever gets a token was refused until then. -/
theorem run_turn {t t' : Moment} {s s' : σ} {steps : List (Flow.Step σ)} {u : Unit}
    (h : Flow.Run others (.await limiter.turn .done) t s steps u t' s')
    (hlive : ∀ step ∈ steps, scope.ended? step.moment = none) :
    ∃ refusals grant, steps = refusals ++ [grant] ∧ (∀ step ∈ refusals, limiter.Refuses scope step) ∧
      limiter.Grants scope grant ∧ grant.moment = t' ∧ others grant.after s' := by
  generalize hflow : Flow.await limiter.turn .done = flow at h
  induction h with
  | done => cases hflow
  | @ready _ _ _ t _ s s₁ _ _ _ _ _ hpoll hothers hrest _ =>
      cases hflow
      simp only [Flow.run_done_iff] at hrest
      obtain ⟨rfl, _, rfl, rfl⟩ := hrest
      have hgrant := grants_of_turn (hlive _ List.mem_cons_self) hpoll
      exact ⟨[], _, rfl, by simp, hgrant, rfl, hothers⟩
  | @later _ _ _ t _ _ s s₁ _ _ _ _ hpoll _ _ ih =>
      cases hflow
      obtain ⟨hfirst, hothers⟩ := List.forall_mem_cons.mp hlive
      obtain ⟨refusals, grant, rfl, hrefused, hgrant⟩ := ih hothers rfl
      have hrefusal := refuses_of_turn hfirst hpoll
      exact ⟨_ :: refusals, grant, rfl, List.forall_mem_cons.mpr ⟨hrefusal, hrefused⟩, hgrant⟩

/-- Whoever still waits for a token was refused so far. -/
theorem refuses_of_suspended {t : Moment} {s : σ} {steps : List (Flow.Step σ)}
    (h : Flow.Suspended others (.await limiter.turn .done) t s steps)
    (hlive : ∀ step ∈ steps, scope.ended? step.moment = none) :
    ∀ step ∈ steps, limiter.Refuses scope step := by
  generalize hflow : Flow.await limiter.turn .done = flow at h
  induction h with
  | wait hpoll =>
      cases hflow
      simpa using refuses_of_turn (hlive _ List.mem_cons_self) hpoll
  | ready _ _ hrest _ =>
      cases hflow
      cases hrest
  | later hpoll _ _ ih =>
      cases hflow
      obtain ⟨hfirst, hothers⟩ := List.forall_mem_cons.mp hlive
      exact List.forall_mem_cons.mpr ⟨refuses_of_turn hfirst hpoll, ih hothers rfl⟩

/-- The polls of somebody who waits for a token, up to the poll at which the scope is over. -/
structure GivesUp (limiter : Limiter σ) (scope : Scope) (t : Moment) (steps : List (Flow.Step σ))
    (reason : Interruption) (t' : Moment) : Prop where
  ended : scope.ended? t' = some reason
  polls : ∃ refusals s, steps = refusals ++ [⟨t', s, s⟩] ∧
    (∀ step ∈ refusals, limiter.Refuses scope step) ∧
    (scope.ended? t ≠ none → refusals = [])
  at_once : scope.ended? t ≠ none → t' = t
  in_time : scope.ended? t = none → ∃ l, scope.limit = some l ∧ t' = Moment.tick l

/-- To wait for a token is to be refused until one is granted or the scope is over. -/
theorem run_acquire {t t' : Moment} {s s' : σ} {steps : List (Flow.Step σ)}
    {r : Except Interruption Unit} (h : Flow.Run others (limiter.acquire scope) t s steps r t' s') :
    (r = .ok () ∧ ∃ refusals grant, steps = refusals ++ [grant] ∧
      (∀ step ∈ refusals, limiter.Refuses scope step) ∧
      limiter.Grants scope grant ∧ grant.moment = t' ∧ others grant.after s') ∨
    ∃ reason, r = .error reason ∧ limiter.GivesUp scope t steps reason t' := by
  rw [acquire_eq_guarded] at h
  rcases hended : scope.ended? t with _ | reason
  · cases h.guarded hended with
    | whole hrun hlive _ => exact .inl ⟨rfl, run_turn hrun hlive⟩
    | @cut polls reason l s₁ _ hpolls hlive hlimit hended' _ =>
        refine .inr ⟨reason, rfl, hended', ?_, by simp [hended], fun _ => ⟨l, hlimit, rfl⟩⟩
        exact ⟨polls, s₁, rfl, refuses_of_suspended hpolls hlive, by simp [hended]⟩
  · obtain ⟨rfl, rfl, rfl, _⟩ := h.guarded_of_ended hended
    refine .inr ⟨reason, rfl, hended, ?_, fun _ => rfl, by simp [hended]⟩
    exact ⟨[], s, rfl, by simp, fun _ => rfl⟩

end Limiter

namespace Request

/-- The body cannot be encoded, or a header of the request or its content type is no header. -/
def Invalid (request : Request) (settings : Settings) : Prop :=
  (∃ e, request.encodeBody = .error e) ∨
    ∃ encoded e, request.encodeBody = .ok encoded ∧
      request.settleHeaders settings encoded = .error e

theorem invalid_of_prepare {request : Request} {settings : Settings} {failure : Failure}
    (h : request.prepare settings = .error failure) :
    request.Invalid settings ∧ failure.kind = .unknown ∧ failure.attempts = 0 := by
  unfold prepare at h
  cases hbody : request.encodeBody with
  | error e =>
      simp only [hbody, Except.error.injEq] at h
      exact ⟨.inl ⟨e, hbody⟩, by rw [← h]; rfl, by rw [← h]; rfl⟩
  | ok encoded =>
      cases hheaders : request.settleHeaders settings encoded with
      | error e =>
          simp only [hbody, hheaders, Except.error.injEq] at h
          exact ⟨.inr ⟨encoded, e, hbody, hheaders⟩, by rw [← h]; rfl, by rw [← h]; rfl⟩
      | ok headers => simp [hbody, hheaders] at h

end Request

namespace Client

variable {σ : Type} [World σ] {client : Client σ} {limiter : Limiter σ} {others : σ → σ → Prop}
  {scope : Scope} {request : Request} {wire : WireRequest}

/-- Neither the authenticator nor the middleware nor the transport touches the bucket. -/
structure KeepsOff (client : Client σ) (limiter : Limiter σ) : Prop where
  sign : ∀ sign ∈ client.authenticator, ∀ wire, (sign wire).Leaves limiter.bucket
  chain : ∀ wire, (client.handler wire).Leaves limiter.bucket

/-- Once a request is admitted, nothing that the client does of its own accord takes a token. -/
theorem KeepsOff.closed (h : client.KeepsOff limiter) (scope : Scope) (wire : WireRequest) :
    client.Closed scope wire fun _ flow => flow.Leaves limiter.bucket := by
  exact
    { done := fun _ => trivial
      bind := fun hm hk => hm.bind hk
      announce := fun _ => Flow.leaves_act fun _ s => limiter.get_record _ s
      draw := Flow.leaves_act fun _ s => limiter.get_random s
      sign := fun sign hsign => (h.sign sign hsign wire).within
      send := fun signed => (h.chain signed).within
      pause := leaves_pause limiter.get_record }

/-- What a run of `execute` from the moment `t` does to the tokens of the limiter, poll by poll, and
how it ends. -/
inductive TokenAccount (client : Client σ) (limiter : Limiter σ) (others : σ → σ → Prop)
    (scope : Scope) (request : Request) (t : Moment) :
    List (Flow.Step σ) → Except Failure Response → Moment → Prop
  /-- nothing is polled, as the request cannot be prepared -/
  | unprepared {failure : Failure} (hinvalid : request.Invalid client.settings)
      (hkind : failure.kind = .unknown) (hattempts : failure.attempts = 0) :
      TokenAccount client limiter others scope request t [] (.error failure) t
  /-- the scope is over before a token is there -/
  | turnedAway {wire : WireRequest} {steps : List (Flow.Step σ)} {failure : Failure}
      {reason : Interruption} {t' : Moment}
      (hprepare : request.prepare client.settings = .ok wire)
      (hgives : limiter.GivesUp scope t steps reason t') (hkind : failure.kind = .rateLimit)
      (hattempts : failure.attempts = 0) (hcause : failure.cause = some (.admission reason)) :
      TokenAccount client limiter others scope request t steps (.error failure) t'
  /-- one token is taken, and no further one however the attempts go -/
  | admitted {wire : WireRequest} {refusals rest : List (Flow.Step σ)} {grant : Flow.Step σ}
      {s₀ s₁ s' : σ} {result : Except Failure Response} {t' : Moment}
      (hprepare : request.prepare client.settings = .ok wire)
      (hrefused : ∀ step ∈ refusals, limiter.Refuses scope step)
      (hgrant : limiter.Grants scope grant) (hothers : others grant.after s₀)
      (hothers' : others s₀ s₁)
      (hrest : Flow.Run others
        (client.unlimited.attemptFrom (client.scopeOf scope request grant.moment) wire 1
          (client.attempts - 1)) grant.moment s₁ rest result t' s')
      (hkept : client.KeepsOff limiter →
        ∀ step ∈ rest, limiter.bucket.get step.after = limiter.bucket.get step.before) :
      TokenAccount client limiter others scope request t
        (refusals ++ grant :: ⟨grant.moment, s₀, s₀⟩ :: rest) result t'

theorem tokenAccount_of_run (hlimiter : client.limiter = some limiter) {t t' : Moment} {s s' : σ}
    {steps : List (Flow.Step σ)} {result : Except Failure Response}
    (h : Flow.Run others (client.execute scope request) t s steps result t' s') :
    TokenAccount client limiter others scope request t steps result t' := by
  cases hprepare : request.prepare client.settings with
  | error failure =>
      obtain ⟨rfl, rfl, rfl⟩ := run_execute_of_error hprepare h
      obtain ⟨hinvalid, hkind, hattempts⟩ := Request.invalid_of_prepare hprepare
      exact .unprepared hinvalid hkind hattempts
  | ok wire =>
      rcases run_execute hprepare h with
        ⟨reason, hadmission, rfl⟩ | ⟨t₀, s₀, s₁, admission, rest, hadmission, hothers', rfl, hrest⟩
      · simp only [awaitToken, hlimiter] at hadmission
        rcases limiter.run_acquire hadmission with ⟨hr, _⟩ | ⟨reason', hr, hgives⟩
        · simp at hr
        · cases hr
          exact .turnedAway hprepare hgives rfl rfl rfl
      · simp only [awaitToken, hlimiter] at hadmission
        rcases limiter.run_acquire hadmission with
          ⟨_, refusals, grant, rfl, hrefused, hgrant, rfl, hothers⟩ | ⟨_, hr, _⟩
        · have hkept : client.KeepsOff limiter →
              ∀ step ∈ rest, limiter.bucket.get step.after = limiter.bucket.get step.before :=
            fun hoff => hrest.leaves ((hoff.closed _ wire).closed_attemptFrom _ _)
          rw [← attemptFrom_unlimited] at hrest
          rw [List.append_assoc]
          exact .admitted hprepare hrefused hgrant hothers hothers' hrest hkept
        · simp at hr

/-- A request takes exactly one token if it can be prepared and is admitted, and none otherwise,
whatever others do to the bucket in between.  So it is for each of several requests that are sent
side by side. -/
theorem execute_takes_one_token_iff_admitted (client : Client σ)
    (hlimiter : client.limiter = some limiter) :
    (∀ others scope request t s steps result t' s',
      Flow.Run others (client.execute scope request) t s steps result t' s' →
        TokenAccount client limiter others scope request t steps result t') ∧
    ∀ (calls : List (Scope × Request)) t s fuel outcome,
      let members := Flow.startAll t (calls.map fun call => client.execute call.1 call.2)
      let trace := Flow.allPolls t members s fuel
      Flow.runAll t members s fuel = some outcome →
        Flow.Chained s (trace.map Prod.snd) outcome.world ∧
        ∀ i scope request, calls[i]? = some (scope, request) →
          ∃ t' result, outcome.value[i]? = some (t', result) ∧
            TokenAccount client limiter (Flow.Anyhow σ) scope request t (Flow.pollsOf i trace)
              result t' := by
  refine ⟨fun _ _ _ _ _ _ _ _ _ => tokenAccount_of_run hlimiter, ?_⟩
  intro calls t s fuel outcome members trace houtcome
  refine ⟨Flow.chained_allPolls houtcome, ?_⟩
  intro i scope request hcall
  have hflow : (calls.map fun call => client.execute call.1 call.2)[i]? =
      some (client.execute scope request) := by
    simp [hcall]
  obtain ⟨t', result, s₀, s', hresult, hrun⟩ := Flow.runs_of_runAll houtcome hflow
  exact ⟨t', result, hresult, tokenAccount_of_run hlimiter hrun⟩

end Client

namespace TokenAccountWitness

open Rehearsal

def settings : Settings :=
  { base :=
      { scheme := "http", authority := some { host := .domain "example.com" },
        path := .segments [""] }
    timeout := none
    headers := .empty
    contentType := ⟨Octets.ofText "application/json", false⟩
    retry := none
    rate := some (.perSecond 1) }

/-- A client that is admitted once in a second and always gets an answer. -/
def client : Client Stage :=
  { settings
    limiter := some (Stage.limiter (.perSecond 1))
    transport := fun _ => .act fun _ stage => (.ok { status := 200 }, stage) }

def request : Request := { method := .get, path := "/" }

/-- Two calls, the second of which has half a second. -/
def calls : List (Scope × Request) :=
  [(.unbounded, request), (⟨none, some (Span.ofMillis 500)⟩, request)]

def members : List (Flow.Member Stage (Except Failure Response)) :=
  Flow.startAll 0 (calls.map fun call => client.execute call.1 call.2)

/-- The first call takes the token, the second one waits for half a second and takes none. -/
theorem one_token_for_two_calls :
    client.limiter = some (Stage.limiter (.perSecond 1)) ∧
      ∃ outcome, Flow.runAll 0 members .empty 3 = some outcome ∧
        outcome.value.map (fun ending => (ending.1, ending.2.isOk)) =
          [(0, true), (Span.ofMillis 500, false)] ∧
        ∀ i scope request, calls[i]? = some (scope, request) →
          ∃ t' result, outcome.value[i]? = some (t', result) ∧
            client.TokenAccount (Stage.limiter (.perSecond 1)) (Flow.Anyhow Stage) scope request 0
              (Flow.pollsOf i (Flow.allPolls 0 members .empty 3)) result t' := by
  refine ⟨rfl, ?_⟩
  have hrun : (Flow.runAll 0 members .empty 3).map
      (fun outcome => outcome.value.map fun ending => (ending.1, ending.2.isOk)) =
      some [(0, true), (Span.ofMillis 500, false)] := by decide +kernel
  obtain ⟨outcome, houtcome, hvalue⟩ := Option.map_eq_some_iff.mp hrun
  have haccounts := (client.execute_takes_one_token_iff_admitted rfl).2
    calls 0 .empty 3 outcome houtcome
  exact ⟨outcome, houtcome, hvalue, haccounts.2⟩

end TokenAccountWitness
end Courier
