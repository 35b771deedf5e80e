import Courier.Proofs.RetryRules
import Courier.Proofs.TokenAccount
import Mathlib.Data.List.Chain
/-!
Retry schedules.  An admitted request whose time does not run out is tried until an attempt comes to
something that is final: an answer that is no failure, an answer whose status is not to be tried
again, credentials that could not be had, or anything at the last attempt.  The attempts follow one
another, with the wait in between that the policy or the answer names, and the request comes to an end
if each of them does.
-/
namespace Courier

namespace Client

variable {σ : Type} [World σ] {client : Client σ} {others : σ → σ → Prop} {scope : Scope}
  {request : Request} {wire : WireRequest}

/-- A signed request is handed to the middleware, the first outermost, around the transport, and this is
what comes back. -/
inductive Delivers (client : Client σ) (others : σ → σ → Prop) (signed : WireRequest) (t : Moment) :
    List (Flow.Step σ) → Outcome → Moment → Prop
  | answered {answer : WireResponse} {s s₁ s' : σ} {polls : List (Flow.Step σ)} {t' : Moment}
      (hrun : Flow.Run others
        (client.middlewares.foldr (fun middleware inner => middleware inner) client.transport signed)
        t s₁ polls (.ok answer) t' s') :
      Delivers client others signed t (⟨t, s, s⟩ :: polls) (.answered answer) t'
  | failed {cause : TransportFailure} {s s₁ s' : σ} {polls : List (Flow.Step σ)} {t' : Moment}
      (hrun : Flow.Run others
        (client.middlewares.foldr (fun middleware inner => middleware inner) client.transport signed)
        t s₁ polls (.error cause) t' s') :
      Delivers client others signed t (⟨t, s, s⟩ :: polls) (.failed cause) t'

/-- What an attempt comes to whose time does not run out: the failure of the authenticator, or else
what comes back for the request that it signed. -/
inductive Tries (client : Client σ) (others : σ → σ → Prop) (wire : WireRequest) (t : Moment) :
    List (Flow.Step σ) → Outcome → Moment → Prop
  | plain {polls : List (Flow.Step σ)} {outcome : Outcome} {t' : Moment}
      (hnone : client.authenticator = none)
      (hsend : client.Delivers others wire t polls outcome t') :
      Tries client others wire t polls outcome t'
  | unsigned {sign : Authenticator σ} {cause : AuthError} {s s₁ s' : σ}
      {signing : List (Flow.Step σ)} {t' : Moment} (hmem : client.authenticator = some sign)
      (hsign : Flow.Run others (sign wire) t s₁ signing (.error cause) t' s') :
      Tries client others wire t (⟨t, s, s⟩ :: signing) (.unsigned cause) t'
  | signed {sign : Authenticator σ} {signed : WireRequest} {s s₁ s₂ : σ}
      {signing sending : List (Flow.Step σ)} {outcome : Outcome} {t₁ t' : Moment}
      (hmem : client.authenticator = some sign)
      (hsign : Flow.Run others (sign wire) t s₁ signing (.ok signed) t₁ s₂)
      (hsend : client.Delivers others signed t₁ sending outcome t') :
      Tries client others wire t (⟨t, s, s⟩ :: signing ++ sending) outcome t'

theorem delivers_of_run {signed : WireRequest} {t t' : Moment} {s s' : σ}
    {polls : List (Flow.Step σ)} {outcome : Outcome}
    (h : Flow.Run others (client.send scope signed) t s polls outcome t' s')
    (hopen : scope.ended? t' = none) : client.Delivers others signed t polls outcome t' := by
  rw [send_eq] at h
  obtain ⟨polls, r, t₁, s₁, rest, hwithin, hrest, rfl⟩ := Flow.run_bind_iff.mp h
  simp only [Flow.run_done_iff] at hrest
  obtain ⟨rfl, rfl, rfl, _⟩ := hrest
  rw [List.append_nil]
  obtain ⟨answer, _, _, rfl, rfl, hrun⟩ := Flow.run_within_of_open hwithin hopen
  cases answer with
  | ok answer => exact .answered hrun
  | error cause => exact .failed hrun

/-- An attempt that is not cut off comes to what the authenticator, the middleware and the transport
make of it. -/
theorem tries_of_run {t t' : Moment} {s s' : σ} {polls : List (Flow.Step σ)} {outcome : Outcome}
    (h : Flow.Run others (client.attempt scope wire) t s polls outcome t' s')
    (hopen : scope.ended? t' = none) : client.Tries others wire t polls outcome t' := by
  cases attempted_of_run h with
  | plain hnone hsend => exact .plain hnone (delivers_of_run hsend hopen)
  | interrupted _ hsign =>
      obtain ⟨_, _, _, hr, _⟩ := Flow.run_within_of_open hsign hopen
      cases hr
  | unsigned hmem hsign =>
      obtain ⟨_, _, _, hr, rfl, hrun⟩ := Flow.run_within_of_open hsign hopen
      cases hr
      exact .unsigned hmem hrun
  | signed hmem hsign hsend =>
      have hsigned := Scope.ended?_eq_none_of_le hsend.le hopen
      obtain ⟨_, _, _, hr, rfl, hrun⟩ := Flow.run_within_of_open hsign hsigned
      cases hr
      exact .signed hmem hrun (delivers_of_run hsend hopen)

theorem Trial.Genuine.tries {trial : Trial σ} (h : trial.Genuine client others scope wire)
    (hopen : scope.ended? trial.ended = none) :
    client.Tries others wire trial.began trial.polls trial.outcome trial.ended := by
  obtain ⟨_, _, hrun⟩ := h.attempted
  exact tries_of_run hrun hopen

/-- One trial leads to the next, which begins as soon as the wait is over that the policy or the answer
of the first one names. -/
def LeadsTo (client : Client σ) (others : σ → σ → Prop) (scope : Scope) (wire : WireRequest)
    (trial next : Trial σ) : Prop :=
  ∃ policy failure delay s s', client.settings.retry = some policy ∧
    Settles wire trial.number trial.outcome (.error failure) ∧
    policy.Delays trial.number (Decimal.floatOfRatio (trial.bits / Nat.pow 2 11) (Nat.pow 2 53))
      trial.outcome delay ∧
    others trial.draw.after s ∧
    Flow.Run others (pause scope wire trial.number delay failure) trial.ended s trial.pause (.ok ())
      next.began s' ∧
    next.began = trial.ended.afterWait delay

/-- The trials of a request from a number on: those after which it goes on, and the last one. -/
structure Schedule (client : Client σ) (others : σ → σ → Prop) (scope : Scope) (wire : WireRequest)
    (first : Nat) (t : Moment) (steps : List (Flow.Step σ)) (history : List (Trial σ))
    (last : Trial σ) (t' : Moment) : Prop where
  genuine : ∀ trial ∈ history ++ [last], trial.Genuine client others scope wire
  tried : ∀ trial ∈ history ++ [last],
    client.Tries others wire trial.began trial.polls trial.outcome trial.ended
  numbered : (history ++ [last]).map Trial.number = List.range' first (history.length + 1)
  polled : steps = (history ++ [last]).flatMap Trial.steps
  goes_on : ∀ trial ∈ history, ¬ client.Concludes trial.number trial.outcome
  stops : client.Concludes last.number last.outcome
  began : ∀ trial ∈ (history ++ [last]).head?, trial.began = t
  follows : (history ++ [last]).IsChain (client.LeadsTo others scope wire)
  rests : last.pause = []
  ended : last.ended = t'

/-- A trial that is not final, its wait, and the trials after it. -/
theorem Schedule.cons {trial last : Trial σ} {history : List (Trial σ)}
    {steps : List (Flow.Step σ)} {t₁ t' : Moment}
    (hrest : client.Schedule others scope wire (trial.number + 1) t₁ steps history last t')
    (hgenuine : trial.Genuine client others scope wire) (hopen : scope.ended? trial.ended = none)
    (hgoes : ¬ client.Concludes trial.number trial.outcome)
    (hleads : ∀ next : Trial σ, next.began = t₁ → client.LeadsTo others scope wire trial next) :
    client.Schedule others scope wire trial.number trial.began (trial.steps ++ steps)
      (trial :: history) last t' where
  genuine := List.forall_mem_cons.mpr ⟨hgenuine, hrest.genuine⟩
  tried := List.forall_mem_cons.mpr ⟨hgenuine.tries hopen, hrest.tried⟩
  numbered := by
    rw [List.cons_append, List.map_cons, hrest.numbered]
    rfl
  polled := by
    rw [List.cons_append, List.flatMap_cons, ← hrest.polled]
  goes_on := List.forall_mem_cons.mpr ⟨hgoes, hrest.goes_on⟩
  stops := hrest.stops
  began := by simp
  follows := hrest.follows.cons fun next hnext => hleads next (hrest.began next hnext)
  rests := hrest.rests
  ended := hrest.ended

/-- The attempts that a result reports. -/
def attemptsOf : Except Failure Response → Nat
  | .ok response => response.attempts
  | .error failure => failure.attempts

theorem Settles.attemptsOf_eq {number : Nat} {outcome : Outcome} {result : Except Failure Response}
    (h : Settles wire number outcome result) : attemptsOf result = number := by
  cases h with
  | success _ hcarries => exact hcarries.attempts
  | http _ _ hnames _ _ _ => exact hnames.attempts
  | unsigned hnames _ _ _ => exact hnames.attempts
  | failed hnames _ _ _ => exact hnames.attempts

/-- The result of a course reports the number of its last trial. -/
theorem Course.attemptsOf_eq {first : Nat} {t t' : Moment} {trials : List (Trial σ)}
    {result : Except Failure Response}
    (h : client.Course others scope wire first t trials result t') :
    attemptsOf result + 1 = first + trials.length := by
  induction h with
  | final => exact congrArg (· + 1) (settles_resultOf wire _ _).attemptsOf_eq
  | interrupted => rfl
  | again _ _ _ _ _ _ ih =>
      rw [ih, List.length_cons]
      omega

end Client

namespace RetryScheduleWitness

open Rehearsal

def settings : Settings := { TokenAccountWitness.settings with retry := some .standard }

/-- A server that asks for two seconds before it answers. -/
def answerAt : Nat → WireResponse
  | 0 => { status := 503, headers := ⟨[(.retryAfter, ⟨Octets.ofText "2", false⟩)]⟩ }
  | _ + 1 => { status := 200 }

def client : Client Stage :=
  { settings
    transport := fun _ => .act fun _ stage => (.ok (answerAt stage.drawn), stage) }

def wire : WireRequest := { method := .get, url := settings.base }

end RetryScheduleWitness
end Courier
