import Courier.Client
import Courier.Proofs.ScopeEnd
/-!
The loop of attempts.  All that a client does for an admitted request is put together from a few
flows: the report and the random bits of an attempt, the authenticator and the handler within the
scope of the request, and the wait before the next attempt.  What holds of these and passes from two
flows to the one after the other holds of the whole.
-/
namespace Courier

/-- What an attempt comes to whose signed request is answered like this. -/
def Outcome.ofAnswer : Except Interruption (Except TransportFailure WireResponse) → Outcome
  | .ok (.ok response) => .answered response
  | .ok (.error cause) => .failed cause
  | .error reason => .failed (.interrupted reason)

namespace Client

variable {σ : Type} [World σ] {client : Client σ} {scope : Scope} {request : Request}
  {wire : WireRequest} {others : σ → σ → Prop}

theorem one_le_attempts (client : Client σ) : 1 ≤ client.attempts := by
  unfold attempts
  cases client.settings.retry with
  | none => exact Nat.le_refl 1
  | some policy => exact Nat.le_max_left 1 _

theorem send_eq (client : Client σ) (scope : Scope) (signed : WireRequest) :
    client.send scope signed =
      (Flow.within scope (client.handler signed)).bind fun answer => .done (.ofAnswer answer) := by
  unfold send
  congr 1
  funext answer
  rcases answer with reason | cause | response <;> rfl

/-- How an attempt goes. -/
inductive Attempted (client : Client σ) (others : σ → σ → Prop) (scope : Scope)
    (wire : WireRequest) (t : Moment) (s : σ) :
    List (Flow.Step σ) → Outcome → Moment → σ → Prop
  /-- there is nothing to sign with -/
  | plain {steps : List (Flow.Step σ)} {outcome : Outcome} {t' : Moment} {s' : σ}
      (hnone : client.authenticator = none)
      (hsend : Flow.Run others (client.send scope wire) t s steps outcome t' s') :
      Attempted client others scope wire t s steps outcome t' s'
  /-- the scope ends before the request is signed -/
  | interrupted {sign : Authenticator σ} {steps : List (Flow.Step σ)} {reason : Interruption}
      {t' : Moment} {s' : σ} (hmem : sign ∈ client.authenticator)
      (hsign : Flow.Run others (Flow.within scope (sign wire)) t s steps (.error reason) t' s') :
      Attempted client others scope wire t s steps (.failed (.interrupted reason)) t' s'
  /-- the request is not signed -/
  | unsigned {sign : Authenticator σ} {steps : List (Flow.Step σ)} {cause : AuthError}
      {t' : Moment} {s' : σ} (hmem : sign ∈ client.authenticator)
      (hsign : Flow.Run others (Flow.within scope (sign wire)) t s steps (.ok (.error cause)) t'
        s') :
      Attempted client others scope wire t s steps (.unsigned cause) t' s'
  /-- what is signed is sent -/
  | signed {sign : Authenticator σ} {signing sending : List (Flow.Step σ)} {signed : WireRequest}
      {outcome : Outcome} {t₁ t' : Moment} {s₁ s' : σ} (hmem : sign ∈ client.authenticator)
      (hsign : Flow.Run others (Flow.within scope (sign wire)) t s signing (.ok (.ok signed)) t₁
        s₁)
      (hsend : Flow.Run others (client.send scope signed) t₁ s₁ sending outcome t' s') :
      Attempted client others scope wire t s (signing ++ sending) outcome t' s'

theorem attempted_of_run {t t' : Moment} {s s' : σ} {steps : List (Flow.Step σ)}
    {outcome : Outcome} (h : Flow.Run others (client.attempt scope wire) t s steps outcome t' s') :
    client.Attempted others scope wire t s steps outcome t' s' := by
  unfold attempt at h
  cases hmem : client.authenticator with
  | none =>
      rw [hmem] at h
      exact .plain hmem h
  | some sign =>
      simp only [hmem] at h
      obtain ⟨signing, r, t₁, s₁, sending, hsign, hrest, rfl⟩ := Flow.run_bind_iff.mp h
      rcases r with reason | cause | signed
      · simp only [Flow.pure_eq, Flow.run_done_iff] at hrest
        obtain ⟨rfl, rfl, rfl, rfl⟩ := hrest
        rw [List.append_nil]
        exact .interrupted hmem hsign
      · simp only [Flow.pure_eq, Flow.run_done_iff] at hrest
        obtain ⟨rfl, rfl, rfl, rfl⟩ := hrest
        rw [List.append_nil]
        exact .unsigned hmem hsign
      · exact .signed hmem hsign hrest

def unlimited (client : Client σ) : Client σ := { client with limiter := none }

/-- The attempts have nothing to do with the limiter. -/
theorem attemptFrom_unlimited (client : Client σ) (scope : Scope) (wire : WireRequest)
    (number more : Nat) :
    client.unlimited.attemptFrom scope wire number more =
      client.attemptFrom scope wire number more := by
  induction more generalizing number with
  | zero => rfl
  | succ more ih =>
      simp only [attemptFrom, ih]
      rfl

/-- A property of flows that the parts of an attempt have, and the wait between two attempts, and
that passes on to one flow after another. -/
structure Closed (client : Client σ) (scope : Scope) (wire : WireRequest)
    (P : ∀ α : Type, Flow σ α → Prop) : Prop where
  done : ∀ {α : Type} (a : α), P α (.done a)
  bind : ∀ {α β : Type} {m : Flow σ β} {k : β → Flow σ α}, P β m → (∀ b, P α (k b)) →
    P α (m.bind k)
  announce : ∀ number, P Unit
    (World.report (.sending wire.method wire.url.toText number client.attempts))
  draw : P Nat World.draw
  sign : ∀ sign ∈ client.authenticator, P _ (Flow.within scope (sign wire))
  send : ∀ signed, P _ (Flow.within scope (client.handler signed))
  pause : ∀ number delay failure, P _ (pause scope wire number delay failure)

namespace Closed

variable {P : ∀ α : Type, Flow σ α → Prop}

theorem closed_send (h : client.Closed scope wire P) (signed : WireRequest) :
    P _ (client.send scope signed) := by
  refine h.bind (h.send signed) ?_
  rintro (reason | cause | response)
  · exact h.done _
  · exact h.done _
  · exact h.done _

theorem closed_attempt (h : client.Closed scope wire P) : P _ (client.attempt scope wire) := by
  unfold attempt
  cases hsign : client.authenticator with
  | none => exact h.closed_send wire
  | some sign =>
      refine h.bind (h.sign sign hsign) ?_
      rintro (reason | cause | signed)
      · exact h.done _
      · exact h.done _
      · exact h.closed_send signed

theorem closed_tryOnce (h : client.Closed scope wire P) (number : Nat) :
    P _ (client.tryOnce scope wire number) := by
  refine h.bind (h.announce number) fun _ => h.bind h.closed_attempt fun outcome => ?_
  exact h.bind h.draw fun bits => h.done _

/-- A property of the parts is a property of all attempts. -/
theorem closed_attemptFrom (h : client.Closed scope wire P) (number more : Nat) :
    P _ (client.attemptFrom scope wire number more) := by
  induction more generalizing number with
  | zero =>
      refine h.bind (h.closed_tryOnce number) ?_
      rintro (response | ⟨failure, decision⟩)
      · exact h.done _
      · exact h.done _
  | succ more ih =>
      refine h.bind (h.closed_tryOnce number) ?_
      rintro (response | ⟨failure, delay | _⟩)
      · exact h.done _
      · refine h.bind (h.pause number delay failure) ?_
        rintro (reason | _)
        · exact h.done _
        · exact ih (number + 1)
      · exact h.done _

end Closed

/-- The wait between two attempts is put together from a look at the clock, a report and a sleep
within the scope. -/
theorem closed_pause (P : ∀ α : Type, Flow σ α → Prop) (hdone : ∀ {α : Type} (a : α), P α (.done a))
    (hbind : ∀ {α β : Type} {m : Flow σ β} {k : β → Flow σ α}, P β m → (∀ b, P α (k b)) →
      P α (m.bind k))
    (hnow : P Moment Flow.now) (hreport : ∀ event, P Unit (World.report event))
    (hsleep : ∀ d, P _ (Flow.within scope (Flow.sleep d))) (number : Nat) (delay : Span)
    (failure : Failure) : P _ (pause scope wire number delay failure) := by
  refine hbind hnow fun t => ?_
  cases scope.ended? t with
  | some reason => exact hdone _
  | none => exact hbind (hreport _) fun _ => hsleep delay

/-- The wait between two attempts changes nothing but what its report changes. -/
theorem leaves_pause {γ : Type} {cell : Cell σ γ}
    (hrecord : ∀ event s, cell.get (World.record event s) = cell.get s) (number : Nat) (delay : Span)
    (failure : Failure) : (pause scope wire number delay failure).Leaves cell :=
  closed_pause (fun _ flow => flow.Leaves cell) (fun _ => trivial) (fun hm hk => hm.bind hk)
    (Flow.leaves_act fun _ _ => rfl) (fun event => Flow.leaves_act fun _ s => hrecord event s)
    (fun d => (Flow.leaves_sleep d).within) number delay failure

/-- A request that cannot be prepared fails at once. -/
theorem run_execute_of_error {t t' : Moment} {s s' : σ} {steps : List (Flow.Step σ)}
    {result : Except Failure Response} {failure : Failure}
    (hprepare : request.prepare client.settings = .error failure)
    (h : Flow.Run others (client.execute scope request) t s steps result t' s') :
    steps = [] ∧ result = .error failure ∧ t' = t := by
  simp only [execute, hprepare, Flow.pure_eq, Flow.run_done_iff] at h
  obtain ⟨rfl, rfl, rfl, rfl⟩ := h
  exact ⟨rfl, rfl, rfl⟩

/-- A prepared request waits for a token; then it looks at the clock, and its attempts begin. -/
theorem run_execute {t t' : Moment} {s s' : σ} {steps : List (Flow.Step σ)}
    {result : Except Failure Response} (hprepare : request.prepare client.settings = .ok wire)
    (h : Flow.Run others (client.execute scope request) t s steps result t' s') :
    (∃ reason, Flow.Run others (client.awaitToken scope) t s steps (.error reason) t' s' ∧
      result = .error (request.failBefore client.settings .rateLimit (.admission reason))) ∨
    ∃ t₀ s₀ s₁ admission rest,
      Flow.Run others (client.awaitToken scope) t s admission (.ok ()) t₀ s₀ ∧
      others s₀ s₁ ∧ steps = admission ++ ⟨t₀, s₀, s₀⟩ :: rest ∧
      Flow.Run others (client.attemptFrom (client.scopeOf scope request t₀) wire 1
        (client.attempts - 1)) t₀ s₁ rest result t' s' := by
  simp only [execute, hprepare] at h
  obtain ⟨admission, r, t₀, s₀, tail, hadmission, htail, rfl⟩ := Flow.run_bind_iff.mp h
  rcases r with reason | _
  · simp only [Flow.pure_eq, Flow.run_done_iff] at htail
    obtain ⟨rfl, rfl, rfl, rfl⟩ := htail
    rw [List.append_nil]
    exact .inl ⟨reason, hadmission, rfl⟩
  · obtain ⟨_, t₁, t₂, s₁, rest, hnow, hrest, rfl⟩ := Flow.run_bind_iff.mp htail
    simp only [Flow.now, Flow.run_act_iff] at hnow
    obtain ⟨rfl, rfl, rfl, hothers⟩ := hnow
    exact .inr ⟨_, s₀, s₁, admission, rest, hadmission, hothers, rfl, hrest⟩

/-- A prepared request comes to an end if its admission does and its attempts do. -/
theorem ends_execute {t : Moment} {s : σ} (hadmission : Flow.Ends others (client.awaitToken scope) t s)
    (hattempts : ∀ wire admission t₀ s₀ s₁, request.prepare client.settings = .ok wire →
      Flow.Run others (client.awaitToken scope) t s admission (.ok ()) t₀ s₀ → others s₀ s₁ →
      Flow.Ends others (client.attemptFrom (client.scopeOf scope request t₀) wire 1
        (client.attempts - 1)) t₀ s₁) :
    Flow.Ends others (client.execute scope request) t s := by
  unfold execute
  cases hprepare : request.prepare client.settings with
  | error failure => exact .done
  | ok wire =>
      refine hadmission.bind ?_
      intro admission r t₀ s₀ hrun
      rcases r with reason | _
      · exact .done
      · refine Flow.ends_act.bind ?_
        intro _ t₁ t₂ s₁ hnow
        simp only [Flow.run_act_iff] at hnow
        obtain ⟨_, rfl, rfl, hothers⟩ := hnow
        exact hattempts wire admission _ s₀ s₁ hprepare hrun hothers

end Client
end Courier
