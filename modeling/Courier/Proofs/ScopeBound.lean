import Courier.Proofs.RetrySchedule
/-!
One scope for a whole request.  From the moment at which it is admitted a request has so much time,
all its attempts and waits included: nothing is begun for it once the time is over, and it returns at
the end of its time at the latest, with an error that says why.
-/
namespace Courier

namespace Flow

variable {σ α β : Type} {others : σ → σ → Prop} {scope : Scope}

/-- The polls of a flow that is begun and polled only while the scope lasts: all of them, or those up
to a wait from which it does not come back. -/
structure Visit (others : σ → σ → Prop) (scope : Scope) (flow : Flow σ α)
    (polls : List (Step σ)) : Prop where
  begun : ∃ t s, scope.ended? t = none ∧
    ((∃ a t' s', Run others flow t s polls a t' s') ∨ Suspended others flow t s polls)
  live : ∀ step ∈ polls, scope.ended? step.moment = none

/-- Within a scope a flow is visited only if the scope is not over; all else are mere looks. -/
theorem visit_of_run_within {flow : Flow σ α} {t t' : Moment} {s s' : σ} {steps : List (Step σ)}
    {r : Except Interruption α} (h : Run others (within scope flow) t s steps r t' s') :
    ∃ polls looks, steps = ⟨t, s, s⟩ :: (polls ++ looks) ∧
      (polls = [] ∨ Visit others scope flow polls) ∧ ∀ step ∈ looks, step.after = step.before := by
  rcases run_within h with ⟨_, _, rfl, _, _⟩ | ⟨hopen, s₁, rest, _, rfl, hguarded⟩
  · exact ⟨[], [], rfl, .inl rfl, by simp⟩
  · cases hguarded with
    | whole hrun hlive _ =>
        exact ⟨rest, [], by simp, .inr ⟨⟨t, s₁, hopen, .inl ⟨_, _, _, hrun⟩⟩, hlive⟩, by simp⟩
    | @cut polls _ _ s₂ _ hpolls hlive _ _ _ =>
        exact ⟨polls, [⟨_, s₂, s₂⟩], rfl, .inr ⟨⟨t, s₁, hopen, .inr hpolls⟩, hlive⟩, by simp⟩

end Flow

namespace Client

variable {σ : Type} [World σ] {client : Client σ} {others : σ → σ → Prop} {scope : Scope}
  {request : Request} {wire : WireRequest}

/-- What a client does by itself for a request: it looks at the clock, draws random bits and reports;
a further attempt it announces only while the scope lasts. -/
inductive Own (client : Client σ) (scope : Scope) (wire : WireRequest) : Flow.Step σ → Prop
  | look {t : Moment} {s : σ} : Own client scope wire ⟨t, s, s⟩
  | draw {t : Moment} {s : σ} : Own client scope wire ⟨t, s, (World.random s).2⟩
  | announce {t : Moment} {s : σ} {number : Nat} :
      Own client scope wire ⟨t, s, World.record
        (.sending wire.method wire.url.toText number client.attempts) s⟩
  | retry {t : Moment} {s : σ} {number : Nat} {delay : Span} {message : String}
      (hlive : scope.ended? t = none) :
      Own client scope wire ⟨t, s, World.record
        (.retrying wire.method wire.url.toText number delay message) s⟩

/-- Polls that are the client's own or belong to visits of the authenticator or of the chain of the
middleware and the transport. -/
inductive Accounted (client : Client σ) (others : σ → σ → Prop) (scope : Scope)
    (wire : WireRequest) : List (Flow.Step σ) → Prop
  | nil : Accounted client others scope wire []
  | own {step : Flow.Step σ} {steps : List (Flow.Step σ)} (hown : client.Own scope wire step)
      (hrest : Accounted client others scope wire steps) :
      Accounted client others scope wire (step :: steps)
  | sign {sign : Authenticator σ} {polls steps : List (Flow.Step σ)}
      (hsign : sign ∈ client.authenticator) (hvisit : Flow.Visit others scope (sign wire) polls)
      (hrest : Accounted client others scope wire steps) :
      Accounted client others scope wire (polls ++ steps)
  | send {signed : WireRequest} {polls steps : List (Flow.Step σ)}
      (hvisit : Flow.Visit others scope (client.handler signed) polls)
      (hrest : Accounted client others scope wire steps) :
      Accounted client others scope wire (polls ++ steps)

namespace Accounted

theorem append {steps steps' : List (Flow.Step σ)} (h : client.Accounted others scope wire steps)
    (h' : client.Accounted others scope wire steps') :
    client.Accounted others scope wire (steps ++ steps') := by
  induction h with
  | nil => exact h'
  | own hown _ ih => exact .own hown ih
  | sign hsign hvisit _ ih =>
      rw [List.append_assoc]
      exact .sign hsign hvisit ih
  | send hvisit _ ih =>
      rw [List.append_assoc]
      exact .send hvisit ih

theorem looks {steps : List (Flow.Step σ)} (h : ∀ step ∈ steps, step.after = step.before) :
    client.Accounted others scope wire steps := by
  induction steps with
  | nil => exact .nil
  | cons step steps ih =>
      obtain ⟨hstep, hrest⟩ := List.forall_mem_cons.mp h
      obtain ⟨t, s, s'⟩ := step
      cases hstep
      exact .own .look (ih hrest)

/-- A flow within the scope is accounted for if its visits are. -/
theorem within {α : Type} {flow : Flow σ α} {t t' : Moment} {s s' : σ}
    {steps : List (Flow.Step σ)} {r : Except Interruption α}
    (hvisit : ∀ polls, Flow.Visit others scope flow polls →
      client.Accounted others scope wire polls)
    (h : Flow.Run others (Flow.within scope flow) t s steps r t' s') :
    client.Accounted others scope wire steps := by
  obtain ⟨polls, looks, rfl, hpolls, hlooks⟩ := Flow.visit_of_run_within h
  refine .own .look (append ?_ (Accounted.looks hlooks))
  rcases hpolls with rfl | hpolls
  · exact .nil
  · exact hvisit polls hpolls

end Accounted

theorem accounted_pause {number : Nat} {delay : Span} {failure : Failure} {t t' : Moment}
    {s s' : σ} {steps : List (Flow.Step σ)} {r : Except Interruption Unit}
    (h : Flow.Run others (pause scope wire number delay failure) t s steps r t' s') :
    client.Accounted others scope wire steps := by
  obtain ⟨_, t₁, t₂, s₂, tail, hnow, htail, rfl⟩ := Flow.run_bind_iff.mp h
  simp only [Flow.now, Flow.run_act_iff] at hnow
  obtain ⟨rfl, rfl, rfl, _⟩ := hnow
  refine .own .look ?_
  rcases hended : scope.ended? t₂ with _ | reason
  · simp only [hended] at htail
    obtain ⟨_, _, t₃, s₃, tail, hreport, hwithin, rfl⟩ := Flow.run_bind_iff.mp htail
    simp only [World.report, Flow.update, Flow.run_act_iff] at hreport
    obtain ⟨rfl, _, rfl, _⟩ := hreport
    refine .own (.retry hended) (Accounted.looks ?_)
    let whole : Cell σ σ := { get := id, set := fun s _ => s }
    have hsleep : (Flow.sleep delay).Leaves whole := Flow.leaves_sleep delay
    exact hwithin.leaves hsleep.within
  · simp only [hended, Flow.pure_eq, Flow.run_done_iff] at htail
    obtain ⟨rfl, _⟩ := htail
    exact .nil

/-- Every poll for an admitted request is accounted for. -/
theorem closed_accounted (client : Client σ) (others : σ → σ → Prop) (scope : Scope)
    (wire : WireRequest) :
    client.Closed scope wire fun _ flow => ∀ t s steps a t' s',
      Flow.Run others flow t s steps a t' s' → client.Accounted others scope wire steps where
  done a := by
    intro t s steps a' t' s' h
    simp only [Flow.run_done_iff] at h
    obtain ⟨rfl, _⟩ := h
    exact .nil
  bind hm hk := by
    intro t s steps a t' s' h
    obtain ⟨head, b, t₁, s₁, tail, hhead, htail, rfl⟩ := Flow.run_bind_iff.mp h
    exact (hm _ _ _ _ _ _ hhead).append (hk b _ _ _ _ _ _ htail)
  announce number := by
    intro t s steps a t' s' h
    simp only [World.report, Flow.update, Flow.run_act_iff] at h
    obtain ⟨rfl, _⟩ := h
    exact .own .announce .nil
  draw := by
    intro t s steps a t' s' h
    simp only [World.draw, Flow.run_act_iff] at h
    obtain ⟨rfl, _⟩ := h
    exact .own .draw .nil
  sign sign hsign := by
    intro t s steps a t' s' h
    refine Accounted.within (fun polls hpolls => ?_) h
    rw [← List.append_nil polls]
    exact .sign hsign hpolls .nil
  send signed := by
    intro t s steps a t' s' h
    refine Accounted.within (fun polls hpolls => ?_) h
    rw [← List.append_nil polls]
    exact .send hpolls .nil
  pause number delay failure := by
    intro t s steps a t' s' h
    exact accounted_pause h

/-- A request returns at once when its time is over, and with the end of its time when that comes in
between. -/
theorem closed_prompt (client : Client σ) (others : σ → σ → Prop) (scope : Scope)
    (wire : WireRequest) : client.Closed scope wire fun _ flow => Flow.Prompt others scope flow where
  done := Flow.prompt_done
  bind hm hk := hm.bind hk
  announce _ := Flow.prompt_act _
  draw := Flow.prompt_act _
  sign _ _ := Flow.prompt_within _
  send _ := Flow.prompt_within _
  pause := closed_pause (fun _ flow => Flow.Prompt others scope flow) Flow.prompt_done
    (fun hm hk => hm.bind hk) (Flow.prompt_act _) (fun _ => Flow.prompt_act _)
    fun _ => Flow.prompt_within _

/-- The waits of the authenticator, the middleware and the transport go forward in time. -/
structure Patient (client : Client σ) : Prop where
  sign : ∀ sign ∈ client.authenticator, ∀ wire, (sign wire).Patient
  chain : ∀ wire, (client.handler wire).Patient

/-- A request whose time is limited comes to an end. -/
theorem Patient.closed (h : client.Patient) (others : σ → σ → Prop) {l : Moment}
    (hlimit : scope.limit = some l) (wire : WireRequest) :
    client.Closed scope wire fun _ flow => ∀ t s, Flow.Ends others flow t s where
  done _ _ _ := .done
  bind hm hk t s := (hm t s).bind fun _ b t₁ s₁ _ => hk b t₁ s₁
  announce _ _ _ := Flow.ends_act
  draw _ _ := Flow.ends_act
  sign sign hsign := Flow.ends_within hlimit (h.sign sign hsign wire)
  send signed := Flow.ends_within hlimit (h.chain signed)
  pause := closed_pause (fun _ flow => ∀ t s, Flow.Ends others flow t s) (fun _ _ _ => .done)
    (fun hm hk t s => (hm t s).bind fun _ b t₁ s₁ _ => hk b t₁ s₁) (fun _ _ => Flow.ends_act)
    (fun _ _ _ => Flow.ends_act) fun d => Flow.ends_within hlimit (Flow.patient_sleep d)

theorem send_of_ended {signed : WireRequest} {t t' : Moment} {s s' : σ}
    {steps : List (Flow.Step σ)} {outcome : Outcome} {reason : Interruption}
    (h : Flow.Run others (client.send scope signed) t s steps outcome t' s')
    (hended : scope.ended? t' = some reason) : outcome = .failed (.interrupted reason) := by
  obtain ⟨_, r, t₁, s₁, tail, hwithin, htail, rfl⟩ := Flow.run_bind_iff.mp h
  rcases Flow.run_within_result hwithin with ⟨answer, rfl, hopen⟩ | ⟨reason', rfl, hended'⟩
  · rcases answer with cause | response
    · simp only [Flow.pure_eq, Flow.run_done_iff] at htail
      obtain ⟨_, _, rfl, _⟩ := htail
      simp [hopen] at hended
    · simp only [Flow.pure_eq, Flow.run_done_iff] at htail
      obtain ⟨_, _, rfl, _⟩ := htail
      simp [hopen] at hended
  · simp only [Flow.pure_eq, Flow.run_done_iff] at htail
    obtain ⟨_, rfl, rfl, _⟩ := htail
    rw [hended, Option.some.injEq] at hended'
    rw [hended']

/-- An attempt that returns when the scope is over was interrupted. -/
theorem attempt_of_ended {t t' : Moment} {s s' : σ} {steps : List (Flow.Step σ)}
    {outcome : Outcome} {reason : Interruption}
    (h : Flow.Run others (client.attempt scope wire) t s steps outcome t' s')
    (hended : scope.ended? t' = some reason) : outcome = .failed (.interrupted reason) := by
  cases attempted_of_run h with
  | plain _ hsend => exact send_of_ended hsend hended
  | interrupted _ hsign =>
      rcases Flow.run_within_result hsign with ⟨_, hr, _⟩ | ⟨_, hr, hended'⟩
      · cases hr
      · cases hr
        rw [hended, Option.some.injEq] at hended'
        rw [hended']
  | unsigned _ hsign =>
      rcases Flow.run_within_result hsign with ⟨_, _, hopen⟩ | ⟨_, hr, _⟩
      · simp [hopen] at hended
      · cases hr
  | signed _ _ hsend => exact send_of_ended hsend hended

/-- What is said of attempts that were interrupted. -/
theorem tryOnce_of_ended {number : Nat} {t t' : Moment} {s s' : σ} {steps : List (Flow.Step σ)}
    {verdict : Verdict} {reason : Interruption}
    (h : Flow.Run others (client.tryOnce scope wire number) t s steps verdict t' s')
    (hended : scope.ended? t' = some reason) :
    ∃ failure decision, verdict = .failure failure decision ∧
      failure.kind = .ofInterruption reason := by
  obtain ⟨trial, hgenuine, _, rfl, _, _, rfl, _, rfl⟩ := run_tryOnce h
  obtain ⟨_, _, hattempt⟩ := hgenuine.attempted
  rw [attempt_of_ended hattempt hended]
  exact ⟨_, _, rfl, rfl⟩

/-- A request that returns when its time is over fails for that reason. -/
theorem attemptFrom_of_ended {number more : Nat} {t t' : Moment} {s s' : σ}
    {steps : List (Flow.Step σ)} {result : Except Failure Response} {reason : Interruption}
    (h : Flow.Run others (client.attemptFrom scope wire number more) t s steps result t' s')
    (hended : scope.ended? t' = some reason) :
    ∃ failure, result = .error failure ∧ failure.kind = .ofInterruption reason := by
  induction more generalizing number t s steps with
  | zero =>
      obtain ⟨_, verdict, t₁, s₁, rest, htry, hrest, rfl⟩ := Flow.run_bind_iff.mp h
      rcases verdict with response | ⟨failure, decision⟩
      · simp only [Flow.pure_eq, Flow.run_done_iff] at hrest
        obtain ⟨_, _, rfl, _⟩ := hrest
        obtain ⟨_, _, hverdict, _⟩ := tryOnce_of_ended htry hended
        simp at hverdict
      · simp only [Flow.pure_eq, Flow.run_done_iff] at hrest
        obtain ⟨_, rfl, rfl, _⟩ := hrest
        obtain ⟨_, _, hverdict, hkind⟩ := tryOnce_of_ended htry hended
        cases hverdict
        exact ⟨failure, rfl, hkind⟩
  | succ more ih =>
      obtain ⟨_, verdict, t₁, s₁, rest, htry, hrest, rfl⟩ := Flow.run_bind_iff.mp h
      rcases verdict with response | ⟨failure, delay | _⟩
      · simp only [Flow.pure_eq, Flow.run_done_iff] at hrest
        obtain ⟨_, _, rfl, _⟩ := hrest
        obtain ⟨_, _, hverdict, _⟩ := tryOnce_of_ended htry hended
        simp at hverdict
      · obtain ⟨_, r, t₂, s₂, rest', hpause, hrest', rfl⟩ := Flow.run_bind_iff.mp hrest
        -- a wait that ran its course leaves the verdict to the attempts after it
        rcases run_pause hpause with ⟨rfl, _, _⟩ | ⟨reason', rfl, hended'⟩
        · exact ih hrest'
        · simp only [Flow.pure_eq, Flow.run_done_iff] at hrest'
          obtain ⟨_, rfl, rfl, _⟩ := hrest'
          rw [hended, Option.some.injEq] at hended'
          exact ⟨_, rfl, by rw [hended']; rfl⟩
      · simp only [Flow.pure_eq, Flow.run_done_iff] at hrest
        obtain ⟨_, rfl, rfl, _⟩ := hrest
        obtain ⟨_, _, hverdict, hkind⟩ := tryOnce_of_ended htry hended
        cases hverdict
        exact ⟨failure, rfl, hkind⟩

/-- How a request that was admitted at the moment `t₀` keeps to its scope. -/
structure KeepsTo (client : Client σ) (others : σ → σ → Prop) (scope : Scope) (wire : WireRequest)
    (t₀ : Moment) (steps : List (Flow.Step σ)) (result : Except Failure Response) (t' : Moment) :
    Prop where
  accounted : client.Accounted others scope wire steps
  at_once : scope.ended? t₀ ≠ none → t' = t₀
  in_time : ∀ l, scope.limit = some l → t' ≤ max t₀ (Moment.tick l)
  cut_off : scope.ended? t₀ = none → scope.ended? t' ≠ none →
    ∃ l, scope.limit = some l ∧ t' = Moment.tick l
  verdict : scope.ended? t' ≠ none → ∃ failure, result = .error failure ∧
    failure.kind = if Scope.reached scope.cancelledAt t' then .network else .timeout

theorem kind_of_ended {t : Moment} {reason : Interruption} (h : scope.ended? t = some reason) :
    FailureKind.ofInterruption reason =
      if Scope.reached scope.cancelledAt t then .network else .timeout := by
  unfold Scope.ended? at h
  split at h
  · rename_i hcancelled
    cases h
    rw [if_pos hcancelled]
    rfl
  · rename_i hcancelled
    split at h
    · cases h
      rw [if_neg hcancelled]
      rfl
    · simp at h

theorem keepsTo_of_run {number more : Nat} {t t' : Moment} {s s' : σ}
    {steps : List (Flow.Step σ)} {result : Except Failure Response}
    (h : Flow.Run others (client.attemptFrom scope wire number more) t s steps result t' s') :
    client.KeepsTo others scope wire t steps result t' := by
  have haccounted :=
    (closed_accounted client others scope wire).closed_attemptFrom number more _ _ _ _ _ _ h
  obtain ⟨hat, hin⟩ :=
    (closed_prompt client others scope wire).closed_attemptFrom number more _ _ _ _ _ _ h
  constructor
  · exact haccounted
  · intro hended
    obtain ⟨reason, hreason⟩ := Option.ne_none_iff_exists'.mp hended
    exact hat reason hreason
  · intro l hlimit
    rcases hbegin : scope.ended? t with _ | reason
    · rcases hended : scope.ended? t' with _ | reason
      · have hlt := Scope.lt_of_ended?_eq_none hlimit hended
        exact Nat.le_trans (Nat.le_of_lt hlt)
          (Nat.le_trans (Moment.le_tick l) (Nat.le_max_right _ _))
      · obtain ⟨l', hlimit', rfl⟩ := hin hbegin reason hended
        rw [hlimit, Option.some.injEq] at hlimit'
        rw [hlimit']
        exact Nat.le_max_right _ _
    · rw [hat reason hbegin]
      exact Nat.le_max_left _ _
  · intro hbegin hended
    obtain ⟨reason, hreason⟩ := Option.ne_none_iff_exists'.mp hended
    exact hin hbegin reason hreason
  · intro hended
    obtain ⟨reason, hreason⟩ := Option.ne_none_iff_exists'.mp hended
    obtain ⟨failure, hresult, hkind⟩ := attemptFrom_of_ended h hreason
    exact ⟨failure, hresult, hkind.trans (kind_of_ended hreason)⟩

/-- A request that gets its token, and whose time is limited from then on, comes to an end. -/
theorem Patient.ends_execute (h : client.Patient) {t : Moment} {s : σ}
    (hadmission : Flow.Ends others (client.awaitToken scope) t s)
    (hlimit : ∀ admission t₀ s₀,
      Flow.Run others (client.awaitToken scope) t s admission (.ok ()) t₀ s₀ →
        (client.scopeOf scope request t₀).limit ≠ none) :
    Flow.Ends others (client.execute scope request) t s := by
  refine Client.ends_execute hadmission ?_
  intro wire admission t₀ s₀ s₁ _ hrun _
  obtain ⟨l, hl⟩ := Option.ne_none_iff_exists'.mp (hlimit admission t₀ s₀ hrun)
  exact (h.closed others hl wire).closed_attemptFrom _ _ t₀ s₁

/-- The scope of a request: that of the caller, with the time that the request has from its
admission on. -/
theorem scopeOf_eq (client : Client σ) (scope : Scope) (request : Request) (t₀ : Moment) :
    client.scopeOf scope request t₀ =
      ⟨scope.cancelledAt, Scope.earlier scope.deadline
        ((request.timeout.or client.settings.timeout).bind t₀.add?)⟩ := by
  obtain ⟨cancelledAt, deadline⟩ := scope
  unfold scopeOf
  rcases request.timeout.or client.settings.timeout with _ | d
  · cases deadline <;> rfl
  · rcases hadd : t₀.add? d with _ | t
    · simp only [Scope.withTimeout, hadd, Option.bind_some]
      cases deadline <;> rfl
    · simp only [Scope.withTimeout, hadd, Option.bind_some, Scope.withDeadline]

/-- One scope, which begins when the request is admitted, bounds all its attempts and waits. -/
theorem execute_keeps_to_scope (client : Client σ) (scope : Scope) (request : Request) :
    (∀ t₀, client.scopeOf scope request t₀ =
      ⟨scope.cancelledAt, Scope.earlier scope.deadline
        ((request.timeout.or client.settings.timeout).bind t₀.add?)⟩) ∧
    (∀ others t s steps result t' s',
      Flow.Run others (client.execute scope request) t s steps result t' s' →
        (∃ failure, request.prepare client.settings = .error failure ∧ steps = [] ∧
          result = .error failure ∧ t' = t) ∨
        (∃ reason, Flow.Run others (client.awaitToken scope) t s steps (.error reason) t' s' ∧
          result = .error (request.failBefore client.settings .rateLimit (.admission reason))) ∨
        ∃ wire t₀ s₀ admission rest,
          request.prepare client.settings = .ok wire ∧
          Flow.Run others (client.awaitToken scope) t s admission (.ok ()) t₀ s₀ ∧
          (client.limiter = none → t₀ = t) ∧
          steps = admission ++ ⟨t₀, s₀, s₀⟩ :: rest ∧
          client.KeepsTo others (client.scopeOf scope request t₀) wire t₀ rest result t') ∧
    ∀ others t s, client.Patient → Flow.Ends others (client.awaitToken scope) t s →
      (∀ admission t₀ s₀, Flow.Run others (client.awaitToken scope) t s admission (.ok ()) t₀ s₀ →
        (client.scopeOf scope request t₀).limit ≠ none) →
      Flow.Ends others (client.execute scope request) t s := by
  refine ⟨scopeOf_eq client scope request, ?_, ?_⟩
  · intro others t s steps result t' s' h
    cases hprepare : request.prepare client.settings with
    | error failure =>
        obtain ⟨rfl, rfl, rfl⟩ := run_execute_of_error hprepare h
        exact .inl ⟨failure, rfl, rfl, rfl, rfl⟩
    | ok wire =>
        rcases run_execute hprepare h with
          ⟨reason, hadmission, hresult⟩ |
          ⟨t₀, s₀, s₁, admission, rest, hadmission, _, rfl, hrest⟩
        · exact .inr (.inl ⟨reason, hadmission, hresult⟩)
        · refine .inr (.inr ⟨wire, t₀, s₀, admission, rest, rfl, hadmission, ?_, rfl, ?_⟩)
          · intro hlimiter
            simp only [awaitToken, hlimiter, Flow.pure_eq, Flow.run_done_iff] at hadmission
            exact hadmission.2.2.1
          · exact keepsTo_of_run hrest
  · intro others t s hpatient hadmission hlimit
    exact hpatient.ends_execute hadmission hlimit

end Client

namespace ScopeBoundWitness

open Rehearsal

/-- Settings that give a request half a second and half a millisecond. -/
def settings : Settings :=
  { RetryScheduleWitness.settings with timeout := some (Span.ofNanos 500500000) }

def client : Client Stage :=
  { settings
    transport := fun _ => do
      Flow.sleep (Span.ofSeconds 10)
      return .ok { status := 200 } }

theorem patient_client : client.Patient where
  sign := by simp [client]
  chain _ := (Flow.patient_sleep _).bind fun _ => trivial

/-- The request ends with the millisecond in which its time is over, with two attempts left. -/
theorem given_up_with_attempts_left :
    Flow.Ends Eq (client.execute .unbounded TokenAccountWitness.request) 0 .empty ∧
      ∃ outcome rest,
        (client.execute .unbounded TokenAccountWitness.request).run 0 .empty 3 = some outcome ∧
        outcome.moment = Span.ofMillis 501 ∧
        Client.attemptsOf outcome.value = 1 ∧
        client.KeepsTo Eq ⟨none, some (Span.ofNanos 500500000)⟩ RetryScheduleWitness.wire 0 rest
          outcome.value outcome.moment := by
  obtain ⟨_, hkeeps, hends⟩ :=
    client.execute_keeps_to_scope .unbounded TokenAccountWitness.request
  constructor
  · refine hends Eq 0 .empty patient_client .done ?_
    intro admission t₀ s₀ hadmission
    simp only [Client.awaitToken, client, Flow.pure_eq, Flow.run_done_iff] at hadmission
    obtain ⟨_, _, rfl, _⟩ := hadmission
    decide
  · have hrun : ((client.execute .unbounded TokenAccountWitness.request).run 0 .empty 3).map
        (fun outcome => (outcome.moment, Client.attemptsOf outcome.value)) =
        some (Span.ofMillis 501, 1) := by decide +kernel
    obtain ⟨outcome, houtcome, hvalue⟩ := Option.map_eq_some_iff.mp hrun
    simp only [Prod.mk.injEq] at hvalue
    obtain ⟨hmoment, hattempts⟩ := hvalue
    obtain ⟨steps, hsteps⟩ := Flow.exists_run_of_run houtcome
    have hok : TokenAccountWitness.request.prepare client.settings =
        .ok RetryScheduleWitness.wire := rfl
    rcases hkeeps Eq 0 .empty steps _ _ _ hsteps with ⟨failure, hprepare, _⟩ |
      ⟨reason, hadmission, _⟩ | ⟨wire, t₀, s₀, admission, rest, hprepare, _, hcall, _, hkept⟩
    · simp [hok] at hprepare
    · simp [Client.awaitToken, client] at hadmission
    · obtain rfl := hcall rfl
      rw [hok, Except.ok.injEq] at hprepare
      subst hprepare
      exact ⟨outcome, rest, houtcome, hmoment, hattempts, hkept⟩

end ScopeBoundWitness
end Courier
