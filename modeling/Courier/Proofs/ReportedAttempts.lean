import Courier.Proofs.Onion
import Courier.Proofs.ScopeBound
/-!
Attempts that are reported and attempts that are made.  A client is watched in a world that also holds
a list of visits: each time when its authenticator is entered, or the first of its middleware, a visit
is added.  The watched client does what the client does.  A result reports as many attempts as there
are with a visit, but for one case: a request whose time is over when its attempts begin visits nothing
and reports one attempt.
-/
namespace Courier

open Courier.Flow (Writes)

/-- Where an attempt can be. -/
inductive Station
  | signing
  | sending
deriving Repr, DecidableEq

/-- A world with a list of visits beside it. -/
structure Watched (σ : Type) where
  world : σ
  visits : List Station

namespace Watched

variable {σ : Type}

instance [World σ] : World (Watched σ) where
  record event s := { s with world := World.record event s.world }
  random s := ((World.random s.world).1, { s with world := (World.random s.world).2 })

def record : Cell (Watched σ) (List Station) where
  get := Watched.visits
  set visits s := { s with visits }

/-- Others do nothing, or what they do to the world; they make no visits. -/
def others (others : σ → σ → Prop) (s s' : Watched σ) : Prop :=
  s' = s ∨ others s.world s'.world ∧ s'.visits = s.visits

theorem visits_of_others {others : σ → σ → Prop} {s s' : Watched σ}
    (h : Watched.others others s s') : s'.visits = s.visits := by
  rcases h with rfl | ⟨_, hvisits⟩
  · rfl
  · exact hvisits

end Watched

namespace Flow

variable {σ α β : Type} {others : σ → σ → Prop} {scope : Scope}

/-- The flow in a world with visits beside it. -/
def beside : Flow σ α → Flow (Watched σ) α
  | .done a => .done a
  | .await poll next =>
      .await (fun t s => ((poll t s.world).1, { s with world := (poll t s.world).2 }))
        fun b => (next b).beside

/-- The flow with a visit before it. -/
def noted (visit : Station) (flow : Flow (Watched σ) α) : Flow (Watched σ) α :=
  (write Watched.record visit).bind fun _ => flow

theorem leaves_beside (flow : Flow σ α) : flow.beside.Leaves Watched.record := by
  induction flow with
  | done a => trivial
  | await poll next ih => exact ⟨fun _ _ => rfl, ih⟩

/-- A scope ends beside visits as it does without them. -/
theorem guarded_beside (scope : Scope) (flow : Flow σ α) :
    guarded scope flow.beside = (guarded scope flow).beside := by
  induction flow with
  | done a => rfl
  | await poll next ih =>
      rw [beside, guarded, guarded, beside]
      congr 1
      · funext t s
        rcases hended : scope.ended? t with _ | reason
        · rcases hpoll : poll t s.world with ⟨b | wake, s₁⟩
          · rw [guardPoll_of_ready hended hpoll]
            exact guardPoll_of_ready hended (by rw [hpoll])
          · rw [guardPoll_of_later hended hpoll]
            exact guardPoll_of_later hended (by rw [hpoll])
        · rw [guardPoll_of_ended poll s.world hended]
          exact guardPoll_of_ended _ s hended
      · funext r
        cases r with
        | error reason => rfl
        | ok b => exact ih b

theorem within_beside (scope : Scope) (flow : Flow σ α) :
    within scope flow.beside = (within scope flow).beside := by
  rw [within, within, beside, guarded_beside]
  congr 1
  funext ended
  cases ended <;> rfl

/-- Each run of the one flow is a run of the other as well, which comes to the same answer at the
same moment and leaves the same world, whatever was visited. -/
def Follows (others : σ → σ → Prop) (watching : Flow (Watched σ) α) (flow : Flow σ α) : Prop :=
  ∀ t s steps a t' s' visits, Run others flow t s steps a t' s' →
    ∃ watched visits', Run (Watched.others others) watching t ⟨s, visits⟩ watched a t' ⟨s', visits'⟩

theorem follows_done (a : α) : Follows others (.done a) (.done a) := by
  intro t s steps a' t' s' visits h
  simp only [run_done_iff] at h
  obtain ⟨_, rfl, rfl, rfl⟩ := h
  exact ⟨[], visits, .done⟩

theorem Follows.bind {watching : Flow (Watched σ) β} {flow : Flow σ β}
    {k : β → Flow (Watched σ) α} {k' : β → Flow σ α} (h : Follows others watching flow)
    (hk : ∀ b, Follows others (k b) (k' b)) :
    Follows others (watching.bind k) (flow.bind k') := by
  intro t s steps a t' s' visits hrun
  obtain ⟨_, b, t₁, s₁, _, hhead, htail, rfl⟩ := run_bind_iff.mp hrun
  obtain ⟨head, visits₁, hhead'⟩ := h _ _ _ _ _ _ visits hhead
  obtain ⟨tail, visits₂, htail'⟩ := hk b _ _ _ _ _ _ visits₁ htail
  exact ⟨head ++ tail, visits₂, hhead'.bind htail'⟩

theorem follows_beside (flow : Flow σ α) : Follows others flow.beside flow := by
  intro t s steps a t' s' visits h
  have hsteps : Run (Watched.others others) flow.beside t ⟨s, visits⟩
      (steps.map fun step => ⟨step.moment, ⟨step.before, visits⟩, ⟨step.after, visits⟩⟩) a t'
      ⟨s', visits⟩ := by
    induction h with
    | done => exact .done
    | @ready _ poll next t _ s s₁ s₂ _ b _ _ hpoll hothers _ ih =>
        have hready : ((poll t s).1, (⟨(poll t s).2, visits⟩ : Watched σ)) =
            (.ready b, ⟨s₁, visits⟩) := by rw [hpoll]
        have hturn : Watched.others others ⟨s₁, visits⟩ ⟨s₂, visits⟩ := .inr ⟨hothers, rfl⟩
        exact .ready hready hturn ih
    | @later _ poll next t wake _ s s₁ s₂ _ _ _ hpoll hothers _ ih =>
        have hlater : ((poll t s).1, (⟨(poll t s).2, visits⟩ : Watched σ)) =
            (.later wake, ⟨s₁, visits⟩) := by rw [hpoll]
        have hturn : Watched.others others ⟨s₁, visits⟩ ⟨s₂, visits⟩ := .inr ⟨hothers, rfl⟩
        exact .later hlater hturn ih
  exact ⟨_, visits, hsteps⟩

/-- A visit delays nothing. -/
theorem follows_within_noted (scope : Scope) (visit : Station) (flow : Flow σ α) :
    Follows others (within scope (noted visit flow.beside)) (within scope flow) := by
  intro t s steps r t' s' visits h
  obtain ⟨s₁, rest, hothers, hrest, _⟩ := h.of_ready rfl
  have hlook : Watched.others others ⟨s, visits⟩ ⟨s₁, visits⟩ := .inr ⟨hothers, rfl⟩
  rcases hended : scope.ended? t with _ | reason
  · simp only [hended] at hrest
    obtain ⟨tail, visits', htail⟩ := follows_beside _ _ _ _ _ _ _ (visits ++ [visit]) hrest
    rw [← guarded_beside] at htail
    have hvisit : guardPoll scope (fun _ s => (Poll.ready (), put Watched.record visit s)) t
        ⟨s₁, visits⟩ = (.ready (.ok ()), ⟨s₁, visits ++ [visit]⟩) :=
      guardPoll_of_ready hended rfl
    have hstays : Watched.others others ⟨s₁, visits ++ [visit]⟩ ⟨s₁, visits ++ [visit]⟩ :=
      .inl rfl
    have hguarded : Run (Watched.others others) (guarded scope (noted visit flow.beside)) t
        ⟨s₁, visits⟩ (⟨t, ⟨s₁, visits⟩, ⟨s₁, visits ++ [visit]⟩⟩ :: tail) r t' ⟨s', visits'⟩ := by
      rw [noted, write, update, act, bind, guarded]
      exact .ready hvisit hstays htail
    exact ⟨_, visits', .ready (congrArg (fun ended => (Poll.ready ended, _)) hended) hlook
      hguarded⟩
  · simp only [hended, run_done_iff] at hrest
    obtain ⟨_, rfl, rfl, rfl⟩ := hrest
    exact ⟨_, visits, .ready (congrArg (fun ended => (Poll.ready ended, _)) hended) hlook .done⟩

variable {visit : Station} {flow : Flow (Watched σ) α} {watching : Watched σ → Watched σ → Prop}
  {t t' : Moment} {s s' : Watched σ} {steps : List (Step (Watched σ))}

theorem writes_noted {a : α} (h : Run watching (noted visit flow) t s steps a t' s')
    (hleaves : flow.Leaves Watched.record) : Writes Watched.record steps [visit] := by
  obtain ⟨_, _, _, _, _, hvisit, hflow, rfl⟩ := run_bind_iff.mp h
  obtain ⟨rfl, _, _⟩ := run_write_iff.mp hvisit
  exact (writes_put t visit s).append (writes_of_leaves hflow hleaves)

theorem writes_noted_suspended (h : Suspended watching (noted visit flow) t s steps)
    (hleaves : flow.Leaves Watched.record) : Writes Watched.record steps [visit] := by
  rcases suspended_bind h with hfirst | ⟨_, _, _, _, _, hvisit, hflow, rfl⟩
  · exact absurd hfirst not_suspended_act
  · obtain ⟨rfl, _, _⟩ := run_write_iff.mp hvisit
    exact (writes_put t visit s).append (writes_of_suspended hflow hleaves)

/-- Within a scope a flow is visited once if it is begun, and not visited if the scope is over. -/
theorem writes_within_noted {r : Except Interruption α}
    (h : Run watching (within scope (noted visit flow)) t s steps r t' s')
    (hleaves : flow.Leaves Watched.record) :
    (scope.ended? t = none ∧ Writes Watched.record steps [visit]) ∨
      ∃ reason, scope.ended? t = some reason ∧ r = .error reason ∧ t' = t ∧
        Writes Watched.record steps [] := by
  have hlook : Writes Watched.record [(⟨t, s, s⟩ : Step (Watched σ))] [] :=
    writes_nothing (by simp)
  rcases run_within h with ⟨reason, hended, rfl, hr, ht⟩ | ⟨hopen, s₁, rest, _, rfl, hguarded⟩
  · exact .inr ⟨reason, hended, hr, ht, hlook⟩
  · refine .inl ⟨hopen, ?_⟩
    cases hguarded with
    | whole hrun _ _ => exact hlook.append (writes_noted hrun hleaves)
    | @cut polls _ l s₂ _ hpolls _ _ _ _ =>
        have hlast : Writes Watched.record [(⟨Moment.tick l, s₂, s₂⟩ : Step (Watched σ))] [] :=
          writes_nothing (by simp)
        exact hlook.append ((writes_noted_suspended hpolls hleaves).append hlast)

end Flow

namespace Limiter

variable {σ : Type} [World σ]

def beside (limiter : Limiter σ) : Limiter (Watched σ) where
  rate := limiter.rate
  bucket :=
    { get := fun s => limiter.bucket.get s.world
      set := fun bucket s => { s with world := limiter.bucket.set bucket s.world }
      get_set := fun bucket s => limiter.bucket.get_set bucket s.world
      set_get := fun s => congrArg (Watched.mk · s.visits) (limiter.bucket.set_get s.world)
      set_set := fun a b s => congrArg (Watched.mk · s.visits) (limiter.bucket.set_set a b s.world) }
  get_record event s := limiter.get_record event s.world
  get_random s := limiter.get_random s.world

theorem acquire_beside (limiter : Limiter σ) (scope : Scope) :
    limiter.beside.acquire scope = (limiter.acquire scope).beside := by
  rw [acquire_eq_guarded, acquire_eq_guarded, ← Flow.guarded_beside, Flow.beside]
  congr 2
  funext t s
  have hbucket : limiter.beside.bucket.get s = limiter.bucket.get s.world := rfl
  unfold turn tryTake
  rw [hbucket]
  rcases (limiter.bucket.get s.world).take t with ⟨wait | _, bucket⟩ <;> rfl

end Limiter
namespace Client

variable {σ : Type} [World σ] {client : Client σ} {others : σ → σ → Prop} {scope : Scope}
  {request : Request} {wire : WireRequest}

/-- The client in a world with visits beside it.  It notes when its authenticator is entered, and when
the first of its middleware is, or its transport if there is none. -/
def watched (client : Client σ) : Client (Watched σ) where
  settings := client.settings
  limiter := client.limiter.map Limiter.beside
  middlewares := [fun inner wire => Flow.noted .sending (inner wire)]
  authenticator := client.authenticator.map fun sign wire => Flow.noted .signing (sign wire).beside
  transport wire := (client.handler wire).beside

/-- What an attempt is to enter, in order. -/
def stations (client : Client σ) : List Station :=
  if client.authenticator.isSome then [.signing, .sending] else [.sending]

section Follows

open Courier.Flow (Follows follows_done follows_beside follows_within_noted)

theorem awaitToken_watched (client : Client σ) (scope : Scope) :
    client.watched.awaitToken scope = (client.awaitToken scope).beside := by
  unfold awaitToken
  cases hlimiter : client.limiter with
  | none =>
      simp only [watched, hlimiter, Option.map_none]
      rfl
  | some limiter =>
      simp only [watched, hlimiter, Option.map_some]
      exact limiter.acquire_beside scope

theorem follows_send (client : Client σ) (scope : Scope) (signed : WireRequest) :
    Follows others (client.watched.send scope signed) (client.send scope signed) := by
  rw [send_eq, send_eq]
  exact (follows_within_noted scope .sending (client.handler signed)).bind fun _ => follows_done _

theorem follows_attempt (client : Client σ) (scope : Scope) (wire : WireRequest) :
    Follows others (client.watched.attempt scope wire) (client.attempt scope wire) := by
  unfold attempt
  cases hsign : client.authenticator with
  | none =>
      simp only [watched, hsign, Option.map_none]
      exact client.follows_send scope wire
  | some sign =>
      simp only [watched, hsign, Option.map_some]
      refine (follows_within_noted scope .signing (sign wire)).bind ?_
      rintro (reason | cause | signed)
      · exact follows_done _
      · exact follows_done _
      · exact client.follows_send scope signed

theorem follows_tryOnce (client : Client σ) (scope : Scope) (wire : WireRequest) (number : Nat) :
    Follows others (client.watched.tryOnce scope wire number)
      (client.tryOnce scope wire number) := by
  refine (follows_beside (World.report _)).bind fun _ => ?_
  refine (client.follows_attempt scope wire).bind fun outcome => ?_
  exact (follows_beside World.draw).bind fun bits => follows_done _

theorem follows_pause (scope : Scope) (wire : WireRequest) (number : Nat) (delay : Span)
    (failure : Failure) :
    Follows others (pause scope wire number delay failure)
      (pause scope wire number delay failure) := by
  refine (follows_beside Flow.now).bind fun t => ?_
  cases scope.ended? t with
  | some reason => exact follows_done _
  | none =>
      refine (follows_beside (World.report _)).bind fun _ => ?_
      have hsleep : Follows others (Flow.within scope (Flow.sleep delay).beside)
          (Flow.within scope (Flow.sleep delay)) := by
        rw [Flow.within_beside]
        exact follows_beside _
      exact hsleep

/-- The watched client makes the attempts of the client. -/
theorem follows_attemptFrom (client : Client σ) (scope : Scope) (wire : WireRequest)
    (number more : Nat) :
    Follows others (client.watched.attemptFrom scope wire number more)
      (client.attemptFrom scope wire number more) := by
  induction more generalizing number with
  | zero =>
      refine (client.follows_tryOnce scope wire number).bind ?_
      rintro (response | ⟨failure, decision⟩)
      · exact follows_done _
      · exact follows_done _
  | succ more ih =>
      refine (client.follows_tryOnce scope wire number).bind ?_
      rintro (response | ⟨failure, delay | _⟩)
      · exact follows_done _
      · refine (follows_pause scope wire number delay failure).bind ?_
        rintro (reason | _)
        · exact follows_done _
        · exact ih (number + 1)
      · exact follows_done _

end Follows

variable {watching : Watched σ → Watched σ → Prop} {t t' : Moment} {s s' : Watched σ}
  {steps : List (Flow.Step (Watched σ))}

/-- To send is to enter the chain, unless the scope is over. -/
theorem writes_send {signed : WireRequest} {outcome : Outcome}
    (h : Flow.Run watching (client.watched.send scope signed) t s steps outcome t' s') :
    (scope.ended? t = none ∧ Writes Watched.record steps [.sending]) ∨
      scope.ended? t ≠ none ∧ Writes Watched.record steps [] := by
  rw [send_eq] at h
  obtain ⟨_, _, _, _, _, hwithin, hdone, rfl⟩ := Flow.run_bind_iff.mp h
  simp only [Flow.run_done_iff] at hdone
  rw [hdone.1, List.append_nil]
  rcases Flow.writes_within_noted hwithin (Flow.leaves_beside _) with
    hentered | ⟨reason, hended, _, _, hnone⟩
  · exact .inl hentered
  · exact .inr ⟨by simp [hended], hnone⟩

/-- To sign is to enter the authenticator, unless the scope is over. -/
theorem writes_sign {sign : Authenticator (Watched σ)}
    {r : Except Interruption (Except AuthError WireRequest)}
    (hmem : sign ∈ client.watched.authenticator)
    (h : Flow.Run watching (Flow.within scope (sign wire)) t s steps r t' s') :
    client.stations = [.signing, .sending] ∧
      ((scope.ended? t = none ∧ Writes Watched.record steps [.signing]) ∨
        ∃ reason, scope.ended? t = some reason ∧ r = .error reason ∧
          Writes Watched.record steps []) := by
  obtain ⟨sign, hsign, rfl⟩ := Option.map_eq_some_iff.mp hmem
  refine ⟨by simp [stations, hsign], ?_⟩
  rcases Flow.writes_within_noted h (Flow.leaves_beside _) with
    hentered | ⟨reason, hended, hr, _, hnone⟩
  · exact .inl hentered
  · exact .inr ⟨reason, hended, hr, hnone⟩

/-- An attempt enters a beginning of what it is to enter, and nothing at all if and only if the scope
is over when it begins. -/
theorem exists_visits_of_attempt {outcome : Outcome}
    (h : Flow.Run watching (client.watched.attempt scope wire) t s steps outcome t' s') :
    ∃ visits, Writes Watched.record steps visits ∧ visits <+: client.stations ∧
      (visits = [] ↔ scope.ended? t ≠ none) := by
  cases attempted_of_run h with
  | plain hnone hsend =>
      have hstations : client.stations = [.sending] := by
        simpa [stations, watched] using hnone
      rw [hstations]
      rcases writes_send hsend with ⟨hopen, hvisits⟩ | ⟨hended, hvisits⟩
      · exact ⟨_, hvisits, List.prefix_refl _, by simp [hopen]⟩
      · exact ⟨_, hvisits, List.nil_prefix, by simpa using hended⟩
  | interrupted hmem hsign =>
      obtain ⟨hstations, ⟨hopen, hvisits⟩ | ⟨reason, hended, _, hvisits⟩⟩ := writes_sign hmem hsign
      · rw [hstations]
        exact ⟨_, hvisits, ⟨[.sending], rfl⟩, by simp [hopen]⟩
      · exact ⟨_, hvisits, List.nil_prefix, by simp [hended]⟩
  | unsigned hmem hsign =>
      obtain ⟨hstations, ⟨hopen, hvisits⟩ | ⟨_, _, hr, _⟩⟩ := writes_sign hmem hsign
      · rw [hstations]
        exact ⟨_, hvisits, ⟨[.sending], rfl⟩, by simp [hopen]⟩
      · cases hr
  | signed hmem hsign hsend =>
      obtain ⟨hstations, ⟨hopen, hvisits⟩ | ⟨_, _, hr, _⟩⟩ := writes_sign hmem hsign
      · rw [hstations]
        rcases Flow.run_within_result hsign with ⟨_, _, hopen'⟩ | ⟨_, hr, _⟩
        · rcases writes_send hsend with ⟨_, hvisits'⟩ | ⟨hended, _⟩
          · exact ⟨_, hvisits.append hvisits', List.prefix_refl _, by simp [hopen]⟩
          · exact absurd hopen' hended
        · cases hr
      · cases hr

/-- What the attempts of a request enter that was admitted at a moment. -/
structure Visited (client : Client σ) (scope : Scope) (t : Moment) (trials : List (Trial (Watched σ)))
    (journal : List (List Station)) : Prop where
  /-- the journal has the visits of each attempt -/
  written : List.Forall₂ (fun trial visits => Writes Watched.record trial.polls visits) trials journal
  ordered : ∀ visits ∈ journal, visits <+: client.stations
  begun : scope.ended? t = none → ∀ visits ∈ journal, visits ≠ []
  late : scope.ended? t ≠ none → journal = [[]]

/-- What a trial enters is all that is written in it. -/
theorem Trial.Genuine.exists_visits {trial : Trial (Watched σ)}
    (h : trial.Genuine client.watched watching scope wire)
    (hpause : Writes Watched.record trial.pause []) :
    ∃ visits, Writes Watched.record trial.steps visits ∧
      Writes Watched.record trial.polls visits ∧ visits <+: client.stations ∧
      (visits = [] ↔ scope.ended? trial.began ≠ none) := by
  obtain ⟨_, _, hattempt⟩ := h.attempted
  obtain ⟨visits, hvisits, hordered, hnone⟩ := exists_visits_of_attempt hattempt
  have htrial := h.writes (fun _ _ => rfl) (fun _ => rfl) hvisits hpause
  exact ⟨visits, htrial, hvisits, hordered, hnone⟩

theorem writes_pause {number : Nat} {delay : Span} {failure : Failure} {r : Except Interruption Unit}
    (h : Flow.Run watching (pause scope wire number delay failure) t s steps r t' s') :
    Writes Watched.record steps [] :=
  Flow.writes_of_leaves h (leaves_pause (fun _ _ => rfl) number delay failure)

/-- One attempt. -/
theorem visited_singleton {trial : Trial (Watched σ)} {visits : List Station}
    (hvisits : Writes Watched.record trial.polls visits) (hordered : visits <+: client.stations)
    (hnone : visits = [] ↔ scope.ended? trial.began ≠ none) :
    client.Visited scope trial.began [trial] [visits] where
  written := .cons hvisits .nil
  ordered := by simpa using hordered
  begun hopen := by simpa [hopen] using hnone
  late hended := by rw [hnone.mpr hended]

/-- Only the first attempt of a request can begin when the time is over: a wait before another one
that comes to its end leaves some of it. -/
theorem Course.exists_visited {first : Nat} {trials : List (Trial (Watched σ))}
    {result : Except Failure Response}
    (h : client.watched.Course watching scope wire first t trials result t') :
    ∃ journal, Writes Watched.record (trials.flatMap Trial.steps) journal.flatten ∧
      client.Visited scope t trials journal := by
  induction h with
  | @final trial hgenuine hrests _ =>
      have hpause : Writes Watched.record trial.pause [] := by
        rw [hrests]
        exact .nil
      obtain ⟨visits, hsteps, hvisits, hordered, hnone⟩ := hgenuine.exists_visits hpause
      refine ⟨[visits], ?_, visited_singleton hvisits hordered hnone⟩
      simpa using hsteps
  | interrupted hgenuine _ _ _ hpause =>
      obtain ⟨visits, hsteps, hvisits, hordered, hnone⟩ :=
        hgenuine.exists_visits (writes_pause hpause)
      refine ⟨[visits], ?_, visited_singleton hvisits hordered hnone⟩
      simpa using hsteps
  | @again trial _ _ _ t₁ _ _ _ hgenuine _ _ _ hpause _ ih =>
      obtain ⟨visits, hsteps, hvisits, hordered, hnone⟩ :=
        hgenuine.exists_visits (writes_pause hpause)
      obtain ⟨journal, hrest, hvisited⟩ := ih
      have hopen : scope.ended? t₁ = none := by
        rcases run_pause hpause with ⟨_, _, hopen⟩ | ⟨_, hr, _⟩
        · exact hopen
        · cases hr
      have hbegan : scope.ended? trial.began = none := by
        obtain ⟨_, _, hattempt⟩ := hgenuine.attempted
        exact Scope.ended?_eq_none_of_le (Nat.le_trans hattempt.le hpause.le) hopen
      refine ⟨visits :: journal, ?_, ?_⟩
      · rw [List.flatMap_cons, List.flatten_cons]
        exact hsteps.append hrest
      · constructor
        · exact .cons hvisits hvisited.written
        · exact List.forall_mem_cons.mpr ⟨hordered, hvisited.ordered⟩
        · intro _
          refine List.forall_mem_cons.mpr ⟨?_, hvisited.begun hopen⟩
          simpa [hbegan] using hnone
        · intro hended
          exact absurd hbegan hended

/-- The attempts in which something was entered. -/
def entered (journal : List (List Station)) : Nat :=
  journal.countP fun visits => !visits.isEmpty

theorem Visited.entered_eq {trials : List (Trial (Watched σ))} {journal : List (List Station)}
    (h : client.Visited scope t trials journal) :
    entered journal = if scope.ended? t = none then journal.length else 0 := by
  by_cases hopen : scope.ended? t = none
  · rw [if_pos hopen, entered, List.countP_eq_length]
    simpa using h.begun hopen
  · rw [if_neg hopen, h.late hopen]
    rfl

/-- The time of a request is over at its admission if that of its caller is, or if it has none. -/
theorem scopeOf_ended_iff (client : Client σ) (scope : Scope) (request : Request) (t₀ : Moment) :
    (client.scopeOf scope request t₀).ended? t₀ ≠ none ↔
      scope.ended? t₀ ≠ none ∨
        request.timeout.or client.settings.timeout = some 0 ∧ t₀ < Moment.last := by
  rw [scopeOf_eq, Scope.ended?_ne_none_iff, Scope.ended?_ne_none_iff, Scope.reached_earlier,
    ← or_assoc]
  refine or_congr_right ?_
  rcases request.timeout.or client.settings.timeout with _ | d
  · simp [Scope.reached]
  · simp only [Option.bind_some, Option.some.injEq]
    by_cases hclock : t₀ + d < Moment.last
    · have hnone : ∀ n m last : Nat, n + m < last → (n + m ≤ n ↔ m = 0 ∧ n < last) := by omega
      simp only [Moment.add?, if_pos hclock, Scope.reached, decide_eq_true_eq]
      exact hnone t₀ d Moment.last hclock
    · have hpast : ∀ n m last : Nat, ¬ n + m < last → ¬ (m = 0 ∧ n < last) := by omega
      simp only [Moment.add?, if_neg hclock, Scope.reached, Bool.false_eq_true, false_iff]
      exact hpast t₀ d Moment.last hclock

/-- Who is admitted by a limiter still has time, and without a limiter no time passes. -/
theorem awaitToken_cases {t t₀ : Moment} {s s₀ : σ} {admission : List (Flow.Step σ)}
    (h : Flow.Run others (client.awaitToken scope) t s admission (.ok ()) t₀ s₀) :
    client.limiter = none ∧ t₀ = t ∨ client.limiter ≠ none ∧ scope.ended? t₀ = none := by
  unfold awaitToken at h
  cases hlimiter : client.limiter with
  | none =>
      simp only [hlimiter, Flow.pure_eq, Flow.run_done_iff] at h
      exact .inl ⟨rfl, h.2.2.1⟩
  | some limiter =>
      simp only [hlimiter] at h
      rw [limiter.acquire_eq_guarded] at h
      rcases hended : scope.ended? t with _ | reason
      · cases h.guarded hended with
        | whole _ _ hopen => exact .inr ⟨by simp, hopen⟩
      · obtain ⟨_, hr, _⟩ := h.guarded_of_ended hended
        cases hr

/-- The attempts of an admitted request, watched. -/
theorem exists_visited_of_run {t t' : Moment} {s s' : σ} {steps : List (Flow.Step σ)}
    {result : Except Failure Response}
    (h : Flow.Run others (client.attemptFrom scope wire 1 (client.attempts - 1)) t s steps result t'
      s') :
    ∃ watched journal trials,
      Flow.Run (Watched.others others) (client.watched.attemptFrom scope wire 1 (client.attempts - 1))
        t ⟨s, []⟩ watched result t' ⟨s', journal.flatten⟩ ∧
      client.watched.Course (Watched.others others) scope wire 1 t trials result t' ∧
      client.Visited scope t trials journal ∧ journal.length = attemptsOf result := by
  obtain ⟨watched, visits, hwatched⟩ := client.follows_attemptFrom scope wire _ _ _ _ _ _ _ _ [] h
  have hcount : 1 + (client.attempts - 1) = client.attempts :=
    Nat.add_sub_cancel' (one_le_attempts client)
  obtain ⟨trials, hcourse, rfl⟩ := exists_course hwatched (Nat.le_refl 1) hcount
  obtain ⟨journal, hjournal, hvisited⟩ := hcourse.exists_visited
  have hvisits : visits = [] ++ journal.flatten :=
    hjournal.get_of_run hwatched fun _ _ => Watched.visits_of_others
  rw [hvisits] at hwatched
  have hattempts := hcourse.attemptsOf_eq
  have hlength := hvisited.written.length_eq
  exact ⟨_, journal, trials, hwatched, hcourse, hvisited, by omega⟩

/-- A request is late if its time is over when its attempts begin: it has none, or that of its caller
is over and no limiter has asked for it. -/
def Late (client : Client σ) (scope : Scope) (request : Request) (t t₀ : Moment) : Prop :=
  client.limiter = none ∧ scope.ended? t ≠ none ∨
    request.timeout.or client.settings.timeout = some 0 ∧ t₀ < Moment.last

/-- A client that waits for a token makes no visits. -/
theorem run_awaitToken_watched {t t' : Moment} {s s' : σ} {steps : List (Flow.Step σ)}
    {r : Except Interruption Unit}
    (h : Flow.Run others (client.awaitToken scope) t s steps r t' s') :
    ∃ watched, Flow.Run (Watched.others others) (client.watched.awaitToken scope) t ⟨s, []⟩ watched r
      t' ⟨s', []⟩ := by
  rw [awaitToken_watched]
  obtain ⟨watched, visits, hwatched⟩ := Flow.follows_beside _ _ _ _ _ _ _ [] h
  have hnone := Flow.writes_of_leaves hwatched (Flow.leaves_beside _)
  have hkept := hnone.get_of_run hwatched fun _ _ => Watched.visits_of_others
  cases hkept
  exact ⟨watched, hwatched⟩

theorem late_iff {t t₀ : Moment} {s s₀ : σ} {admission : List (Flow.Step σ)}
    (h : Flow.Run others (client.awaitToken scope) t s admission (.ok ()) t₀ s₀) :
    client.Late scope request t t₀ ↔ (client.scopeOf scope request t₀).ended? t₀ ≠ none := by
  rw [scopeOf_ended_iff, Late]
  refine or_congr_left ?_
  rcases awaitToken_cases h with ⟨hlimiter, rfl⟩ | ⟨hlimiter, hopen⟩
  · simp [hlimiter]
  · simp [hlimiter, hopen]

theorem run_execute_of_refused {t t' : Moment} {s s' : σ} {steps : List (Flow.Step σ)}
    {reason : Interruption} (hprepare : request.prepare client.settings = .ok wire)
    (h : Flow.Run others (client.awaitToken scope) t s steps (.error reason) t' s') :
    Flow.Run others (client.execute scope request) t s (steps ++ [])
      (.error (request.failBefore client.settings .rateLimit (.admission reason))) t' s' := by
  simp only [execute, hprepare]
  exact h.bind .done

theorem run_execute_of_admitted {t t₀ t' : Moment} {s s₀ s₁ s' : σ}
    {admission rest : List (Flow.Step σ)} {result : Except Failure Response}
    (hprepare : request.prepare client.settings = .ok wire)
    (hadmission : Flow.Run others (client.awaitToken scope) t s admission (.ok ()) t₀ s₀)
    (hothers : others s₀ s₁)
    (hrest : Flow.Run others (client.attemptFrom (client.scopeOf scope request t₀) wire 1
      (client.attempts - 1)) t₀ s₁ rest result t' s') :
    Flow.Run others (client.execute scope request) t s (admission ++ ⟨t₀, s₀, s₀⟩ :: rest) result t'
      s' := by
  simp only [execute, hprepare]
  exact hadmission.bind (.ready rfl hothers hrest)

/-- A result reports an attempt for each attempt in which something is entered, and none if the request
is not admitted.  A request that is late reports one attempt, in which nothing is entered. -/
theorem execute_reports_attempts {t t' : Moment} {s s' : σ} {steps : List (Flow.Step σ)}
    {result : Except Failure Response}
    (h : Flow.Run others (client.execute scope request) t s steps result t' s') :
    ∃ watched journal,
      Flow.Run (Watched.others others) (client.watched.execute scope request) t ⟨s, []⟩ watched
        result t' ⟨s', journal.flatten⟩ ∧
      journal.length = attemptsOf result ∧
      ((journal = [] ∧ ((∃ failure, request.prepare client.settings = .error failure) ∨
          ∃ reason, Flow.Run others (client.awaitToken scope) t s steps (.error reason) t' s')) ∨
        ∃ wire t₀ s₀ admission trials,
          request.prepare client.settings = .ok wire ∧
          Flow.Run others (client.awaitToken scope) t s admission (.ok ()) t₀ s₀ ∧
          client.watched.Course (Watched.others others) (client.scopeOf scope request t₀) wire 1 t₀
            trials result t' ∧
          client.Visited (client.scopeOf scope request t₀) t₀ trials journal ∧
          (entered journal = attemptsOf result ↔ ¬ client.Late scope request t t₀) ∧
          (client.Late scope request t t₀ → attemptsOf result = 1 ∧ entered journal = 0)) := by
  cases hprepare : request.prepare client.settings with
  | error failure =>
      simp only [execute, hprepare, Flow.pure_eq, Flow.run_done_iff] at h
      obtain ⟨_, rfl, rfl, rfl⟩ := h
      have hwatched : Flow.Run (Watched.others others) (client.watched.execute scope request) t'
          ⟨s', []⟩ [] (.error failure) t' ⟨s', []⟩ := by
        simp only [execute, watched, hprepare]
        exact .done
      obtain ⟨cause, rfl⟩ := Request.exists_cause_of_prepare hprepare
      exact ⟨[], [], hwatched, rfl, .inl ⟨rfl, .inl ⟨_, rfl⟩⟩⟩
  | ok wire =>
      rcases run_execute hprepare h with
        ⟨reason, hturned, rfl⟩ | ⟨t₀, s₀, s₁, admission, rest, hadmission, hothers, rfl, hrest⟩
      · obtain ⟨waiting, hwaiting⟩ := run_awaitToken_watched hturned
        exact ⟨_, [], run_execute_of_refused hprepare hwaiting, rfl, .inl ⟨rfl, .inr ⟨_, hturned⟩⟩⟩
      · obtain ⟨waiting, hwaiting⟩ := run_awaitToken_watched hadmission
        obtain ⟨tries, journal, trials, htries, hcourse, hvisited, hattempts⟩ :=
          exists_visited_of_run hrest
        have hturn : Watched.others others ⟨s₀, []⟩ ⟨s₁, []⟩ := .inr ⟨hothers, rfl⟩
        have hwatched : Flow.Run (Watched.others others) (client.watched.execute scope request) t
            ⟨s, []⟩ _ result t' ⟨s', journal.flatten⟩ :=
          run_execute_of_admitted hprepare hwaiting hturn htries
        have hentered := hvisited.entered_eq
        refine ⟨_, journal, hwatched, hattempts, .inr ⟨wire, t₀, s₀, admission, trials, rfl, hadmission,
          hcourse, hvisited, ?_, ?_⟩⟩
        · rw [late_iff hadmission, not_not]
          by_cases hopen : (client.scopeOf scope request t₀).ended? t₀ = none
          · rw [if_pos hopen, hattempts] at hentered
            exact iff_of_true hentered hopen
          · rw [if_neg hopen] at hentered
            rw [hvisited.late hopen, List.length_singleton] at hattempts
            exact iff_of_false (by omega) hopen
        · intro hlate
          rw [late_iff hadmission] at hlate
          rw [if_neg hlate] at hentered
          rw [hvisited.late hlate] at hattempts
          exact ⟨hattempts.symm, hentered⟩

end Client

namespace ReportedAttemptsWitness

open Rehearsal

/-- A client with credentials whose first attempt is answered with a failure. -/
def client : Client Stage :=
  { RetryScheduleWitness.client with authenticator := some fun wire => .done (.ok wire) }

/-- How a request of the watched client ends, how many attempts it reports, and what was entered. -/
def ending (asked : Client Stage) (scope : Scope) (request : Request) :
    Option (Bool × Nat × List Station) :=
  ((asked.watched.execute scope request).run 0 ⟨.empty, []⟩ 4).map fun outcome =>
    (outcome.value.isOk, Client.attemptsOf outcome.value, outcome.world.visits)

/-- The second attempt is answered, and in both of them something was entered. -/
theorem two_attempts_reported :
    ∃ outcome watched journal,
      (client.execute .unbounded TokenAccountWitness.request).run 0 .empty 4 = some outcome ∧
      outcome.value.isOk = true ∧ Client.attemptsOf outcome.value = 2 ∧
      Flow.Run (Watched.others Eq) (client.watched.execute .unbounded TokenAccountWitness.request) 0
        ⟨.empty, []⟩ watched outcome.value outcome.moment ⟨outcome.world, journal.flatten⟩ ∧
      Client.entered journal = 2 := by
  have hrun : ((client.execute .unbounded TokenAccountWitness.request).run 0 .empty 4).map
      (fun outcome => (outcome.value.isOk, Client.attemptsOf outcome.value)) = some (true, 2) := by
    decide +kernel
  obtain ⟨outcome, steps, houtcome, hvalue, hsteps⟩ := Flow.exists_run_of_map hrun
  simp only [Prod.mk.injEq] at hvalue
  obtain ⟨hok, hattempts⟩ := hvalue
  obtain ⟨watched, journal, hwatched, hlength, hcases⟩ := Client.execute_reports_attempts hsteps
  refine ⟨outcome, watched, journal, houtcome, hok, hattempts, hwatched, ?_⟩
  rcases hcases with ⟨rfl, _⟩ | ⟨_, t₀, _, _, _, _, _, _, _, hentered, _⟩
  · rw [hattempts] at hlength
    cases hlength
  · have hearly : ¬ client.Late .unbounded TokenAccountWitness.request 0 t₀ := by
      rintro (⟨_, hended⟩ | ⟨htimeout, _⟩)
      · exact hended rfl
      · cases htimeout
    rw [hentered.mpr hearly, hattempts]

def hurried : Request := { TokenAccountWitness.request with timeout := some 0 }

/-- A scope that is cancelled or expired at the call, or a request without time, is reported as an
attempt in which nothing was entered.  A client with a limiter reports none in such a scope. -/
theorem attempt_reported_without_visit :
    ending client ⟨some 0, none⟩ TokenAccountWitness.request = some (false, 1, []) ∧
    ending client ⟨none, some 0⟩ TokenAccountWitness.request = some (false, 1, []) ∧
    ending TokenAccountWitness.client .unbounded hurried = some (false, 1, []) ∧
    ending TokenAccountWitness.client ⟨some 0, none⟩ TokenAccountWitness.request =
      some (false, 0, []) := by
  decide +kernel

end ReportedAttemptsWitness
end Courier
