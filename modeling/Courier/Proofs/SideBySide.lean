import Courier.Proofs.AttemptLoop
import Courier.Proofs.LimiterTurn
/-!
Flows side by side.  Two flows that begin at one moment in worlds that are alike are compared by how
they end: at one moment again, in worlds that are alike again, with answers that belong together.
What is compared in this way for the parts is compared for flows that are put together from them,
also within a scope that may cut both of them off.
-/
namespace Courier

/-- Answers that belong together, or the same error. -/
inductive SameAnswer {ε α α' : Type} (same : α → α' → Prop) : Except ε α → Except ε α' → Prop
  | ok {a : α} {a' : α'} (h : same a a') : SameAnswer same (.ok a) (.ok a')
  | error (e : ε) : SameAnswer same (.error e) (.error e)

@[simp] theorem sameAnswer_eq_iff {ε α : Type} {x x' : Except ε α} :
    SameAnswer Eq x x' ↔ x = x' := by
  constructor
  · rintro (⟨rfl⟩ | _)
    · rfl
    · rfl
  · rintro rfl
    cases x with
    | error e => exact .error e
    | ok a => exact .ok rfl

theorem SameAnswer.and {ε α α' : Type} {p q : α → α' → Prop} {x : Except ε α} {x' : Except ε α'}
    (hp : SameAnswer p x x') (hq : SameAnswer q x x') :
    SameAnswer (fun a a' => p a a' ∧ q a a') x x' := by
  cases hp with
  | ok h =>
      cases hq with
      | ok h' => exact .ok ⟨h, h'⟩
  | error e => exact .error e

theorem SameAnswer.imp {ε α α' : Type} {p q : α → α' → Prop} {x : Except ε α} {x' : Except ε α'}
    (hp : SameAnswer p x x') (himp : ∀ a a', p a a' → q a a') : SameAnswer q x x' := by
  cases hp with
  | ok h => exact .ok (himp _ _ h)
  | error e => exact .error e

/-- Two worlds that are alike, and what others do in the one and in the other. -/
structure Mirror (σ : Type) where
  alike : σ → σ → Prop
  others : σ → σ → Prop
  others' : σ → σ → Prop
  keeps : ∀ ⦃s s' s₁ s₁'⦄, alike s s' → others s s₁ → others' s' s₁' → alike s₁ s₁'

namespace Flow

variable {σ α α' β β' : Type} {mirror : Mirror σ} {same : α → α' → Prop} {q : β → β' → Prop}
  {scope : Scope}

/-- Two polls that are both ready, with answers that belong together, or both wait for one moment. -/
inductive SamePoll (alike : σ → σ → Prop) (same : β → β' → Prop) :
    Poll β × σ → Poll β' × σ → Prop
  | ready {b : β} {b' : β'} {s s' : σ} (hanswer : same b b') (halike : alike s s') :
      SamePoll alike same (.ready b, s) (.ready b', s')
  | later (wake : Moment) {s s' : σ} (halike : alike s s') :
      SamePoll alike same (.later wake, s) (.later wake, s')

/-- Two flows side by side from a moment on end at one moment, in worlds that are alike. -/
def PairedAt (mirror : Mirror σ) (t : Moment) (same : α → α' → Prop) (m : Flow σ α)
    (m' : Flow σ α') : Prop :=
  ∀ ⦃s s' steps steps' a a' t₁ t₁' s₁ s₁'⦄, mirror.alike s s' →
    Run mirror.others m t s steps a t₁ s₁ → Run mirror.others' m' t s' steps' a' t₁' s₁' →
      same a a' ∧ t₁ = t₁' ∧ mirror.alike s₁ s₁'

/-- Two flows that are paired whenever they begin. -/
def Paired (mirror : Mirror σ) (same : α → α' → Prop) (m : Flow σ α) (m' : Flow σ α') : Prop :=
  ∀ t, PairedAt mirror t same m m'

/-- Two flows that are paired in every scope in which they begin. -/
def Twin (mirror : Mirror σ) (same : α → α' → Prop) (m : Flow σ α) (m' : Flow σ α') : Prop :=
  ∀ (scope : Scope) t, scope.ended? t = none →
    PairedAt mirror t (SameAnswer same) (guarded scope m) (guarded scope m')

theorem PairedAt.done {t : Moment} {a : α} {a' : α'} (h : same a a') :
    PairedAt mirror t same (.done a) (.done a') := by
  intro s s' steps steps' b b' t₁ t₁' s₁ s₁' halike hrun hrun'
  simp only [run_done_iff] at hrun hrun'
  obtain ⟨_, rfl, rfl, rfl⟩ := hrun
  obtain ⟨_, rfl, rfl, rfl⟩ := hrun'
  exact ⟨h, rfl, halike⟩

/-- What comes after two flows that are paired begins at the moment at which they end, and may use
that their answers belong together. -/
theorem PairedAt.bind {t : Moment} {m : Flow σ β} {m' : Flow σ β'} {k : β → Flow σ α}
    {k' : β' → Flow σ α'} (hm : PairedAt mirror t q m m')
    (hk : ∀ s steps b b' t₁ s₁, Run mirror.others m t s steps b t₁ s₁ → q b b' →
      PairedAt mirror t₁ same (k b) (k' b')) :
    PairedAt mirror t same (m.bind k) (m'.bind k') := by
  intro s s' steps steps' a a' t₁ t₁' s₁ s₁' halike hrun hrun'
  obtain ⟨_, b, t₂, s₂, _, hhead, htail, _⟩ := run_bind_iff.mp hrun
  obtain ⟨_, b', t₂', s₂', _, hhead', htail', _⟩ := run_bind_iff.mp hrun'
  obtain ⟨hanswer, rfl, halike'⟩ := hm halike hhead hhead'
  exact hk _ _ b b' _ _ hhead hanswer halike' htail htail'

/-- Two flows that are polled alike until they are ready, and are paired from then on. -/
theorem paired_await {poll : Moment → σ → Poll β × σ} {poll' : Moment → σ → Poll β' × σ}
    {next : β → Flow σ α} {next' : β' → Flow σ α'}
    (hpoll : ∀ t s s', mirror.alike s s' → SamePoll mirror.alike q (poll t s) (poll' t s'))
    (hnext : ∀ t s s₁ b b', poll t s = (.ready b, s₁) → q b b' →
      PairedAt mirror t same (next b) (next' b')) :
    Paired mirror same (.await poll next) (.await poll' next') := by
  intro t s s' steps steps' a a' t₁ t₁' s₁ s₁' halike hrun hrun'
  generalize hflow : Flow.await poll next = flow at hrun
  induction hrun generalizing s' steps' with
  | done => cases hflow
  | @ready _ _ _ t _ s _ _ _ _ _ _ hready hothers hrest _ =>
      cases hflow
      have hboth := hpoll t s s' halike
      rw [hready] at hboth
      rcases hother : poll' t s' with ⟨b' | wake', s₂'⟩
      · rw [hother] at hboth
        cases hboth with
        | ready hanswer hafter =>
            obtain ⟨_, _, hothers', hrest', _⟩ := hrun'.of_ready hother
            exact hnext t s _ _ b' hready hanswer (mirror.keeps hafter hothers hothers') hrest hrest'
      · rw [hother] at hboth
        cases hboth
  | @later _ _ _ t _ _ s _ _ _ _ _ hlater hothers _ ih =>
      cases hflow
      have hboth := hpoll t s s' halike
      rw [hlater] at hboth
      rcases hother : poll' t s' with ⟨b' | wake', s₂'⟩
      · rw [hother] at hboth
        cases hboth
      · rw [hother] at hboth
        cases hboth with
        | later _ hafter =>
            obtain ⟨_, _, hothers', hrest', _⟩ := hrun'.of_later hother
            exact ih (mirror.keeps hafter hothers hothers') hrest' rfl

theorem Paired.done {a : α} {a' : α'} (h : same a a') :
    Paired mirror same (.done a) (.done a') :=
  fun _ => .done h

theorem Paired.imp {same' : α → α' → Prop} {m : Flow σ α} {m' : Flow σ α'}
    (h : Paired mirror same m m') (himp : ∀ a a', same a a' → same' a a') :
    Paired mirror same' m m' := by
  intro t s s' steps steps' a a' t₁ t₁' s₁ s₁' halike hrun hrun'
  obtain ⟨hanswer, hends⟩ := h t halike hrun hrun'
  exact ⟨himp a a' hanswer, hends⟩

theorem Paired.bind {m : Flow σ β} {m' : Flow σ β'} {k : β → Flow σ α} {k' : β' → Flow σ α'}
    (hm : Paired mirror q m m') (hk : ∀ b b', q b b' → Paired mirror same (k b) (k' b')) :
    Paired mirror same (m.bind k) (m'.bind k') :=
  fun t => (hm t).bind fun _ _ b b' t₁ _ _ hanswer => hk b b' hanswer t₁

theorem Paired.act {f : Moment → σ → α × σ} {f' : Moment → σ → α' × σ}
    (h : ∀ t s s', mirror.alike s s' →
      same (f t s).1 (f' t s').1 ∧ mirror.alike (f t s).2 (f' t s').2) :
    Paired mirror same (act f) (act f') := by
  refine paired_await (q := same) ?_ ?_
  · intro t s s' halike
    exact .ready (h t s s' halike).1 (h t s s' halike).2
  · intro t _ _ b b' _ hanswer
    exact .done hanswer

/-- A scope is over for both of two polls, or for neither. -/
theorem samePoll_guardPoll {poll : Moment → σ → Poll β × σ} {poll' : Moment → σ → Poll β' × σ}
    {t : Moment} {s s' : σ} (halike : mirror.alike s s')
    (h : SamePoll mirror.alike q (poll t s) (poll' t s')) :
    SamePoll mirror.alike (SameAnswer q) (guardPoll scope poll t s)
      (guardPoll scope poll' t s') := by
  rcases hended : scope.ended? t with _ | reason
  · rcases hown : poll t s with ⟨b | wake, s₁⟩ <;> rcases hother : poll' t s' with ⟨b' | wake', s₁'⟩
    all_goals
      rw [hown, hother] at h
      cases h
    · rw [guardPoll_of_ready hended hown, guardPoll_of_ready hended hother]
      exact .ready (.ok ‹_›) ‹_›
    · rw [guardPoll_of_later hended hown, guardPoll_of_later hended hother]
      exact .later _ ‹_›
  · rw [guardPoll_of_ended poll s hended, guardPoll_of_ended poll' s' hended]
    exact .ready (.error reason) halike

theorem ended?_eq_none_of_guardPoll {poll : Moment → σ → Poll β × σ} {t : Moment} {s s₁ : σ} {b : β}
    (h : guardPoll scope poll t s = (.ready (.ok b), s₁)) : scope.ended? t = none := by
  cases hended : scope.ended? t with
  | none => rfl
  | some reason => simp [guardPoll_of_ended poll s hended] at h

/-- Two flows that are polled alike are cut off alike, whether or not their scope lasts when they are
begun. -/
theorem paired_guarded_await (scope : Scope) {poll : Moment → σ → Poll β × σ}
    {poll' : Moment → σ → Poll β' × σ} {next : β → Flow σ α} {next' : β' → Flow σ α'}
    (hpoll : ∀ t s s', mirror.alike s s' → SamePoll mirror.alike q (poll t s) (poll' t s'))
    (hnext : ∀ b b', q b b' → Twin mirror same (next b) (next' b')) :
    Paired mirror (SameAnswer same) (guarded scope (.await poll next))
      (guarded scope (.await poll' next')) := by
  rw [guarded, guarded]
  refine paired_await (q := SameAnswer q) ?_ ?_
  · intro t s s' halike
    exact samePoll_guardPoll halike (hpoll t s s' halike)
  · intro t s s₁ r r' hready hanswer
    cases hanswer with
    | ok hanswer => exact hnext _ _ hanswer scope t (ended?_eq_none_of_guardPoll hready)
    | error reason => exact .done (.error reason)

/-- What comes after a flow in the same scope, if the flow is not given up. -/
def resume (scope : Scope) (k : β → Flow σ α) :
    Except Interruption β → Flow σ (Except Interruption α)
  | .error reason => .done (.error reason)
  | .ok b => guarded scope (k b)

theorem guarded_bind (scope : Scope) (m : Flow σ β) (k : β → Flow σ α) :
    guarded scope (m.bind k) = (guarded scope m).bind (resume scope k) := by
  induction m with
  | done b => rfl
  | await poll next ih =>
      rw [bind, guarded, guarded, bind]
      congr 1
      funext r
      cases r with
      | error reason => rfl
      | ok b => exact ih b

/-- A flow that is not given up in a scope ends while the scope lasts. -/
theorem ended?_eq_none_of_ok {others : σ → σ → Prop} {m : Flow σ β} {t t₁ : Moment} {s s₁ : σ}
    {steps : List (Step σ)} {b : β} (hopen : scope.ended? t = none)
    (hrun : Run others (guarded scope m) t s steps (.ok b) t₁ s₁) : scope.ended? t₁ = none := by
  cases hrun.guarded hopen with
  | whole _ _ hopen' => exact hopen'

theorem Twin.done {a : α} {a' : α'} (h : same a a') : Twin mirror same (.done a) (.done a') :=
  fun _ _ _ => PairedAt.done (.ok h)

theorem Twin.bind {m : Flow σ β} {m' : Flow σ β'} {k : β → Flow σ α} {k' : β' → Flow σ α'}
    (hm : Twin mirror q m m') (hk : ∀ b b', q b b' → Twin mirror same (k b) (k' b')) :
    Twin mirror same (m.bind k) (m'.bind k') := by
  intro scope t hopen
  rw [guarded_bind, guarded_bind]
  refine (hm scope t hopen).bind ?_
  intro s steps r r' t₁ s₁ hrun hanswer
  cases hanswer with
  | ok hanswer => exact hk _ _ hanswer scope t₁ (ended?_eq_none_of_ok hopen hrun)
  | error reason => exact .done (.error reason)

/-- What is known of the answers of twins is known of them together. -/
theorem Twin.and {p : α → α' → Prop} {m : Flow σ α} {m' : Flow σ α'} (h : Twin mirror same m m')
    (h' : Twin mirror p m m') : Twin mirror (fun a a' => same a a' ∧ p a a') m m' := by
  intro scope t hopen s s' steps steps' r r' t₁ t₁' s₁ s₁' halike hrun hrun'
  obtain ⟨hanswer, hends⟩ := h scope t hopen halike hrun hrun'
  obtain ⟨hanswer', _⟩ := h' scope t hopen halike hrun hrun'
  exact ⟨hanswer.and hanswer', hends⟩

theorem Twin.imp {p : α → α' → Prop} {m : Flow σ α} {m' : Flow σ α'} (h : Twin mirror same m m')
    (himp : ∀ a a', same a a' → p a a') : Twin mirror p m m' := by
  intro scope t hopen s s' steps steps' r r' t₁ t₁' s₁ s₁' halike hrun hrun'
  obtain ⟨hanswer, hends⟩ := h scope t hopen halike hrun hrun'
  exact ⟨hanswer.imp himp, hends⟩

/-- Two flows that are polled alike are twins. -/
theorem Twin.await {poll : Moment → σ → Poll β × σ} {poll' : Moment → σ → Poll β' × σ}
    {next : β → Flow σ α} {next' : β' → Flow σ α'}
    (hpoll : ∀ t s s', mirror.alike s s' → SamePoll mirror.alike q (poll t s) (poll' t s'))
    (hnext : ∀ b b', q b b' → Twin mirror same (next b) (next' b')) :
    Twin mirror same (.await poll next) (.await poll' next') :=
  fun scope t _ => paired_guarded_await scope hpoll hnext t

theorem Twin.act {f : Moment → σ → α × σ} {f' : Moment → σ → α' × σ}
    (h : ∀ t s s', mirror.alike s s' →
      same (f t s).1 (f' t s').1 ∧ mirror.alike (f t s).2 (f' t s').2) :
    Twin mirror same (act f) (act f') :=
  Twin.await (fun t s s' halike => .ready (h t s s' halike).1 (h t s s' halike).2)
    fun _ _ hanswer => Twin.done hanswer

/-- Twins within one scope: it is over for both of them, or both are begun in it. -/
theorem Twin.within {m : Flow σ α} {m' : Flow σ α'} (h : Twin mirror same m m') (scope : Scope) :
    Paired mirror (SameAnswer same) (within scope m) (within scope m') := by
  refine paired_await (q := Eq) (fun t s s' halike => .ready rfl halike) ?_
  rintro t s _ ended _ hready rfl
  simp only [Prod.mk.injEq, Poll.ready.injEq] at hready
  cases ended with
  | none => exact h scope t hready.1
  | some reason => exact .done (.error reason)

/-- A sleep takes as long in one world as in the other. -/
theorem twin_sleep (mirror : Mirror σ) (d : Span) : Twin mirror Eq (sleep d) (sleep d) := by
  refine Twin.bind (Twin.act fun t s s' halike => ⟨rfl, halike⟩) ?_
  rintro t _ rfl
  refine Twin.await (q := Eq) ?_ fun _ _ hanswer => Twin.done hanswer
  intro now s s' halike
  by_cases hwake : t.wakeAfter d ≤ now
  · simp only [hwake, ↓reduceIte]
    exact .ready rfl halike
  · simp only [hwake, ↓reduceIte]
    exact .later _ halike

end Flow

/-- A report leaves worlds alike. -/
def Mirror.Records {σ : Type} [World σ] (mirror : Mirror σ) : Prop :=
  ∀ ⦃s s'⦄ (event : Event), mirror.alike s s' →
    mirror.alike (World.record event s) (World.record event s')

/-- Worlds that are alike have the same bucket, also after somebody took from it in both. -/
structure Mirror.Shares {σ : Type} [World σ] (mirror : Mirror σ) (limiter : Limiter σ) : Prop where
  get : ∀ ⦃s s'⦄, mirror.alike s s' → limiter.bucket.get s = limiter.bucket.get s'
  set : ∀ ⦃s s'⦄ bucket, mirror.alike s s' →
    mirror.alike (limiter.bucket.set bucket s) (limiter.bucket.set bucket s')

section

variable {σ : Type} [World σ] {mirror : Mirror σ} {limiter : Limiter σ}

theorem Flow.paired_report (hrecords : mirror.Records) (event : Event) :
    Flow.Paired mirror Eq (World.report event) (World.report event) :=
  .act fun _ _ _ halike => ⟨rfl, hrecords event halike⟩

theorem Flow.twin_report (hrecords : mirror.Records) (event : Event) :
    Flow.Twin mirror Eq (World.report event) (World.report event) :=
  .act fun _ _ _ halike => ⟨rfl, hrecords event halike⟩

/-- Whoever waits for a token is refused as often in one world as in the other. -/
theorem Limiter.paired_acquire (hrecords : mirror.Records) (hshares : mirror.Shares limiter)
    (scope : Scope) : Flow.Paired mirror Eq (limiter.acquire scope) (limiter.acquire scope) := by
  have hturn : ∀ t s s', mirror.alike s s' →
      Flow.SamePoll mirror.alike Eq (limiter.turn t s) (limiter.turn t s') := by
    intro t s s' halike
    unfold turn tryTake
    rw [hshares.get halike]
    rcases (limiter.bucket.get s').take t with ⟨wait | _, bucket⟩
    · exact .later _ (hrecords _ (hshares.set bucket halike))
    · exact .ready rfl (hshares.set bucket halike)
  rw [acquire_eq_guarded]
  have hends := Flow.paired_guarded_await scope hturn fun _ _ hanswer => Flow.Twin.done hanswer
  exact hends.imp fun _ _ => sameAnswer_eq_iff.mp

/-- The same client with other credentials. -/
def Client.signedBy (client : Client σ) (sign : Authenticator σ) : Client σ :=
  { client with authenticator := some sign }

/-- Whoever waits for a token gets one, or none, at the same moment in both worlds. -/
theorem Client.paired_awaitToken {client : Client σ} (hrecords : mirror.Records)
    (hshares : ∀ limiter ∈ client.limiter, mirror.Shares limiter) (scope : Scope) :
    Flow.Paired mirror Eq (client.awaitToken scope) (client.awaitToken scope) := by
  unfold awaitToken
  cases hlimiter : client.limiter with
  | none => exact .done rfl
  | some limiter => exact limiter.paired_acquire hrecords (hshares limiter hlimiter) scope

/-- The wait between two attempts is as long in one world as in the other. -/
theorem Client.paired_pause (hrecords : mirror.Records) (scope : Scope) (wire : WireRequest)
    (number : Nat) (delay : Span) (failure : Failure) :
    Flow.Paired mirror Eq (Client.pause scope wire number delay failure)
      (Client.pause scope wire number delay failure) := by
  refine .bind (.act fun _ _ _ halike => ⟨rfl, halike⟩) ?_
  rintro t _ rfl
  cases scope.ended? t with
  | some reason => exact .done rfl
  | none =>
      refine .bind (Flow.paired_report hrecords _) ?_
      intro _ _ _
      have hends := (Flow.twin_sleep mirror delay).within scope
      exact hends.imp fun _ _ => sameAnswer_eq_iff.mp

end
end Courier
