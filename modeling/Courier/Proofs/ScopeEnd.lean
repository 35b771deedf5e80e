import Courier.Proofs.FlowRun
/-!
Ends of scopes.  A scope is over from its limit on, and a flow within a scope either is not begun,
or comes to its own end while the scope lasts, or is given up at the first whole millisecond that is
not before the limit; it is never polled once the scope is over.
-/
namespace Courier

namespace Moment

theorem tick_le_tick_of_le_tick {s t : Nat} (h : s ≤ tick t) : tick s ≤ tick t := by
  unfold tick at h
  change (s + 999999) / 1000000 * 1000000 ≤ (t + 999999) / 1000000 * 1000000
  omega

end Moment

namespace Scope

variable {scope : Scope} {t wake l : Nat} {reason : Interruption}

theorem reached_eq_false_iff {limit : Option Moment} :
    reached limit t = false ↔ ∀ l : Nat, limit = some l → t < l := by
  cases limit with
  | none => simp [reached]
  | some l => simp [reached]

/-- Of two limits one has come if the earlier one has. -/
theorem reached_earlier (limit limit' : Option Moment) (t : Nat) :
    reached (earlier limit limit') t = true ↔ reached limit t = true ∨ reached limit' t = true := by
  cases limit with
  | none => simp [reached, earlier]
  | some l =>
      cases limit' with
      | none => simp [reached, earlier]
      | some l' =>
          have hmin : ∀ m m' : Nat, min m m' ≤ t ↔ m ≤ t ∨ m' ≤ t := by omega
          simp only [reached, earlier, decide_eq_true_eq]
          exact hmin l l'

theorem ended?_ne_none_iff :
    scope.ended? t ≠ none ↔ reached scope.cancelledAt t = true ∨ reached scope.deadline t = true := by
  unfold ended?
  cases reached scope.cancelledAt t <;> cases reached scope.deadline t <;> simp

/-- A scope lasts until its limit has come. -/
theorem ended?_eq_none_iff :
    scope.ended? t = none ↔ ∀ l : Nat, scope.limit = some l → t < l := by
  have hended : scope.ended? t = none ↔
      reached scope.cancelledAt t = false ∧ reached scope.deadline t = false := by
    unfold ended?
    cases reached scope.cancelledAt t <;> cases reached scope.deadline t <;> simp
  rw [hended, reached_eq_false_iff, reached_eq_false_iff]
  obtain ⟨c, d⟩ := scope
  cases c with
  | none => simp [limit, earlier]
  | some c =>
      cases d with
      | none => simp [limit, earlier]
      | some d => simp only [limit, earlier, Option.some.injEq, forall_eq', Nat.lt_min]

theorem lt_of_ended?_eq_none (hlimit : scope.limit = some l) (hopen : scope.ended? t = none) :
    t < l :=
  ended?_eq_none_iff.mp hopen l hlimit

/-- What is not over yet was not over before. -/
theorem ended?_eq_none_of_le {t' : Nat} (hle : t ≤ t') (hopen : scope.ended? t' = none) :
    scope.ended? t = none := by
  rw [ended?_eq_none_iff] at hopen ⊢
  intro l hlimit
  exact Nat.lt_of_le_of_lt hle (hopen l hlimit)

/-- What is over has a limit that has come. -/
theorem exists_limit_of_ended? (hended : scope.ended? t = some reason) :
    ∃ l : Nat, scope.limit = some l ∧ l ≤ t := by
  by_contra hnone
  have hopen : scope.ended? t = none := by
    rw [ended?_eq_none_iff]
    intro l hlimit
    by_contra hlt
    exact hnone ⟨l, hlimit, Nat.le_of_not_lt hlt⟩
  simp [hopen] at hended

/-- A scope does not shorten a wait that it outlasts. -/
theorem tick_cap_eq_of_open (hopen : scope.ended? (Moment.tick (max t (scope.cap wake))) = none) :
    Moment.tick (max t (scope.cap wake)) = Moment.tick (max t wake) := by
  unfold cap at *
  cases hlimit : scope.limit with
  | none => rfl
  | some l =>
      simp only [hlimit] at hopen ⊢
      have hlt := lt_of_ended?_eq_none hlimit hopen
      have hle := Moment.le_tick (max t (min wake l))
      have hwake : min wake l = wake := by omega
      rw [hwake]

/-- A wait that a scope does not outlast ends with the scope. -/
theorem tick_cap_eq_of_ended (hopen : scope.ended? t = none)
    (hended : scope.ended? (Moment.tick (max t (scope.cap wake))) = some reason) :
    ∃ l, scope.limit = some l ∧ Moment.tick (max t (scope.cap wake)) = Moment.tick l := by
  obtain ⟨l, hlimit, hle⟩ := exists_limit_of_ended? hended
  refine ⟨l, hlimit, Nat.le_antisymm ?_ (Moment.tick_le_tick_of_le_tick hle)⟩
  have hlt := lt_of_ended?_eq_none hlimit hopen
  apply Moment.tick_mono
  simp only [cap, hlimit]
  change max t (min wake l) ≤ l
  omega

/-- Each wait of a flow that goes forward in time uses up some of what is left of the scope. -/
theorem left_lt_of_wait (hlimit : scope.limit = some l) (hopen : scope.ended? t = none)
    (hwake : t < wake) :
    Moment.tick l - Moment.tick (max t (scope.cap wake)) < Moment.tick l - t := by
  have hlt := lt_of_ended?_eq_none hlimit hopen
  have htick : l ≤ Moment.tick l := Moment.le_tick l
  simp only [cap, hlimit]
  have hnext : max t (min wake l) ≤ Moment.tick (max t (min wake l)) := Moment.le_tick _
  have ht : t < max t (min wake l) := by omega
  exact Nat.sub_lt_sub_left (Nat.lt_of_lt_of_le hlt htick) (Nat.lt_of_lt_of_le ht hnext)

end Scope

namespace Flow

variable {σ α β : Type} {others : σ → σ → Prop} {scope : Scope}

theorem guardPoll_of_ready {poll : Moment → σ → Poll β × σ} {t : Moment} {s s₁ : σ} {b : β}
    (hopen : scope.ended? t = none) (hpoll : poll t s = (.ready b, s₁)) :
    guardPoll scope poll t s = (.ready (.ok b), s₁) := by
  simp only [guardPoll, hopen, hpoll]

theorem guardPoll_of_later {poll : Moment → σ → Poll β × σ} {t wake : Moment} {s s₁ : σ}
    (hopen : scope.ended? t = none) (hpoll : poll t s = (.later wake, s₁)) :
    guardPoll scope poll t s = (.later (scope.cap wake), s₁) := by
  simp only [guardPoll, hopen, hpoll]

theorem guardPoll_of_ended (poll : Moment → σ → Poll β × σ) {t : Moment} (s : σ)
    {reason : Interruption} (hended : scope.ended? t = some reason) :
    guardPoll scope poll t s = (.ready (.error reason), s) := by
  simp only [guardPoll, hended]

/-- How a flow that is begun while its scope lasts fares in it. -/
inductive Guarded (others : σ → σ → Prop) (scope : Scope) (flow : Flow σ α) (t : Moment) (s : σ) :
    List (Step σ) → Except Interruption α → Moment → σ → Prop
  /-- it comes to its own end while the scope lasts -/
  | whole {steps : List (Step σ)} {a : α} {t' : Moment} {s' : σ}
      (hrun : Run others flow t s steps a t' s')
      (hlive : ∀ step ∈ steps, scope.ended? step.moment = none)
      (hopen : scope.ended? t' = none) :
      Guarded others scope flow t s steps (.ok a) t' s'
  /-- it is given up when the limit of the scope has come -/
  | cut {polls : List (Step σ)} {reason : Interruption} {l : Moment} {s₁ s' : σ}
      (hpolls : Suspended others flow t s polls)
      (hlive : ∀ step ∈ polls, scope.ended? step.moment = none)
      (hlimit : scope.limit = some l) (hended : scope.ended? (Moment.tick l) = some reason)
      (hothers : others s₁ s') :
      Guarded others scope flow t s (polls ++ [⟨Moment.tick l, s₁, s₁⟩]) (.error reason)
        (Moment.tick l) s'

theorem Guarded.ready {poll : Moment → σ → Poll β × σ} {next : β → Flow σ α} {t t' : Moment}
    {s s₁ s₂ s' : σ} {b : β} {steps : List (Step σ)} {r : Except Interruption α}
    (hopen : scope.ended? t = none) (hpoll : poll t s = (.ready b, s₁)) (hothers : others s₁ s₂)
    (hrest : Guarded others scope (next b) t s₂ steps r t' s') :
    Guarded others scope (.await poll next) t s (⟨t, s, s₁⟩ :: steps) r t' s' := by
  cases hrest with
  | whole hrun hlive hopen' =>
      exact .whole (.ready hpoll hothers hrun) (List.forall_mem_cons.mpr ⟨hopen, hlive⟩) hopen'
  | cut hpolls hlive hlimit hended hothers' =>
      exact .cut (.ready hpoll hothers hpolls) (List.forall_mem_cons.mpr ⟨hopen, hlive⟩) hlimit
        hended hothers'

theorem Guarded.later {poll : Moment → σ → Poll β × σ} {next : β → Flow σ α}
    {t wake t' : Moment} {s s₁ s₂ s' : σ} {steps : List (Step σ)} {r : Except Interruption α}
    (hopen : scope.ended? t = none) (hpoll : poll t s = (.later wake, s₁))
    (hothers : others s₁ s₂)
    (hrest : Guarded others scope (.await poll next) (Moment.tick (max t wake)) s₂ steps r t' s') :
    Guarded others scope (.await poll next) t s (⟨t, s, s₁⟩ :: steps) r t' s' := by
  cases hrest with
  | whole hrun hlive hopen' =>
      exact .whole (.later hpoll hothers hrun) (List.forall_mem_cons.mpr ⟨hopen, hlive⟩) hopen'
  | cut hpolls hlive hlimit hended hothers' =>
      exact .cut (.later hpoll hothers hpolls) (List.forall_mem_cons.mpr ⟨hopen, hlive⟩) hlimit
        hended hothers'

/-- A guarded flow that is begun when the scope is over is not polled. -/
theorem Run.guarded_of_ended {poll : Moment → σ → Poll β × σ} {next : β → Flow σ α}
    {t t' : Moment} {s s' : σ} {steps : List (Step σ)} {r : Except Interruption α}
    {reason : Interruption} (h : Run others (guarded scope (.await poll next)) t s steps r t' s')
    (hended : scope.ended? t = some reason) :
    steps = [⟨t, s, s⟩] ∧ r = .error reason ∧ t' = t ∧ others s s' := by
  rw [Flow.guarded] at h
  obtain ⟨s₂, rest, hothers, hrest, rfl⟩ := h.of_ready (guardPoll_of_ended poll s hended)
  simp only [run_done_iff] at hrest
  obtain ⟨rfl, rfl, rfl, rfl⟩ := hrest
  exact ⟨rfl, rfl, rfl, hothers⟩

/-- The runs of a guarded flow that is begun while the scope lasts. -/
theorem Run.guarded {flow : Flow σ α} {t t' : Moment} {s s' : σ} {steps : List (Step σ)}
    {r : Except Interruption α} (h : Run others (guarded scope flow) t s steps r t' s')
    (hopen : scope.ended? t = none) : Guarded others scope flow t s steps r t' s' := by
  induction flow generalizing t s steps with
  | done a =>
      simp only [Flow.guarded, run_done_iff] at h
      obtain ⟨rfl, rfl, rfl, rfl⟩ := h
      exact .whole .done (by simp) hopen
  | await poll next ihNext =>
      rw [Flow.guarded] at h
      generalize hflow : Flow.await (guardPoll scope poll) _ = flow at h
      induction h with
      | done => cases hflow
      | @ready _ _ _ t _ s _ _ _ _ _ _ hpoll hothers hrest _ =>
          cases hflow
          rcases hown : poll t s with ⟨b | wake, s₁⟩
          · rw [guardPoll_of_ready hopen hown] at hpoll
            simp only [Prod.mk.injEq, Poll.ready.injEq] at hpoll
            obtain ⟨rfl, rfl⟩ := hpoll
            exact .ready hopen hown hothers (ihNext b hrest hopen)
          · simp [guardPoll_of_later hopen hown] at hpoll
      | @later _ _ _ t _ _ s _ _ _ _ _ hpoll hothers hrest ih =>
          cases hflow
          rcases hown : poll t s with ⟨b | wake, s₁⟩
          · simp [guardPoll_of_ready hopen hown] at hpoll
          · rw [guardPoll_of_later hopen hown] at hpoll
            simp only [Prod.mk.injEq, Poll.later.injEq] at hpoll
            obtain ⟨rfl, rfl⟩ := hpoll
            -- the next poll finds the scope open, or it falls on the tick of the limit
            rcases hnext : scope.ended? (Moment.tick (max t (scope.cap wake))) with _ | reason
            · have hwhole := ih ihNext hnext rfl
              rw [Scope.tick_cap_eq_of_open hnext] at hwhole
              exact .later hopen hown hothers hwhole
            · obtain ⟨l, hlimit, hl⟩ := Scope.tick_cap_eq_of_ended hopen hnext
              rw [hl] at hnext hrest
              rw [← Flow.guarded] at hrest
              obtain ⟨rfl, rfl, rfl, hothers'⟩ := hrest.guarded_of_ended hnext
              have hlive : ∀ step ∈ [(⟨t, s, s₁⟩ : Step σ)],
                  scope.ended? step.moment = none := by simpa using hopen
              exact .cut (.wait hown) hlive hlimit hnext hothers'

/-- A flow within a scope is not begun when the scope is over; else it is guarded by it. -/
theorem run_within {flow : Flow σ α} {t t' : Moment} {s s' : σ} {steps : List (Step σ)}
    {r : Except Interruption α} (h : Run others (within scope flow) t s steps r t' s') :
    (∃ reason, scope.ended? t = some reason ∧ steps = [⟨t, s, s⟩] ∧ r = .error reason ∧ t' = t) ∨
      (scope.ended? t = none ∧ ∃ s₁ rest, others s s₁ ∧ steps = ⟨t, s, s⟩ :: rest ∧
        Guarded others scope flow t s₁ rest r t' s') := by
  obtain ⟨s₁, rest, hothers, hrest, rfl⟩ := h.of_ready rfl
  cases hended : scope.ended? t with
  | none =>
      simp only [hended] at hrest
      exact .inr ⟨rfl, s₁, rest, hothers, rfl, hrest.guarded hended⟩
  | some reason =>
      simp only [hended, run_done_iff] at hrest
      obtain ⟨rfl, rfl, rfl, rfl⟩ := hrest
      exact .inl ⟨reason, rfl, rfl, rfl, rfl⟩

/-- A flow within a scope is given up if and only if the scope is over when it returns. -/
theorem run_within_result {flow : Flow σ α} {t t' : Moment} {s s' : σ} {steps : List (Step σ)}
    {r : Except Interruption α} (h : Run others (within scope flow) t s steps r t' s') :
    (∃ a, r = .ok a ∧ scope.ended? t' = none) ∨
      ∃ reason, r = .error reason ∧ scope.ended? t' = some reason := by
  rcases run_within h with ⟨reason, hended, _, hr, rfl⟩ | ⟨_, _, _, _, _, hguarded⟩
  · exact .inr ⟨reason, hr, hended⟩
  · cases hguarded with
    | whole _ _ hopen => exact .inl ⟨_, rfl, hopen⟩
    | cut _ _ _ hended _ => exact .inr ⟨_, rfl, hended⟩

/-- A scope that lasts until a flow returns lets it come to its own end. -/
theorem run_within_of_open {flow : Flow σ α} {t t' : Moment} {s s' : σ} {steps : List (Step σ)}
    {r : Except Interruption α} (h : Run others (within scope flow) t s steps r t' s')
    (hopen : scope.ended? t' = none) :
    ∃ a s₁ rest, r = .ok a ∧ steps = ⟨t, s, s⟩ :: rest ∧ Run others flow t s₁ rest a t' s' := by
  rcases run_within h with ⟨_, hended, _, _, rfl⟩ | ⟨_, s₁, rest, _, hsteps, hguarded⟩
  · simp [hopen] at hended
  · cases hguarded with
    | whole hrun _ _ => exact ⟨_, s₁, rest, rfl, hsteps, hrun⟩
    | cut _ _ _ hended _ => simp [hopen] at hended

variable {γ : Type} {cell : Cell σ γ}

theorem Leaves.guarded {flow : Flow σ α} (h : flow.Leaves cell) :
    (guarded scope flow).Leaves cell := by
  induction flow with
  | done a => trivial
  | await poll next ih =>
      rw [Flow.guarded]
      constructor
      · intro t s
        rcases hended : scope.ended? t with _ | reason
        · rw [← h.1 t s]
          rcases hpoll : poll t s with ⟨b | wake, s₁⟩
          · rw [guardPoll_of_ready hended hpoll]
          · rw [guardPoll_of_later hended hpoll]
        · rw [guardPoll_of_ended poll s hended]
      · rintro (reason | b)
        · trivial
        · exact ih b (h.2 b)

theorem Leaves.within {flow : Flow σ α} (h : flow.Leaves cell) :
    (within scope flow).Leaves cell := by
  refine ⟨fun _ _ => rfl, ?_⟩
  rintro (_ | reason)
  · exact h.guarded
  · trivial

/-- A flow that returns at once when the scope is over, and with the scope when the scope ends in
between. -/
def Prompt (others : σ → σ → Prop) (scope : Scope) (flow : Flow σ α) : Prop :=
  ∀ t s steps a t' s', Run others flow t s steps a t' s' →
    (∀ reason, scope.ended? t = some reason → t' = t) ∧
      (scope.ended? t = none → ∀ reason, scope.ended? t' = some reason →
        ∃ l, scope.limit = some l ∧ t' = Moment.tick l)

theorem prompt_done (a : α) : Prompt others scope (.done a) := by
  intro t s steps a' t' s' h
  simp only [run_done_iff] at h
  obtain ⟨_, _, rfl, _⟩ := h
  refine ⟨fun _ _ => rfl, ?_⟩
  intro hopen reason hended
  simp [hopen] at hended

theorem prompt_act (f : Moment → σ → α × σ) : Prompt others scope (act f) := by
  intro t s steps a' t' s' h
  simp only [run_act_iff] at h
  obtain ⟨_, _, rfl, _⟩ := h
  refine ⟨fun _ _ => rfl, ?_⟩
  intro hopen reason hended
  simp [hopen] at hended

theorem prompt_within (flow : Flow σ α) : Prompt others scope (within scope flow) := by
  intro t s steps r t' s' h
  rcases run_within h with ⟨reason, hended, _, _, rfl⟩ | ⟨hopen, _, _, _, _, hguarded⟩
  · refine ⟨fun _ _ => rfl, ?_⟩
    intro hopen
    simp [hopen] at hended
  · constructor
    · intro reason hended
      simp [hopen] at hended
    · intro _ reason hended
      cases hguarded with
      | whole _ _ hopen' => simp [hopen'] at hended
      | cut _ _ hlimit _ _ => exact ⟨_, hlimit, rfl⟩

theorem Prompt.bind {m : Flow σ β} {k : β → Flow σ α} (hm : Prompt others scope m)
    (hk : ∀ b, Prompt others scope (k b)) : Prompt others scope (m.bind k) := by
  intro t s steps a t' s' h
  obtain ⟨head, b, t₁, s₁, tail, hhead, htail, _⟩ := run_bind_iff.mp h
  obtain ⟨hat, hin⟩ := hm _ _ _ _ _ _ hhead
  obtain ⟨hat', hin'⟩ := hk b _ _ _ _ _ _ htail
  constructor
  · intro reason hended
    have ht := hat reason hended
    subst ht
    exact hat' reason hended
  · intro hopen reason hended
    rcases hmiddle : scope.ended? t₁ with _ | reason₁
    · exact hin' hmiddle reason hended
    · rw [hat' reason₁ hmiddle]
      exact hin hopen reason₁ hmiddle

/-- A flow whose waits go forward in time. -/
def Patient : Flow σ α → Prop
  | .done _ => True
  | .await poll next =>
      (∀ (t wake : Nat) s s', poll t s = (.later wake, s') → t < wake) ∧ ∀ b, Patient (next b)

theorem Patient.bind {m : Flow σ β} {k : β → Flow σ α} (hm : m.Patient)
    (hk : ∀ b, (k b).Patient) : (m.bind k).Patient := by
  induction m with
  | done b => exact hk b
  | await poll next ih => exact ⟨hm.1, fun b => ih b (hm.2 b)⟩

theorem patient_sleep (d : Span) : (sleep d : Flow σ Unit).Patient := by
  refine ⟨fun _ _ _ _ h => by simp at h, fun t => ⟨?_, fun _ => trivial⟩⟩
  intro now wake s s' h
  by_cases hwake : t.wakeAfter d ≤ now
  · simp [hwake] at h
  · simp only [hwake, ↓reduceIte, Prod.mk.injEq, Poll.later.injEq] at h
    obtain ⟨rfl, _⟩ := h
    exact Nat.lt_of_not_le hwake

/-- A flow that ends by itself also ends within a scope. -/
theorem Ends.guarded {flow : Flow σ α} {t : Moment} {s : σ} (h : Ends others flow t s) :
    Ends others (guarded scope flow) t s := by
  induction h with
  | done => exact .done
  | @ready _ poll _ t s _ _ hpoll _ ih =>
      rw [Flow.guarded]
      rcases hended : scope.ended? t with _ | reason
      · exact .ready (guardPoll_of_ready hended hpoll) ih
      · exact .ready (guardPoll_of_ended poll s hended) fun _ _ => .done
  | @later _ poll _ t wake s _ hpoll _ ih =>
      rw [Flow.guarded] at ih ⊢
      rcases hended : scope.ended? t with _ | reason
      · refine .later (guardPoll_of_later hended hpoll) fun s₂ hothers => ?_
        -- a wait that the scope cuts short is the last one, and any other is as long as it was
        rcases hended' : scope.ended? (Moment.tick (max t (scope.cap wake))) with _ | reason
        · rw [Scope.tick_cap_eq_of_open hended']
          exact ih s₂ hothers
        · exact .ready (guardPoll_of_ended poll s₂ hended') fun _ _ => .done
      · exact .ready (guardPoll_of_ended poll s hended) fun _ _ => .done

theorem Ends.within {flow : Flow σ α} {t : Moment} {s : σ} (h : ∀ s₁, Ends others flow t s₁) :
    Ends others (within scope flow) t s := by
  refine .ready rfl fun s₁ _ => ?_
  rcases scope.ended? t with _ | reason
  · exact (h s₁).guarded
  · exact .done

/-- A scope that has a limit lets no patient flow go on for ever. -/
theorem ends_guarded {l : Moment} (hlimit : scope.limit = some l) {flow : Flow σ α}
    (hpatient : flow.Patient) (t : Moment) (s : σ) : Ends others (guarded scope flow) t s := by
  induction flow generalizing t s with
  | done a => exact .done
  | await poll next ih =>
      obtain ⟨hforward, hnext⟩ := hpatient
      -- the flow gets shorter with each answer; with each wait there is less left of the scope
      induction hleft : Moment.tick l - t using Nat.strongRecOn generalizing t s with
      | ind left ihLeft =>
          rw [guarded]
          rcases hended : scope.ended? t with _ | reason
          · rcases hown : poll t s with ⟨b | wake, s₁⟩
            · exact .ready (guardPoll_of_ready hended hown) fun s₂ _ => ih b (hnext b) t s₂
            · have hless := Scope.left_lt_of_wait hlimit hended (hforward t wake s s₁ hown)
              rw [hleft] at hless
              refine .later (guardPoll_of_later hended hown) fun s₂ _ => ?_
              have hrest := ihLeft _ hless _ s₂ rfl
              rw [guarded] at hrest
              exact hrest
          · exact .ready (guardPoll_of_ended _ _ hended) fun _ _ => .done

theorem ends_within {l : Moment} (hlimit : scope.limit = some l) {flow : Flow σ α}
    (hpatient : flow.Patient) (t : Moment) (s : σ) : Ends others (within scope flow) t s := by
  refine .ready rfl fun s₁ _ => ?_
  rcases hended : scope.ended? t with _ | reason
  · exact ends_guarded hlimit hpatient t s₁
  · exact .done

end Flow
end Courier
