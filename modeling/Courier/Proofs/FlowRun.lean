import Courier.World
import Mathlib.Data.List.Basic
/-!
Runs of flows.  A run lists every poll of a flow with its moment and with the world before and after
it.  Between two polls others may act on the world as far as a relation lets them, so a fact about
the runs under every relation holds in every interleaving; the runs in which nobody acts are those
that `Flow.run` computes.
-/
namespace Courier

namespace Flow

/-- One poll of a run. -/
structure Step (σ : Type) where
  moment : Moment
  before : σ
  after : σ

variable {σ α β : Type}

/-- A run of a flow from a moment and a world to its answer.  A flow that has to wait is polled again
at the first whole millisecond at which its wait is over; after each poll `others` may act. -/
inductive Run (others : σ → σ → Prop) :
    Flow σ α → Moment → σ → List (Step σ) → α → Moment → σ → Prop
  | done {a : α} {t : Moment} {s : σ} : Run others (.done a) t s [] a t s
  | ready {β : Type} {poll : Moment → σ → Poll β × σ} {next : β → Flow σ α} {t t' : Moment}
      {s s₁ s₂ s' : σ} {b : β} {steps : List (Step σ)} {a : α}
      (hpoll : poll t s = (.ready b, s₁)) (hothers : others s₁ s₂)
      (hrest : Run others (next b) t s₂ steps a t' s') :
      Run others (.await poll next) t s (⟨t, s, s₁⟩ :: steps) a t' s'
  | later {β : Type} {poll : Moment → σ → Poll β × σ} {next : β → Flow σ α}
      {t wake t' : Moment} {s s₁ s₂ s' : σ} {steps : List (Step σ)} {a : α}
      (hpoll : poll t s = (.later wake, s₁)) (hothers : others s₁ s₂)
      (hrest : Run others (.await poll next) (Moment.tick (max t wake)) s₂ steps a t' s') :
      Run others (.await poll next) t s (⟨t, s, s₁⟩ :: steps) a t' s'

/-- The polls of a flow that waits after the last of them. -/
inductive Suspended (others : σ → σ → Prop) : Flow σ α → Moment → σ → List (Step σ) → Prop
  | wait {β : Type} {poll : Moment → σ → Poll β × σ} {next : β → Flow σ α} {t wake : Moment}
      {s s₁ : σ} (hpoll : poll t s = (.later wake, s₁)) :
      Suspended others (.await poll next) t s [⟨t, s, s₁⟩]
  | ready {β : Type} {poll : Moment → σ → Poll β × σ} {next : β → Flow σ α} {t : Moment}
      {s s₁ s₂ : σ} {b : β} {steps : List (Step σ)}
      (hpoll : poll t s = (.ready b, s₁)) (hothers : others s₁ s₂)
      (hrest : Suspended others (next b) t s₂ steps) :
      Suspended others (.await poll next) t s (⟨t, s, s₁⟩ :: steps)
  | later {β : Type} {poll : Moment → σ → Poll β × σ} {next : β → Flow σ α}
      {t wake : Moment} {s s₁ s₂ : σ} {steps : List (Step σ)}
      (hpoll : poll t s = (.later wake, s₁)) (hothers : others s₁ s₂)
      (hrest : Suspended others (.await poll next) (Moment.tick (max t wake)) s₂ steps) :
      Suspended others (.await poll next) t s (⟨t, s, s₁⟩ :: steps)

/-- Every run from here comes to an end, whatever others do in between. -/
inductive Ends (others : σ → σ → Prop) : Flow σ α → Moment → σ → Prop
  | done {a : α} {t : Moment} {s : σ} : Ends others (.done a) t s
  | ready {β : Type} {poll : Moment → σ → Poll β × σ} {next : β → Flow σ α} {t : Moment}
      {s s₁ : σ} {b : β} (hpoll : poll t s = (.ready b, s₁))
      (hrest : ∀ s₂, others s₁ s₂ → Ends others (next b) t s₂) :
      Ends others (.await poll next) t s
  | later {β : Type} {poll : Moment → σ → Poll β × σ} {next : β → Flow σ α}
      {t wake : Moment} {s s₁ : σ} (hpoll : poll t s = (.later wake, s₁))
      (hrest : ∀ s₂, others s₁ s₂ → Ends others (.await poll next) (Moment.tick (max t wake)) s₂) :
      Ends others (.await poll next) t s

variable {others : σ → σ → Prop}

/-- A run keeps its polls in the order of time. -/
theorem Run.le {flow : Flow σ α} {t t' : Moment} {s s' : σ} {steps : List (Step σ)} {a : α}
    (h : Run others flow t s steps a t' s') : t ≤ t' := by
  induction h with
  | done => exact Nat.le_refl _
  | ready _ _ _ ih => exact ih
  | later _ _ _ ih =>
      exact Nat.le_trans (Nat.le_trans (Nat.le_max_left _ _) (Moment.le_tick _)) ih

@[simp] theorem run_done_iff {a a' : α} {t t' : Moment} {s s' : σ} {steps : List (Step σ)} :
    Run others (.done a) t s steps a' t' s' ↔ steps = [] ∧ a' = a ∧ t' = t ∧ s' = s := by
  constructor
  · intro h
    cases h
    exact ⟨rfl, rfl, rfl, rfl⟩
  · rintro ⟨rfl, rfl, rfl, rfl⟩
    exact .done

theorem Run.of_ready {poll : Moment → σ → Poll β × σ} {next : β → Flow σ α} {t t' : Moment}
    {s s₁ s' : σ} {b : β} {steps : List (Step σ)} {a : α}
    (h : Run others (.await poll next) t s steps a t' s') (hpoll : poll t s = (.ready b, s₁)) :
    ∃ s₂ rest, others s₁ s₂ ∧ Run others (next b) t s₂ rest a t' s' ∧
      steps = ⟨t, s, s₁⟩ :: rest := by
  cases h with
  | ready hpoll' hothers hrest =>
      rw [hpoll] at hpoll'
      simp only [Prod.mk.injEq, Poll.ready.injEq] at hpoll'
      obtain ⟨rfl, rfl⟩ := hpoll'
      exact ⟨_, _, hothers, hrest, rfl⟩
  | later hpoll' _ _ => simp [hpoll] at hpoll'

theorem Run.of_later {poll : Moment → σ → Poll β × σ} {next : β → Flow σ α}
    {t wake t' : Moment} {s s₁ s' : σ} {steps : List (Step σ)} {a : α}
    (h : Run others (.await poll next) t s steps a t' s') (hpoll : poll t s = (.later wake, s₁)) :
    ∃ s₂ rest, others s₁ s₂ ∧
      Run others (.await poll next) (Moment.tick (max t wake)) s₂ rest a t' s' ∧
      steps = ⟨t, s, s₁⟩ :: rest := by
  cases h with
  | ready hpoll' _ _ => simp [hpoll] at hpoll'
  | later hpoll' hothers hrest =>
      rw [hpoll] at hpoll'
      simp only [Prod.mk.injEq, Poll.later.injEq] at hpoll'
      obtain ⟨rfl, rfl⟩ := hpoll'
      exact ⟨_, _, hothers, hrest, rfl⟩

/-- An action takes one poll and no time. -/
@[simp] theorem run_act_iff {f : Moment → σ → α × σ} {a : α} {t t' : Moment} {s s' : σ}
    {steps : List (Step σ)} :
    Run others (act f) t s steps a t' s' ↔
      steps = [⟨t, s, (f t s).2⟩] ∧ a = (f t s).1 ∧ t' = t ∧ others (f t s).2 s' := by
  constructor
  · intro h
    obtain ⟨s₂, rest, hothers, hrest, rfl⟩ := h.of_ready rfl
    simp only [run_done_iff] at hrest
    obtain ⟨rfl, rfl, rfl, rfl⟩ := hrest
    exact ⟨rfl, rfl, rfl, hothers⟩
  · rintro ⟨rfl, rfl, rfl, hothers⟩
    exact .ready rfl hothers .done

theorem Run.bind {m : Flow σ β} {k : β → Flow σ α} {t t₁ t' : Moment} {s s₁ s' : σ}
    {head tail : List (Step σ)} {b : β} {a : α} (hm : Run others m t s head b t₁ s₁)
    (hk : Run others (k b) t₁ s₁ tail a t' s') :
    Run others (m.bind k) t s (head ++ tail) a t' s' := by
  induction hm with
  | done => exact hk
  | ready hpoll hothers _ ih => exact .ready hpoll hothers (ih hk)
  | later hpoll hothers _ ih => exact .later hpoll hothers (ih hk)

/-- A run of one flow after another is a run of the one and then a run of the other. -/
theorem run_bind_iff {m : Flow σ β} {k : β → Flow σ α} {t t' : Moment} {s s' : σ}
    {steps : List (Step σ)} {a : α} :
    Run others (m.bind k) t s steps a t' s' ↔
      ∃ head b t₁ s₁ tail, Run others m t s head b t₁ s₁ ∧
        Run others (k b) t₁ s₁ tail a t' s' ∧ steps = head ++ tail := by
  constructor
  · intro h
    induction m generalizing t s steps with
    | done b => exact ⟨[], b, t, s, steps, .done, h, rfl⟩
    | await poll next ihNext =>
        generalize hflow : (Flow.await poll next).bind k = flow at h
        induction h with
        | done => cases hflow
        | ready hpoll hothers hrest _ =>
            cases hflow
            obtain ⟨head, b, t₁, s₁, tail, hhead, htail, rfl⟩ := ihNext _ hrest
            exact ⟨_ :: head, b, t₁, s₁, tail, .ready hpoll hothers hhead, htail, rfl⟩
        | later hpoll hothers _ ih =>
            cases hflow
            obtain ⟨head, b, t₁, s₁, tail, hhead, htail, rfl⟩ := ih ihNext rfl
            exact ⟨_ :: head, b, t₁, s₁, tail, .later hpoll hothers hhead, htail, rfl⟩
  · rintro ⟨head, b, t₁, s₁, tail, hhead, htail, rfl⟩
    exact hhead.bind htail

@[simp] theorem pure_eq (a : α) : (pure a : Flow σ α) = .done a := rfl

/-- If one flow ends, and another ends from wherever the first one can end, then so do both in a
row. -/
theorem Ends.bind {m : Flow σ β} {k : β → Flow σ α} {t : Moment} {s : σ}
    (hm : Ends others m t s)
    (hk : ∀ steps b t₁ s₁, Run others m t s steps b t₁ s₁ → Ends others (k b) t₁ s₁) :
    Ends others (m.bind k) t s := by
  induction hm with
  | done => exact hk _ _ _ _ .done
  | ready hpoll _ ih =>
      refine .ready hpoll fun s₂ hothers => ih s₂ hothers ?_
      intro steps b t₁ s₁ hrun
      exact hk _ _ _ _ (.ready hpoll hothers hrun)
  | later hpoll _ ih =>
      refine .later hpoll fun s₂ hothers => ih s₂ hothers ?_
      intro steps b t₁ s₁ hrun
      exact hk _ _ _ _ (.later hpoll hothers hrun)

theorem ends_act {f : Moment → σ → α × σ} {t : Moment} {s : σ} : Ends others (act f) t s :=
  .ready rfl fun _ _ => .done

/-- A flow that ends has a run, if others may leave the world alone. -/
theorem Ends.exists_run {flow : Flow σ α} {t : Moment} {s : σ} (h : Ends others flow t s)
    (hidle : ∀ s, others s s) : ∃ steps a t' s', Run others flow t s steps a t' s' := by
  induction h with
  | done => exact ⟨[], _, _, _, .done⟩
  | ready hpoll _ ih =>
      obtain ⟨steps, a, t', s', hrun⟩ := ih _ (hidle _)
      exact ⟨_, a, t', s', .ready hpoll (hidle _) hrun⟩
  | later hpoll _ ih =>
      obtain ⟨steps, a, t', s', hrun⟩ := ih _ (hidle _)
      exact ⟨_, a, t', s', .later hpoll (hidle _) hrun⟩

/-- No poll of the flow changes this part of the world. -/
def Leaves {γ : Type} (cell : Cell σ γ) : Flow σ α → Prop
  | .done _ => True
  | .await poll next =>
      (∀ t s, cell.get (poll t s).2 = cell.get s) ∧ ∀ b, (next b).Leaves cell

variable {γ : Type} {cell : Cell σ γ}

theorem leaves_act {f : Moment → σ → α × σ} (h : ∀ t s, cell.get (f t s).2 = cell.get s) :
    (act f).Leaves cell :=
  ⟨h, fun _ => trivial⟩

theorem Leaves.bind {m : Flow σ β} {k : β → Flow σ α} (hm : m.Leaves cell)
    (hk : ∀ b, (k b).Leaves cell) : (m.bind k).Leaves cell := by
  induction m with
  | done b => exact hk b
  | await poll next ih => exact ⟨hm.1, fun b => ih b (hm.2 b)⟩

/-- Who sleeps changes nothing. -/
theorem leaves_sleep (d : Span) : (sleep d).Leaves cell :=
  (leaves_act fun _ _ => rfl).bind fun _ => ⟨fun _ _ => rfl, fun _ => trivial⟩

theorem Run.leaves {flow : Flow σ α} {t t' : Moment} {s s' : σ} {steps : List (Step σ)} {a : α}
    (h : Run others flow t s steps a t' s') (hleaves : flow.Leaves cell) :
    ∀ step ∈ steps, cell.get step.after = cell.get step.before := by
  induction h with
  | done => simp
  | @ready _ poll next t _ s _ _ _ b _ _ hpoll _ _ ih =>
      have hstep := hleaves.1 t s
      rw [hpoll] at hstep
      exact List.forall_mem_cons.mpr ⟨hstep, ih (hleaves.2 b)⟩
  | @later _ poll next t _ _ s _ _ _ _ _ hpoll _ _ ih =>
      have hstep := hleaves.1 t s
      rw [hpoll] at hstep
      exact List.forall_mem_cons.mpr ⟨hstep, ih hleaves⟩

/-- The polls that a flow makes at one moment, up to its end or to its next wait. -/
def polls (now : Moment) : Flow σ α → σ → List (Step σ)
  | .done _, _ => []
  | .await poll next, s =>
      match poll now s with
      | (.ready b, s₁) => ⟨now, s, s₁⟩ :: polls now (next b) s₁
      | (.later _, s₁) => [⟨now, s, s₁⟩]

/-- What a flow does at one moment is the beginning of a run. -/
theorem run_of_advance (hidle : ∀ s, others s s) {now : Moment} {flow : Flow σ α} {s : σ} :
    (∀ a s', advance now flow s = (.finished a, s') →
      Run others flow now s (polls now flow s) a now s') ∧
    (∀ wake rest s', advance now flow s = (.waiting wake rest, s') →
      ∀ s₁ tail a t' s'', others s' s₁ →
        Run others rest (Moment.tick (max now wake)) s₁ tail a t' s'' →
          Run others flow now s (polls now flow s ++ tail) a t' s'') := by
  induction flow generalizing s with
  | done b =>
      constructor
      · intro a s' h
        simp only [advance, Prod.mk.injEq, Progress.finished.injEq] at h
        obtain ⟨rfl, rfl⟩ := h
        exact .done
      · intro wake rest s' h
        simp [advance] at h
  | await poll next ih =>
      rcases hpoll : poll now s with ⟨_ | wake, s₁⟩
      · rename_i b
        constructor
        · intro a s' h
          simp only [advance, hpoll] at h
          simp only [polls, hpoll]
          exact .ready hpoll (hidle _) ((ih b).1 a s' h)
        · intro wake rest s' h s₁ tail a t' s'' hothers htail
          simp only [advance, hpoll] at h
          simp only [polls, hpoll]
          exact .ready hpoll (hidle _) ((ih b).2 wake rest s' h s₁ tail a t' s'' hothers htail)
      · constructor
        · intro a s' h
          simp [advance, hpoll] at h
        · intro wake' rest s' h s₁ tail a t' s'' hothers htail
          simp only [advance, hpoll, Prod.mk.injEq, Progress.waiting.injEq] at h
          obtain ⟨⟨rfl, rfl⟩, rfl⟩ := h
          simp only [polls, hpoll]
          exact .later hpoll hothers htail

/-- What is computed for a flow that is alone in its world is a run of it. -/
theorem exists_run_of_run {fuel : Nat} {flow : Flow σ α} {t : Moment} {s : σ}
    {outcome : Outcome σ α} (h : flow.run t s fuel = some outcome) :
    ∃ steps, Run Eq flow t s steps outcome.value outcome.moment outcome.world := by
  induction fuel generalizing flow t s with
  | zero => simp [Flow.run] at h
  | succ fuel ih =>
      rcases hadvance : advance t flow s with ⟨a | ⟨wake, rest⟩, s₁⟩
      · simp only [Flow.run, hadvance, Option.some.injEq] at h
        subst h
        exact ⟨_, (run_of_advance fun _ => rfl).1 a s₁ hadvance⟩
      · simp only [Flow.run, hadvance] at h
        obtain ⟨tail, htail⟩ := ih h
        exact ⟨_, (run_of_advance fun _ => rfl).2 wake rest s₁ hadvance s₁ tail _ _ _ rfl htail⟩

/-- What is known of the outcome that is computed is known of a run. -/
theorem exists_run_of_map {fuel : Nat} {flow : Flow σ α} {t : Moment} {s : σ}
    {f : Outcome σ α → β} {b : β} (h : (flow.run t s fuel).map f = some b) :
    ∃ outcome steps, flow.run t s fuel = some outcome ∧ f outcome = b ∧
      Run Eq flow t s steps outcome.value outcome.moment outcome.world := by
  obtain ⟨outcome, houtcome, hvalue⟩ := Option.map_eq_some_iff.mp h
  obtain ⟨steps, hsteps⟩ := exists_run_of_run houtcome
  exact ⟨outcome, steps, houtcome, hvalue, hsteps⟩

/-- A flow that is alone in its world has one run. -/
theorem Run.unique {flow : Flow σ α} {t t₁ t₂ : Moment} {s s₁ s₂ : σ} {steps₁ steps₂ : List (Step σ)}
    {a₁ a₂ : α} (h₁ : Run Eq flow t s steps₁ a₁ t₁ s₁) (h₂ : Run Eq flow t s steps₂ a₂ t₂ s₂) :
    steps₁ = steps₂ ∧ a₁ = a₂ ∧ t₁ = t₂ ∧ s₁ = s₂ := by
  induction h₁ generalizing steps₂ with
  | done =>
      simp only [run_done_iff] at h₂
      obtain ⟨rfl, rfl, rfl, rfl⟩ := h₂
      exact ⟨rfl, rfl, rfl, rfl⟩
  | ready hpoll hothers _ ih =>
      obtain ⟨_, rest, hothers', hrest, rfl⟩ := h₂.of_ready hpoll
      subst hothers hothers'
      obtain ⟨rfl, rfl, rfl, rfl⟩ := ih hrest
      exact ⟨rfl, rfl, rfl, rfl⟩
  | later hpoll hothers _ ih =>
      obtain ⟨_, rest, hothers', hrest, rfl⟩ := h₂.of_later hpoll
      subst hothers hothers'
      obtain ⟨rfl, rfl, rfl, rfl⟩ := ih hrest
      exact ⟨rfl, rfl, rfl, rfl⟩

theorem run_ready {poll : Moment → σ → Poll β × σ} {next : β → Flow σ α} {t : Moment}
    {s s₁ : σ} {b : β} (hpoll : poll t s = (.ready b, s₁)) (fuel : Nat) :
    (Flow.await poll next).run t s fuel = (next b).run t s₁ fuel := by
  cases fuel with
  | zero => rfl
  | succ fuel => simp only [Flow.run, advance, hpoll]

/-- The runs of a flow that is alone in its world are those that are computed. -/
theorem run_eq_some_iff {flow : Flow σ α} {t t' : Moment} {s s' : σ} {a : α} :
    (∃ fuel, flow.run t s fuel = some ⟨a, t', s'⟩) ↔
      ∃ steps, Run Eq flow t s steps a t' s' := by
  constructor
  · rintro ⟨fuel, h⟩
    exact exists_run_of_run h
  · rintro ⟨steps, h⟩
    induction h with
    | done => exact ⟨1, rfl⟩
    | ready hpoll hothers _ ih =>
        subst hothers
        obtain ⟨fuel, hfuel⟩ := ih
        exact ⟨fuel, (run_ready hpoll fuel).trans hfuel⟩
    | later hpoll hothers _ ih =>
        subst hothers
        obtain ⟨fuel, hfuel⟩ := ih
        refine ⟨fuel + 1, ?_⟩
        simp only [Flow.run, advance, hpoll]
        exact hfuel

end Flow
end Courier
