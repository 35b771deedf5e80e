import Courier.Proofs.FlowRun
/-!
Flows side by side.  When several flows take turns in one world, their polls make one trace, in which
each poll begins in the world that the one before it left.  The polls of one of the flows make a run
of it: to it the others are somebody who acts on the world between its polls.  So whatever holds of
all runs of a flow, under every interference, holds of the flow among others.
-/
namespace Courier

namespace Moment

theorem tick_tick (t : Nat) : tick (tick t) = tick t := by
  change ((t + 999999) / 1000000 * 1000000 + 999999) / 1000000 * 1000000 =
    (t + 999999) / 1000000 * 1000000
  omega

/-- The moment at which a member that is due from `wake` on goes on, if the clock stands at `now`. -/
def due (now wake : Moment) : Moment :=
  if wake ≤ now then now else tick wake

/-- The clock does not pass over the moment at which a member wants to go on. -/
theorem due_tick_of_le {now first wake : Nat} (hle : first ≤ wake) :
    due (tick (max now first)) wake = tick (max now wake) := by
  have hmono : tick (max now first) ≤ tick (max now wake) :=
    tick_mono (Nat.max_le.mpr ⟨Nat.le_max_left _ _, Nat.le_trans hle (Nat.le_max_right _ _)⟩)
  have hnow : now ≤ tick (max now first) :=
    Nat.le_trans (Nat.le_max_left _ _) (le_tick (max now first))
  unfold due
  split
  · rename_i hwake
    have hmax : tick (max now wake) ≤ tick (tick (max now first)) :=
      tick_mono (Nat.max_le.mpr ⟨hnow, hwake⟩)
    rw [tick_tick] at hmax
    exact Nat.le_antisymm hmono hmax
  · rename_i hwake
    have hlt : now ≤ wake := Nat.le_trans hnow (Nat.le_of_not_le hwake)
    rw [show max now wake = wake from Nat.max_eq_right hlt]

end Moment

namespace Flow

variable {σ α : Type}

/-- Nothing is known about what others do. -/
abbrev Anyhow (σ : Type) : σ → σ → Prop := fun _ _ => True

/-- The polls of one turn, each with the place of its member. -/
def turnPolls (now : Moment) : (place : Nat) → List (Member σ α) → σ → List (Nat × Step σ)
  | _, [], _ => []
  | place, .ended _ _ :: rest, s => turnPolls now (place + 1) rest s
  | place, .pending wake flow :: rest, s =>
      if wake ≤ now then
        (polls now flow s).map (fun step => (place, step)) ++
          turnPolls now (place + 1) rest (advance now flow s).2
      else turnPolls now (place + 1) rest s

/-- The polls that several flows make when they are run in one world, each with the place of its
member. -/
def allPolls (now : Moment) (members : List (Member σ α)) (s : σ) : Nat → List (Nat × Step σ)
  | 0 => []
  | fuel + 1 =>
      turnPolls now 0 members s ++
        match nextWake (turn now members s).1 with
        | none => []
        | some wake =>
            allPolls (max now wake).tick (turn now members s).1 (turn now members s).2 fuel

def pollsOf (place : Nat) (trace : List (Nat × Step σ)) : List (Step σ) :=
  (trace.filter fun poll => poll.1 = place).map Prod.snd

@[simp] theorem pollsOf_append (place : Nat) (trace trace' : List (Nat × Step σ)) :
    pollsOf place (trace ++ trace') = pollsOf place trace ++ pollsOf place trace' := by
  simp [pollsOf]

theorem pollsOf_map_same (place : Nat) (steps : List (Step σ)) :
    pollsOf place (steps.map fun step => (place, step)) = steps := by
  simp [pollsOf, List.filter_map, Function.comp_def]

theorem pollsOf_map_other {place other : Nat} (hne : other ≠ place) (steps : List (Step σ)) :
    pollsOf place (steps.map fun step => (other, step)) = [] := by
  simp [pollsOf, hne]

theorem pollsOf_turnPolls_of_lt {now : Moment} {place first : Nat} (hlt : place < first)
    (members : List (Member σ α)) (s : σ) : pollsOf place (turnPolls now first members s) = [] := by
  induction members generalizing first s with
  | nil => rfl
  | cons member rest ih =>
      cases member with
      | ended t a => exact ih (by omega) s
      | pending wake flow =>
          unfold turnPolls
          split
          · rw [pollsOf_append, pollsOf_map_other (by omega), ih (by omega), List.append_nil]
          · exact ih (by omega) s

/-- Each poll begins in the world that the one before it left. -/
inductive Chained : σ → List (Step σ) → σ → Prop
  | nil {s : σ} : Chained s [] s
  | cons {t : Moment} {s s₁ s' : σ} {steps : List (Step σ)} (hrest : Chained s₁ steps s') :
      Chained s (⟨t, s, s₁⟩ :: steps) s'

theorem Chained.append {s s₁ s' : σ} {steps steps' : List (Step σ)} (h : Chained s steps s₁)
    (h' : Chained s₁ steps' s') : Chained s (steps ++ steps') s' := by
  induction h with
  | nil => exact h'
  | cons _ ih => exact .cons (ih h')

theorem chained_polls (now : Moment) (flow : Flow σ α) (s : σ) :
    Chained s (polls now flow s) (advance now flow s).2 := by
  induction flow generalizing s with
  | done a => exact .nil
  | await poll next ih =>
      simp only [polls, advance]
      rcases poll now s with ⟨b | wake, s₁⟩
      · exact Chained.cons (ih b s₁)
      · exact Chained.cons .nil

theorem chained_turnPolls (now : Moment) (place : Nat) (members : List (Member σ α)) (s : σ) :
    Chained s ((turnPolls now place members s).map Prod.snd) (turn now members s).2 := by
  induction members generalizing place s with
  | nil => exact .nil
  | cons member rest ih =>
      cases member with
      | ended t a => exact ih (place + 1) s
      | pending wake flow =>
          by_cases hwake : wake ≤ now
          · have hpolls := chained_polls now flow s
            have hrest := ih (place + 1) (advance now flow s).2
            simp only [turnPolls, turn, hwake, ↓reduceIte, List.map_append, List.map_map]
            rcases hadvance : advance now flow s with ⟨a | ⟨wake', flow'⟩, s'⟩
            all_goals
              rw [hadvance] at hpolls hrest
              simpa [Function.comp_def] using hpolls.append hrest
          · simp only [turnPolls, turn, hwake, ↓reduceIte]
            exact ih (place + 1) s

/-- The polls of all lead from the world at the beginning to the world at the end. -/
theorem chained_allPolls {fuel : Nat} {now : Moment} {members : List (Member σ α)} {s : σ}
    {outcome : Outcome σ (List (Moment × α))} (h : runAll now members s fuel = some outcome) :
    Chained s ((allPolls now members s fuel).map Prod.snd) outcome.world := by
  induction fuel generalizing now members s with
  | zero => simp [runAll] at h
  | succ fuel ih =>
      have hturn := chained_turnPolls now 0 members s
      rw [allPolls, List.map_append]
      refine hturn.append ?_
      cases hnext : nextWake (turn now members s).1 with
      | none =>
          simp only [runAll, hnext, Option.some.injEq] at h
          subst h
          exact .nil
      | some wake =>
          simp only [runAll, hnext] at h
          exact ih h

/-- What becomes of a member in one turn, and the polls that it makes. -/
inductive Turned (now : Moment) : Member σ α → Member σ α → List (Step σ) → Prop
  | ended {t : Moment} {a : α} : Turned now (.ended t a) (.ended t a) []
  | early {wake : Moment} {flow : Flow σ α} (hwake : ¬ wake ≤ now) :
      Turned now (.pending wake flow) (.pending wake flow) []
  | finished {wake : Moment} {flow : Flow σ α} {s s' : σ} {a : α} (hwake : wake ≤ now)
      (hadvance : advance now flow s = (.finished a, s')) :
      Turned now (.pending wake flow) (.ended now a) (polls now flow s)
  | waiting {wake wake' : Moment} {flow rest : Flow σ α} {s s' : σ} (hwake : wake ≤ now)
      (hadvance : advance now flow s = (.waiting wake' rest, s')) :
      Turned now (.pending wake flow) (.pending wake' rest) (polls now flow s)

theorem turned_turn (now : Moment) {members : List (Member σ α)} (s : σ) {i : Nat}
    {member : Member σ α} (hmember : members[i]? = some member) (place : Nat) :
    ∃ member', (turn now members s).1[i]? = some member' ∧
      Turned now member member' (pollsOf (place + i) (turnPolls now place members s)) := by
  induction members generalizing s i place with
  | nil => simp at hmember
  | cons head rest ih =>
      cases i with
      | zero =>
          simp only [List.getElem?_cons_zero, Option.some.injEq] at hmember
          subst hmember
          have hlater : ∀ s, pollsOf place (turnPolls now (place + 1) rest s) = [] :=
            pollsOf_turnPolls_of_lt (Nat.lt_succ_self place) rest
          cases head with
          | ended t a =>
              refine ⟨.ended t a, rfl, ?_⟩
              simp only [turnPolls, Nat.add_zero, hlater]
              exact .ended
          | pending wake flow =>
              by_cases hwake : wake ≤ now
              · simp only [turn, turnPolls, hwake, ↓reduceIte, Nat.add_zero, pollsOf_append,
                  pollsOf_map_same, hlater, List.append_nil]
                rcases hadvance : advance now flow s with ⟨a | ⟨wake', flow'⟩, s'⟩
                · exact ⟨_, rfl, .finished hwake hadvance⟩
                · exact ⟨_, rfl, .waiting hwake hadvance⟩
              · simp only [turn, turnPolls, hwake, ↓reduceIte, Nat.add_zero, hlater]
                exact ⟨_, rfl, .early hwake⟩
      | succ i =>
          simp only [List.getElem?_cons_succ] at hmember
          have hplace : place + (i + 1) = place + 1 + i := by omega
          rw [hplace]
          cases head with
          | ended t a => exact ih _ hmember (place + 1)
          | pending wake flow =>
              by_cases hwake : wake ≤ now
              · simp only [turn, turnPolls, hwake, ↓reduceIte, pollsOf_append,
                  pollsOf_map_other (show place ≠ place + 1 + i by omega), List.nil_append]
                rcases hadvance : advance now flow s with ⟨a | ⟨wake', flow'⟩, s'⟩
                all_goals
                  exact ih _ hmember (place + 1)
              · simp only [turn, turnPolls, hwake, ↓reduceIte]
                exact ih _ hmember (place + 1)

/-- How a member comes to its end, by which polls, from the moment on at which the clock stands. -/
def Leads (now : Moment) : Member σ α → List (Step σ) → Moment × α → Prop
  | .ended t a, steps, ending => steps = [] ∧ ending = (t, a)
  | .pending wake flow, steps, ending =>
      ∃ s s', Run (Anyhow σ) flow (Moment.due now wake) s steps ending.2 ending.1 s'

/-- A member that is led to an end after a turn was led to it before. -/
theorem leads_of_turned {now first : Moment} {member member' : Member σ α}
    {steps steps' : List (Step σ)} {ending : Moment × α}
    (hturned : Turned now member member' steps)
    (hfirst : ∀ wake flow, member' = .pending wake flow → first ≤ wake)
    (hleads : Leads (Moment.tick (max now first)) member' steps' ending) :
    Leads now member (steps ++ steps') ending := by
  have hanyhow : ∀ s, Anyhow σ s s := fun _ => trivial
  cases hturned with
  | ended =>
      obtain ⟨rfl, rfl⟩ := hleads
      exact ⟨rfl, rfl⟩
  | early hwake =>
      obtain ⟨s, s', hrun⟩ := hleads
      rw [Moment.due_tick_of_le (hfirst _ _ rfl)] at hrun
      refine ⟨s, s', ?_⟩
      rw [Moment.due, if_neg hwake]
      rwa [Nat.max_eq_right (Nat.le_of_not_le hwake)] at hrun
  | @finished _ _ s s' a hwake hadvance =>
      obtain ⟨rfl, rfl⟩ := hleads
      have hrun := (run_of_advance hanyhow).1 a s' hadvance
      refine ⟨s, s', ?_⟩
      rw [Moment.due, if_pos hwake, List.append_nil]
      exact hrun
  | @waiting _ _ _ _ s s' hwake hadvance =>
      obtain ⟨s₁, s'', hrun⟩ := hleads
      rw [Moment.due_tick_of_le (hfirst _ _ rfl)] at hrun
      have hwhole := (run_of_advance hanyhow).2 _ _ _ hadvance s₁ steps' _ _ _ trivial hrun
      refine ⟨s, s'', ?_⟩
      rw [Moment.due, if_pos hwake]
      exact hwhole

/-- Nobody is due before the first of them is. -/
theorem exists_nextWake_le {members : List (Member σ α)} {wake : Moment} {flow : Flow σ α}
    (hmem : .pending wake flow ∈ members) :
    ∃ first, nextWake members = some first ∧ first ≤ wake := by
  induction members with
  | nil => simp at hmem
  | cons member rest ih =>
      cases member with
      | ended t a =>
          simp only [List.mem_cons, reduceCtorEq, false_or] at hmem
          exact ih hmem
      | pending wake' flow' =>
          rcases List.mem_cons.mp hmem with heq | hrest
          · cases heq
            cases hnext : nextWake rest with
            | none => exact ⟨wake, by simp [nextWake, hnext, Scope.earlier], Nat.le_refl _⟩
            | some w =>
                exact ⟨min wake w, by simp [nextWake, hnext, Scope.earlier], Nat.min_le_left _ _⟩
          · obtain ⟨first, hfirst, hle⟩ := ih hrest
            exact ⟨min wake' first, by simp [nextWake, hfirst, Scope.earlier],
              Nat.le_trans (Nat.min_le_right _ _) hle⟩

theorem leads_results (now : Moment) {members : List (Member σ α)} {i : Nat}
    {member : Member σ α} (hnone : nextWake members = none) (hmember : members[i]? = some member) :
    ∃ ending, (results members)[i]? = some ending ∧ Leads now member [] ending := by
  induction members generalizing i with
  | nil => simp at hmember
  | cons head rest ih =>
      cases head with
      | ended t a =>
          cases i with
          | zero =>
              simp only [List.getElem?_cons_zero, Option.some.injEq] at hmember
              subst hmember
              exact ⟨(t, a), rfl, rfl, rfl⟩
          | succ i => exact ih hnone (by simpa using hmember)
      | pending wake flow =>
          obtain ⟨first, hfirst, _⟩ := exists_nextWake_le
            (List.mem_cons_self (a := Member.pending wake flow) (l := rest))
          simp [hfirst] at hnone

theorem leads_of_runAll {fuel : Nat} {now : Moment} {members : List (Member σ α)} {s : σ}
    {outcome : Outcome σ (List (Moment × α))} (h : runAll now members s fuel = some outcome)
    {i : Nat} {member : Member σ α} (hmember : members[i]? = some member) :
    ∃ ending, outcome.value[i]? = some ending ∧
      Leads now member (pollsOf i (allPolls now members s fuel)) ending := by
  induction fuel generalizing now members s member with
  | zero => simp [runAll] at h
  | succ fuel ih =>
      obtain ⟨member', hmember', hturned⟩ := turned_turn now s hmember 0
      rw [Nat.zero_add] at hturned
      rw [allPolls, pollsOf_append]
      cases hnext : nextWake (turn now members s).1 with
      | none =>
          simp only [runAll, hnext, Option.some.injEq] at h
          subst h
          obtain ⟨ending, hending, hleads⟩ := leads_results (Moment.tick (max now now)) hnext hmember'
          refine ⟨ending, hending, leads_of_turned hturned ?_ hleads⟩
          rintro wake flow rfl
          obtain ⟨first, hfirst, _⟩ := exists_nextWake_le (List.mem_of_getElem? hmember')
          simp [hfirst] at hnext
      | some first =>
          simp only [runAll, hnext] at h
          obtain ⟨ending, hending, hleads⟩ := ih h hmember'
          refine ⟨ending, hending, leads_of_turned hturned ?_ hleads⟩
          rintro wake flow rfl
          obtain ⟨first', hfirst, hle⟩ := exists_nextWake_le (List.mem_of_getElem? hmember')
          rw [hnext, Option.some.injEq] at hfirst
          rwa [hfirst]

/-- The polls of each of several flows that start together and take turns make a run of it. -/
theorem runs_of_runAll {fuel : Nat} {now : Moment} {flows : List (Flow σ α)} {s : σ}
    {outcome : Outcome σ (List (Moment × α))}
    (h : runAll now (startAll now flows) s fuel = some outcome) {i : Nat} {flow : Flow σ α}
    (hflow : flows[i]? = some flow) :
    ∃ t' a s₀ s', outcome.value[i]? = some (t', a) ∧
      Run (Anyhow σ) flow now s₀ (pollsOf i (allPolls now (startAll now flows) s fuel)) a t' s' := by
  have hmember : (startAll now flows)[i]? = some (.pending now flow) := by
    simp [startAll, hflow]
  obtain ⟨⟨t', a⟩, hending, s₀, s', hrun⟩ := leads_of_runAll h hmember
  rw [Moment.due, if_pos (Nat.le_refl now)] at hrun
  exact ⟨t', a, s₀, s', hending, hrun⟩

end Flow
end Courier
