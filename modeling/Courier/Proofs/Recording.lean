import Courier.Proofs.FlowRun
/-!
Records.  A record is a part of the world to which flows add entries at its end.  What the polls of a
flow write is told apart from what others write between two of them; a flow that leaves the record
alone writes nothing, and one flow after another writes what the one and then what the other writes.
-/
namespace Courier

namespace Flow

variable {σ α β μ : Type} {record : Cell σ (List μ)} {others : σ → σ → Prop}

/-- The world with one more entry in the record. -/
def put (record : Cell σ (List μ)) (entry : μ) (s : σ) : σ :=
  record.set (record.get s ++ [entry]) s

/-- Add an entry to the record. -/
def write (record : Cell σ (List μ)) (entry : μ) : Flow σ Unit :=
  .update (put record entry)

/-- These are the entries that the polls write, in order. -/
inductive Writes (record : Cell σ (List μ)) : List (Step σ) → List μ → Prop
  | nil : Writes record [] []
  | cons {step : Step σ} {steps : List (Step σ)} {entries rest : List μ}
      (hstep : record.get step.after = record.get step.before ++ entries)
      (hrest : Writes record steps rest) : Writes record (step :: steps) (entries ++ rest)

theorem Writes.append {steps steps' : List (Step σ)} {entries entries' : List μ}
    (h : Writes record steps entries) (h' : Writes record steps' entries') :
    Writes record (steps ++ steps') (entries ++ entries') := by
  induction h with
  | nil => exact h'
  | cons hstep _ ih =>
      rw [List.cons_append, List.append_assoc]
      exact .cons hstep ih

theorem writes_put (t : Moment) (entry : μ) (s : σ) :
    Writes record [⟨t, s, put record entry s⟩] [entry] := by
  rw [← List.append_nil [entry]]
  exact .cons (record.get_set _ _) .nil

theorem run_write_iff {entry : μ} {t t' : Moment} {s s' : σ} {steps : List (Step σ)} {u : Unit} :
    Run others (write record entry) t s steps u t' s' ↔
      steps = [⟨t, s, put record entry s⟩] ∧ t' = t ∧ others (put record entry s) s' := by
  rw [write, update, run_act_iff]
  simp

theorem writes_nothing {steps : List (Step σ)}
    (h : ∀ step ∈ steps, record.get step.after = record.get step.before) :
    Writes record steps [] := by
  induction steps with
  | nil => exact .nil
  | cons step steps ih =>
      obtain ⟨hstep, hrest⟩ := List.forall_mem_cons.mp h
      have hnone : record.get step.after = record.get step.before ++ [] := by
        rw [List.append_nil, hstep]
      exact .cons hnone (ih hrest)

theorem writes_of_leaves {flow : Flow σ α} {t t' : Moment} {s s' : σ} {steps : List (Step σ)} {a : α}
    (h : Run others flow t s steps a t' s') (hleaves : flow.Leaves record) :
    Writes record steps [] :=
  writes_nothing (h.leaves hleaves)

/-- A flow that has to wait has written nothing either, if it leaves the record alone. -/
theorem writes_of_suspended {flow : Flow σ α} {t : Moment} {s : σ} {steps : List (Step σ)}
    (h : Suspended others flow t s steps) (hleaves : flow.Leaves record) :
    Writes record steps [] := by
  apply writes_nothing
  induction h with
  | @wait _ poll next t _ s _ hpoll =>
      have hstep := hleaves.1 t s
      rw [hpoll] at hstep
      simpa using hstep
  | @ready _ poll next t s _ _ b _ hpoll _ _ ih =>
      have hstep := hleaves.1 t s
      rw [hpoll] at hstep
      exact List.forall_mem_cons.mpr ⟨hstep, ih (hleaves.2 b)⟩
  | @later _ poll next t _ s _ _ _ hpoll _ _ ih =>
      have hstep := hleaves.1 t s
      rw [hpoll] at hstep
      exact List.forall_mem_cons.mpr ⟨hstep, ih hleaves⟩

/-- If others leave the record alone, a run adds to it what its polls write. -/
theorem Writes.get_of_run {flow : Flow σ α} {t t' : Moment} {s s' : σ} {steps : List (Step σ)}
    {a : α} {entries : List μ} (h : Writes record steps entries)
    (hrun : Run others flow t s steps a t' s')
    (hothers : ∀ s s', others s s' → record.get s' = record.get s) :
    record.get s' = record.get s ++ entries := by
  induction hrun generalizing entries with
  | done =>
      cases h
      rw [List.append_nil]
  | ready _ hacts _ ih =>
      cases h with
      | cons hstep hrest => rw [ih hrest, hothers _ _ hacts, hstep, List.append_assoc]
  | later _ hacts _ ih =>
      cases h with
      | cons hstep hrest => rw [ih hrest, hothers _ _ hacts, hstep, List.append_assoc]

/-- An action is never waited for. -/
theorem not_suspended_act {f : Moment → σ → α × σ} {t : Moment} {s : σ} {steps : List (Step σ)} :
    ¬ Suspended others (act f) t s steps := by
  intro h
  cases h with
  | wait hpoll => cases hpoll
  | ready _ _ hrest => cases hrest
  | later hpoll _ _ => cases hpoll

/-- Of one flow after another that has to wait either the first does, or it has ended and the other
does. -/
theorem suspended_bind {m : Flow σ β} {k : β → Flow σ α} {t : Moment} {s : σ}
    {steps : List (Step σ)} (h : Suspended others (m.bind k) t s steps) :
    Suspended others m t s steps ∨
      ∃ head b t₁ s₁ tail, Run others m t s head b t₁ s₁ ∧ Suspended others (k b) t₁ s₁ tail ∧
        steps = head ++ tail := by
  induction m generalizing t s steps with
  | done b => exact .inr ⟨[], b, t, s, steps, .done, h, rfl⟩
  | await poll next ihNext =>
      generalize hflow : (Flow.await poll next).bind k = flow at h
      induction h with
      | wait hpoll =>
          cases hflow
          exact .inl (.wait hpoll)
      | ready hpoll hothers hrest _ =>
          cases hflow
          rcases ihNext _ hrest with hfirst | ⟨head, b, t₁, s₁, tail, hhead, htail, rfl⟩
          · exact .inl (.ready hpoll hothers hfirst)
          · exact .inr ⟨_ :: head, b, t₁, s₁, tail, .ready hpoll hothers hhead, htail, rfl⟩
      | later hpoll hothers _ ih =>
          cases hflow
          rcases ih rfl with hfirst | ⟨head, b, t₁, s₁, tail, hhead, htail, rfl⟩
          · exact .inl (.later hpoll hothers hfirst)
          · exact .inr ⟨_ :: head, b, t₁, s₁, tail, .later hpoll hothers hhead, htail, rfl⟩

end Flow
end Courier
