import Courier.Middleware
import Courier.Proofs.Recording
/-!
Layers of middleware.  A layer leaves a mark, looks at the request, and either answers by itself or
hands a request on once and then looks at the answer; at the end it leaves another mark.  Around a
transport that leaves a mark for every request that it is sent, the marks of a request are nested:
those of the layers in order, what was sent if it came to that, and those of the layers in the
opposite order.  A request that is still on its way has left the beginning of such marks.
-/
namespace Courier

abbrev Answer := Except TransportFailure WireResponse

/-- What is written down of an attempt on its way through the layers. -/
inductive Mark
  | before (place : Nat)
  | sent (request : WireRequest)
  | after (place : Nat)
deriving Repr, DecidableEq

/-- A middleware that hands on one request or none, and may remember something until the answer is
there. -/
structure Layer (σ : Type) where
  Memory : Type
  enter : WireRequest → Flow σ (Except Answer (WireRequest × Memory))
  leave : Memory → Answer → Flow σ Answer

namespace Layer

variable {σ : Type}

def handle (layer : Layer σ) (inner : Handler σ) : Handler σ := fun request => do
  match ← layer.enter request with
  | .error answer => return answer
  | .ok (request, memory) => layer.leave memory (← inner request)

/-- The layer at a place, with its marks. -/
def middleware (trace : Cell σ (List Mark)) (place : Nat) (layer : Layer σ) : Middleware σ :=
  fun inner request => do
    Flow.write trace (.before place)
    let answer ← layer.handle inner request
    Flow.write trace (.after place)
    return answer

/-- Layers in order, the first of them at a place. -/
def stack (trace : Cell σ (List Mark)) : Nat → List (Layer σ) → List (Middleware σ)
  | _, [] => []
  | place, layer :: layers => layer.middleware trace place :: stack trace (place + 1) layers

/-- A transport that leaves a mark for every request. -/
def marked (trace : Cell σ (List Mark)) (transport : Handler σ) : Handler σ := fun request => do
  Flow.write trace (.sent request)
  transport request

end Layer

/-- The marks of layers in order, then what was sent, if anything, then the marks of the layers in the
opposite order. -/
def onion (place : Nat) : (depth : Nat) → Option WireRequest → List Mark
  | 0, sent => (sent.map .sent).toList
  | depth + 1, sent => .before place :: onion (place + 1) depth sent ++ [.after place]

/-- So deep goes a request through some layers: to the transport, or to the layer that answers it. -/
def Fits (layers depth : Nat) (sent : Option WireRequest) : Prop :=
  (sent.isSome ∧ depth = layers) ∨ (sent = none ∧ 1 ≤ depth ∧ depth ≤ layers)

/-- What goes through one more layer comes one deeper. -/
theorem Fits.succ {layers depth : Nat} {sent : Option WireRequest} (h : Fits layers depth sent) :
    Fits (layers + 1) (depth + 1) sent := by
  rcases h with ⟨hsent, hdepth⟩ | ⟨hsent, _, hdepth⟩
  · exact .inl ⟨hsent, congrArg (· + 1) hdepth⟩
  · exact .inr ⟨hsent, Nat.le_add_left 1 _, Nat.succ_le_succ hdepth⟩

/-- Nested marks end with the last mark of the outermost layer. -/
theorem getLast?_onion (place depth : Nat) (sent : Option WireRequest) :
    (onion place (depth + 1) sent).getLast? = some (.after place) := by
  rw [onion, List.getLast?_concat]

theorem prefix_onion {place depth : Nat} {sent : Option WireRequest} {marks : List Mark}
    (h : marks <+: onion (place + 1) depth sent) :
    [.before place] ++ marks <+: onion place (depth + 1) sent := by
  have hcons : .before place :: marks <+: .before place :: onion (place + 1) depth sent :=
    List.cons_prefix_cons.mpr ⟨rfl, h⟩
  exact hcons.trans (List.prefix_append _ _)

namespace Layer

variable {σ : Type} {trace : Cell σ (List Mark)} {transport : Handler σ} {others : σ → σ → Prop}
  {layers : List (Layer σ)}

open Courier.Flow (put Run Step Writes)

/-- The way of a request through the layers from a place on, with its polls: how deep it comes, what is
sent, and the answer that comes back. -/
inductive Passage (trace : Cell σ (List Mark)) (transport : Handler σ) (others : σ → σ → Prop) :
    List (Layer σ) → Nat → WireRequest → Moment → σ → List (Step σ) → Nat → Option WireRequest →
      Answer → Moment → σ → Prop
  /-- behind the last layer it is sent -/
  | sent {place : Nat} {request : WireRequest} {t t' : Moment} {s s₁ s' : σ} {steps : List (Step σ)}
      {answer : Answer} (hothers : others (put trace (.sent request) s) s₁)
      (hrun : Run others (transport request) t s₁ steps answer t' s') :
      Passage trace transport others [] place request t s
        (⟨t, s, put trace (.sent request) s⟩ :: steps) 0 (some request) answer t' s'
  /-- the layer answers by itself -/
  | short {layer : Layer σ} {layers : List (Layer σ)} {place : Nat} {request : WireRequest}
      {t t' : Moment} {s s₁ s₂ s' : σ} {entering : List (Step σ)} {answer : Answer}
      (hothers : others (put trace (.before place) s) s₁)
      (henter : Run others (layer.enter request) t s₁ entering (.error answer) t' s₂)
      (hothers' : others (put trace (.after place) s₂) s') :
      Passage trace transport others (layer :: layers) place request t s
        (⟨t, s, put trace (.before place) s⟩ ::
          (entering ++ [⟨t', s₂, put trace (.after place) s₂⟩]))
        1 none answer t' s'
  /-- the layer hands a request on and turns the answer to it into its own -/
  | through {layer : Layer σ} {layers : List (Layer σ)} {place depth : Nat}
      {request handed : WireRequest} {received : Option WireRequest} {memory : layer.Memory}
      {t t₁ t₂ t' : Moment} {s s₁ s₂ s₃ s₄ s' : σ} {entering inside leaving : List (Step σ)}
      {answer changed : Answer} (hothers : others (put trace (.before place) s) s₁)
      (henter : Run others (layer.enter request) t s₁ entering (.ok (handed, memory)) t₁ s₂)
      (hinside : Passage trace transport others layers (place + 1) handed t₁ s₂ inside depth received
        answer t₂ s₃)
      (hleave : Run others (layer.leave memory answer) t₂ s₃ leaving changed t' s₄)
      (hothers' : others (put trace (.after place) s₄) s') :
      Passage trace transport others (layer :: layers) place request t s
        (⟨t, s, put trace (.before place) s⟩ ::
          (entering ++ (inside ++ (leaving ++ [⟨t', s₄, put trace (.after place) s₄⟩]))))
        (depth + 1) received changed t' s'

variable {layer : Layer σ} {inner : Handler σ} {place : Nat} {request : WireRequest}

/-- An answered request has passed the two marks of the layer. -/
theorem run_middleware {t t' : Moment} {s s' : σ} {steps : List (Step σ)} {answer : Answer}
    (h : Run others (layer.middleware trace place inner request) t s steps answer t' s') :
    ∃ s₁ handling s₂, others (put trace (.before place) s) s₁ ∧
      Run others (layer.handle inner request) t s₁ handling answer t' s₂ ∧
      others (put trace (.after place) s₂) s' ∧
      steps = ⟨t, s, put trace (.before place) s⟩ ::
        (handling ++ [⟨t', s₂, put trace (.after place) s₂⟩]) := by
  obtain ⟨_, _, t₁, s₁, _, hmark, hrest, rfl⟩ := Flow.run_bind_iff.mp h
  obtain ⟨rfl, rfl, hothers⟩ := Flow.run_write_iff.mp hmark
  obtain ⟨handling, answer', t₂, s₂, _, hhandle, hlast, rfl⟩ := Flow.run_bind_iff.mp hrest
  obtain ⟨_, _, t₃, s₃, _, hmark', hdone, rfl⟩ := Flow.run_bind_iff.mp hlast
  obtain ⟨rfl, rfl, hothers'⟩ := Flow.run_write_iff.mp hmark'
  simp only [Flow.pure_eq, Flow.run_done_iff] at hdone
  obtain ⟨rfl, rfl, rfl, rfl⟩ := hdone
  exact ⟨s₁, handling, s₂, hothers, hhandle, hothers', rfl⟩

/-- A layer answers by itself, or it changes the answer to a request that it hands on. -/
theorem run_handle {t t' : Moment} {s s' : σ} {steps : List (Step σ)} {answer : Answer}
    (h : Run others (layer.handle inner request) t s steps answer t' s') :
    Run others (layer.enter request) t s steps (.error answer) t' s' ∨
      ∃ entering handed memory t₁ s₁ inside answer' t₂ s₂ leaving,
        Run others (layer.enter request) t s entering (.ok (handed, memory)) t₁ s₁ ∧
        Run others (inner handed) t₁ s₁ inside answer' t₂ s₂ ∧
        Run others (layer.leave memory answer') t₂ s₂ leaving answer t' s' ∧
        steps = entering ++ (inside ++ leaving) := by
  obtain ⟨entering, entered, t₁, s₁, rest, henter, hrest, rfl⟩ := Flow.run_bind_iff.mp h
  rcases entered with own | ⟨handed, memory⟩
  · simp only [Flow.pure_eq, Flow.run_done_iff] at hrest
    obtain ⟨rfl, rfl, rfl, rfl⟩ := hrest
    rw [List.append_nil]
    exact .inl henter
  · obtain ⟨inside, answer', t₂, s₂, leaving, hinside, hleave, rfl⟩ := Flow.run_bind_iff.mp hrest
    exact .inr ⟨entering, handed, memory, t₁, s₁, inside, answer', t₂, s₂, leaving, henter, hinside,
      hleave, rfl⟩

/-- A request that waits in a layer has passed its first mark only. -/
theorem suspended_middleware {t : Moment} {s : σ} {steps : List (Step σ)}
    (h : Flow.Suspended others (layer.middleware trace place inner request) t s steps) :
    ∃ s₁ rest, steps = ⟨t, s, put trace (.before place) s⟩ :: rest ∧
      Flow.Suspended others (layer.handle inner request) t s₁ rest := by
  rcases Flow.suspended_bind h with hmark | ⟨_, _, t₁, s₁, rest, hmark, hrest, rfl⟩
  · exact absurd hmark Flow.not_suspended_act
  · obtain ⟨rfl, rfl, _⟩ := Flow.run_write_iff.mp hmark
    rcases Flow.suspended_bind hrest with hhandle | ⟨_, _, _, _, _, _, hlast, _⟩
    · exact ⟨s₁, rest, rfl, hhandle⟩
    · rcases Flow.suspended_bind hlast with hmark' | ⟨_, _, _, _, _, _, hdone, _⟩
      · exact absurd hmark' Flow.not_suspended_act
      · cases hdone

/-- It waits before the layer has handed it on, or inside, or before the layer has changed the
answer. -/
theorem suspended_handle {t : Moment} {s : σ} {steps : List (Step σ)}
    (h : Flow.Suspended others (layer.handle inner request) t s steps) :
    Flow.Suspended others (layer.enter request) t s steps ∨
      ∃ entering handed memory t₁ s₁ rest,
        Run others (layer.enter request) t s entering (.ok (handed, memory)) t₁ s₁ ∧
        steps = entering ++ rest ∧
        (Flow.Suspended others (inner handed) t₁ s₁ rest ∨
          ∃ inside answer t₂ s₂ leaving, Run others (inner handed) t₁ s₁ inside answer t₂ s₂ ∧
            Flow.Suspended others (layer.leave memory answer) t₂ s₂ leaving ∧
            rest = inside ++ leaving) := by
  rcases Flow.suspended_bind h with henter | ⟨entering, entered, t₁, s₁, rest, henter, hrest, rfl⟩
  · exact .inl henter
  · rcases entered with own | ⟨handed, memory⟩
    · cases hrest
    · rcases Flow.suspended_bind hrest with
        hinside | ⟨inside, answer, t₂, s₂, leaving, hinside, hleave, rfl⟩
      · exact .inr ⟨entering, handed, memory, t₁, s₁, _, henter, rfl, .inl hinside⟩
      · exact .inr ⟨entering, handed, memory, t₁, s₁, _, henter, rfl,
          .inr ⟨inside, answer, t₂, s₂, leaving, hinside, hleave, rfl⟩⟩

/-- Every answered request has a way through the layers. -/
theorem exists_passage {t t' : Moment} {s s' : σ} {steps : List (Step σ)} {answer : Answer}
    (h : Run others (Middleware.around (stack trace place layers) (marked trace transport) request)
      t s steps answer t' s') :
    ∃ depth received,
      Passage trace transport others layers place request t s steps depth received answer t' s' := by
  induction layers generalizing place request t s steps answer t' s' with
  | nil =>
      obtain ⟨_, _, t₁, s₁, rest, hmark, hrest, rfl⟩ := Flow.run_bind_iff.mp h
      obtain ⟨rfl, rfl, hothers⟩ := Flow.run_write_iff.mp hmark
      exact ⟨0, some request, .sent hothers hrest⟩
  | cons layer layers ih =>
      obtain ⟨s₁, handling, s₂, hothers, hhandle, hothers', rfl⟩ := run_middleware h
      rcases run_handle hhandle with
        henter | ⟨entering, _, _, _, _, inside, _, _, _, leaving, henter, hinside, hleave, rfl⟩
      · exact ⟨1, none, .short hothers henter hothers'⟩
      · obtain ⟨depth, received, hpassage⟩ := ih hinside
        rw [List.append_assoc, List.append_assoc]
        exact ⟨depth + 1, received, .through hothers henter hpassage hleave hothers'⟩

/-- Neither the layers nor the transport leave marks of their own. -/
structure Quiet (trace : Cell σ (List Mark)) (layers : List (Layer σ)) (transport : Handler σ) :
    Prop where
  enter : ∀ layer ∈ layers, ∀ request, (layer.enter request).Leaves trace
  leave : ∀ layer ∈ layers, ∀ memory answer, (layer.leave memory answer).Leaves trace
  carry : ∀ request, (transport request).Leaves trace

theorem Quiet.tail {layer : Layer σ} (h : Quiet trace (layer :: layers) transport) :
    Quiet trace layers transport where
  enter inner hinner := h.enter inner (List.mem_cons_of_mem layer hinner)
  leave inner hinner := h.leave inner (List.mem_cons_of_mem layer hinner)
  carry := h.carry

theorem Passage.fits {place : Nat} {request : WireRequest} {t t' : Moment} {s s' : σ}
    {steps : List (Step σ)} {depth : Nat} {received : Option WireRequest} {answer : Answer}
    (h : Passage trace transport others layers place request t s steps depth received answer t' s') :
    Fits layers.length depth received := by
  induction h with
  | sent => exact .inl ⟨rfl, rfl⟩
  | short => exact .inr ⟨rfl, Nat.le_refl 1, Nat.le_add_left 1 _⟩
  | through _ _ _ _ _ ih =>
      exact ih.succ

/-- A request that comes through leaves nested marks. -/
theorem Passage.writes {place : Nat} {request : WireRequest} {t t' : Moment} {s s' : σ}
    {steps : List (Step σ)} {depth : Nat} {received : Option WireRequest} {answer : Answer}
    (h : Passage trace transport others layers place request t s steps depth received answer t' s')
    (hquiet : Quiet trace layers transport) : Writes trace steps (onion place depth received) := by
  induction h with
  | sent _ hrun =>
      exact (Flow.writes_put _ _ _).append (Flow.writes_of_leaves hrun (hquiet.carry _))
  | short _ henter _ =>
      have hentering := Flow.writes_of_leaves henter (hquiet.enter _ List.mem_cons_self _)
      exact (Flow.writes_put _ _ _).append (hentering.append (Flow.writes_put _ _ _))
  | through _ henter _ hleave _ ih =>
      have hentering := Flow.writes_of_leaves henter (hquiet.enter _ List.mem_cons_self _)
      have hleaving := Flow.writes_of_leaves hleave (hquiet.leave _ List.mem_cons_self _ _)
      exact (Flow.writes_put _ _ _).append
        (hentering.append ((ih hquiet.tail).append (hleaving.append (Flow.writes_put _ _ _))))

/-- A request that is still on its way has left the beginning of nested marks. -/
theorem exists_marks_of_suspended {place : Nat} {request : WireRequest} {t : Moment} {s : σ}
    {steps : List (Step σ)} (hquiet : Quiet trace layers transport)
    (h : Flow.Suspended others
      (Middleware.around (stack trace place layers) (marked trace transport) request) t s steps) :
    ∃ marks depth received, Writes trace steps marks ∧ marks <+: onion place depth received ∧
      Fits layers.length depth received := by
  induction layers generalizing place request t s steps with
  | nil =>
      rcases Flow.suspended_bind h with hmark | ⟨_, _, _, _, _, hmark, hrest, rfl⟩
      · exact absurd hmark Flow.not_suspended_act
      · obtain ⟨rfl, rfl, _⟩ := Flow.run_write_iff.mp hmark
        have hcarried := Flow.writes_of_suspended hrest (hquiet.carry request)
        refine ⟨_, 0, some request, (Flow.writes_put _ _ _).append hcarried, ?_, .inl ⟨rfl, rfl⟩⟩
        exact List.prefix_rfl
  | cons layer layers ih =>
      have hone : Fits (layer :: layers).length 1 none :=
        .inr ⟨rfl, Nat.le_refl 1, Nat.le_add_left 1 _⟩
      obtain ⟨s₁, rest, rfl, hhandle⟩ := suspended_middleware h
      rcases suspended_handle hhandle with
        henter | ⟨entering, handed, memory, t₁, s₂, _, henter, rfl, hinside⟩
      · have hentering := Flow.writes_of_suspended henter (hquiet.enter layer List.mem_cons_self _)
        refine ⟨_, 1, none, (Flow.writes_put _ _ _).append hentering, ?_, hone⟩
        exact List.prefix_append _ _
      · have hentering := Flow.writes_of_leaves henter (hquiet.enter layer List.mem_cons_self _)
        rcases hinside with hinside | ⟨inside, answer, t₂, s₃, leaving, hinside, hleave, rfl⟩
        · obtain ⟨marks, depth, received, hmarks, hstart, hfits⟩ := ih hquiet.tail hinside
          refine ⟨_, depth + 1, received,
            (Flow.writes_put _ _ _).append (hentering.append hmarks), ?_, hfits.succ⟩
          exact prefix_onion hstart
        · obtain ⟨depth, received, hpassage⟩ := exists_passage hinside
          have hmarks := hpassage.writes hquiet.tail
          have hleaving := Flow.writes_of_suspended hleave
            (hquiet.leave layer List.mem_cons_self memory answer)
          refine ⟨_, depth + 1, received, (Flow.writes_put _ _ _).append
            (hentering.append (hmarks.append hleaving)), ?_, hpassage.fits.succ⟩
          rw [List.nil_append, List.append_nil]
          exact prefix_onion List.prefix_rfl

end Layer
end Courier
