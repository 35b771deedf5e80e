import Courier.Proofs.Layers
import Courier.Proofs.LimiterTurn
import Courier.Proofs.Preparation
import Courier.Proofs.RetrySchedule
import Mathlib.Data.List.Forall2
/-!
Layers around the attempts of a client.  Every attempt goes through all layers anew, so the marks of a
request are those of its attempts, one after the other.  An attempt that the end of its scope cuts off
leaves the beginning of nested marks.
-/
namespace Courier

namespace Client

open Courier.Flow (Writes)

variable {σ : Type} [World σ] {client : Client σ} {trace : Cell σ (List Mark)}
  {layers : List (Layer σ)} {transport : Handler σ} {others : σ → σ → Prop} {scope : Scope}
  {request : Request} {wire : WireRequest}

/-- A client whose layers and whose transport leave marks, and of which nothing else does. -/
structure Traced (client : Client σ) (trace : Cell σ (List Mark)) (layers : List (Layer σ))
    (transport : Handler σ) : Prop where
  stacked : client.middlewares = Layer.stack trace 1 layers
  sends : client.transport = Layer.marked trace transport
  quiet : Layer.Quiet trace layers transport
  record : ∀ event s, trace.get (World.record event s) = trace.get s
  random : ∀ s, trace.get (World.random s).2 = trace.get s
  tokens : ∀ limiter ∈ client.limiter, ∀ bucket s,
    trace.get (limiter.bucket.set bucket s) = trace.get s
  sign : ∀ sign ∈ client.authenticator, ∀ wire, (sign wire).Leaves trace

/-- This is what becomes of a request when it is signed. -/
def Signs (client : Client σ) (others : σ → σ → Prop) (scope : Scope) (wire signed : WireRequest) :
    Prop :=
  (client.authenticator = none ∧ signed = wire) ∨
    ∃ sign ∈ client.authenticator, ∃ t s steps t' s',
      Flow.Run others (Flow.within scope (sign wire)) t s steps (.ok (.ok signed)) t' s'

/-- The marks of an attempt, and what it comes to. -/
inductive Trial.Peeled (client : Client σ) (trace : Cell σ (List Mark)) (layers : List (Layer σ))
    (transport : Handler σ) (others : σ → σ → Prop) (scope : Scope) (wire : WireRequest)
    (trial : Trial σ) : List Mark → Prop
  /-- there are no credentials: no layer is asked -/
  | unsigned {cause : AuthError} (houtcome : trial.outcome = .unsigned cause) :
      Peeled client trace layers transport others scope wire trial []
  /-- the scope is over before a layer is asked -/
  | unbegun {reason : Interruption} (houtcome : trial.outcome = .failed (.interrupted reason))
      (hended : scope.ended? trial.ended = some reason) :
      Peeled client trace layers transport others scope wire trial []
  /-- the answer that comes back through the layers is what the attempt comes to, whoever gave it -/
  | whole {signed : WireRequest} {t : Moment} {s s' : σ} {steps : List (Flow.Step σ)} {depth : Nat}
      {received : Option WireRequest} {answer : Answer}
      (hsigned : client.Signs others scope wire signed)
      (hpassage : Layer.Passage trace transport others layers 1 signed t s steps depth received answer
        trial.ended s')
      (hpolls : steps <:+ trial.polls) (hfits : Fits layers.length depth received)
      (houtcome : trial.outcome = .ofAnswer (.ok answer)) :
      Peeled client trace layers transport others scope wire trial (onion 1 depth received)
  /-- the end of the scope cuts the attempt off -/
  | cut {marks : List Mark} {depth : Nat} {received : Option WireRequest} {reason : Interruption}
      (hstart : marks <+: onion 1 depth received) (hfits : Fits layers.length depth received)
      (houtcome : trial.outcome = .failed (.interrupted reason))
      (hended : scope.ended? trial.ended = some reason) :
      Peeled client trace layers transport others scope wire trial marks

theorem Traced.handler_eq (h : client.Traced trace layers transport) :
    client.handler =
      Middleware.around (Layer.stack trace 1 layers) (Layer.marked trace transport) := by
  rw [handler, h.stacked, h.sends]

/-- To hand a signed request on leaves the marks of its way through the layers, or the beginning of
such marks. -/
theorem exists_peeled_of_send (htraced : client.Traced trace layers transport) {trial : Trial σ}
    {signed : WireRequest} {t t' : Moment} {s s' : σ} {steps : List (Flow.Step σ)}
    {outcome : Outcome} (hsigned : client.Signs others scope wire signed)
    (h : Flow.Run others (client.send scope signed) t s steps outcome t' s')
    (houtcome : trial.outcome = outcome) (hmoment : trial.ended = t')
    (hpolls : steps <:+ trial.polls) :
    ∃ marks, Writes trace steps marks ∧
      trial.Peeled client trace layers transport others scope wire marks := by
  rw [send_eq] at h
  obtain ⟨sending, answer, t₁, s₁, _, hanswer, hdone, rfl⟩ := Flow.run_bind_iff.mp h
  simp only [Flow.run_done_iff] at hdone
  obtain ⟨rfl, rfl, rfl, rfl⟩ := hdone
  rw [List.append_nil] at hpolls ⊢
  rw [htraced.handler_eq] at hanswer
  rcases Flow.run_within hanswer with
    ⟨reason, hended, rfl, rfl, rfl⟩ | ⟨_, s₂, rest, _, rfl, hguarded⟩
  · rw [← hmoment] at hended
    exact ⟨[], Flow.writes_nothing (by simp), .unbegun houtcome hended⟩
  · have hlook : Writes trace [(⟨t, s, s⟩ : Flow.Step σ)] [] := Flow.writes_nothing (by simp)
    cases hguarded with
    | whole hrun _ _ =>
        obtain ⟨depth, received, hpassage⟩ := Layer.exists_passage hrun
        have hmarks := hlook.append (hpassage.writes htraced.quiet)
        have hsuffix := (List.suffix_cons _ rest).trans hpolls
        rw [← hmoment] at hpassage
        exact ⟨_, hmarks, .whole hsigned hpassage hsuffix hpassage.fits houtcome⟩
    | @cut polls reason l s₃ _ hsuspended _ _ hended _ =>
        obtain ⟨marks, depth, received, hmarks, hstart, hfits⟩ :=
          Layer.exists_marks_of_suspended htraced.quiet hsuspended
        have hlast : Writes trace [(⟨Moment.tick l, s₃, s₃⟩ : Flow.Step σ)] [] :=
          Flow.writes_nothing (by simp)
        have hwhole := hlook.append (hmarks.append hlast)
        rw [List.nil_append, List.append_nil] at hwhole
        rw [← hmoment] at hended
        exact ⟨marks, hwhole, .cut hstart hfits houtcome hended⟩

/-- Every attempt leaves such marks. -/
theorem Trial.Genuine.exists_peeled {trial : Trial σ}
    (hgenuine : trial.Genuine client others scope wire)
    (htraced : client.Traced trace layers transport) :
    ∃ marks, Writes trace trial.polls marks ∧
      trial.Peeled client trace layers transport others scope wire marks := by
  obtain ⟨s, _, hattempt⟩ := hgenuine.attempted
  have hattempted := attempted_of_run hattempt
  generalize hpolls : trial.polls = polls at hattempted ⊢
  generalize houtcome : trial.outcome = outcome at hattempted
  cases hattempted with
  | plain hnone hsend =>
      exact exists_peeled_of_send htraced (.inl ⟨hnone, rfl⟩) hsend houtcome rfl
        (hpolls ▸ List.suffix_rfl)
  | interrupted hmem hsign =>
      have hsilent := Flow.writes_of_leaves hsign (htraced.sign _ hmem wire).within
      rcases Flow.run_within_result hsign with ⟨_, hr, _⟩ | ⟨_, hr, hended⟩
      · cases hr
      · cases hr
        exact ⟨[], hsilent, .unbegun houtcome hended⟩
  | unsigned hmem hsign =>
      have hsilent := Flow.writes_of_leaves hsign (htraced.sign _ hmem wire).within
      exact ⟨[], hsilent, .unsigned houtcome⟩
  | signed hmem hsign hsend =>
      have hsilent := Flow.writes_of_leaves hsign (htraced.sign _ hmem wire).within
      obtain ⟨marks, hmarks, hpeeled⟩ := exists_peeled_of_send htraced
        (.inr ⟨_, hmem, _, _, _, _, _, hsign⟩) hsend houtcome rfl
        (hpolls ▸ List.suffix_append _ _)
      exact ⟨marks, hsilent.append hmarks, hpeeled⟩

/-- The report, the draw and the wait of a trial write nothing, so what is written in it is written in
its attempt. -/
theorem Trial.Genuine.writes {μ : Type} {record : Cell σ (List μ)} {trial : Trial σ}
    {entries : List μ} (hgenuine : trial.Genuine client others scope wire)
    (hrecord : ∀ event s, record.get (World.record event s) = record.get s)
    (hrandom : ∀ s, record.get (World.random s).2 = record.get s)
    (hpolls : Writes record trial.polls entries) (hpause : Writes record trial.pause []) :
    Writes record trial.steps entries := by
  have hreport : Writes record [trial.report] [] := by
    apply Flow.writes_nothing
    simpa [hgenuine.announced] using hrecord _ _
  have hdraw : Writes record [trial.draw] [] := by
    apply Flow.writes_nothing
    simpa [hgenuine.drawn] using hrandom _
  have htrial := (hreport.append hpolls).append (hdraw.append hpause)
  rw [List.nil_append, List.append_nil, List.append_nil] at htrial
  exact htrial

namespace Traced

variable (htraced : client.Traced trace layers transport)
include htraced

theorem writes_admission {t t' : Moment} {s s' : σ} {steps : List (Flow.Step σ)}
    {r : Except Interruption Unit}
    (h : Flow.Run others (client.awaitToken scope) t s steps r t' s') : Writes trace steps [] := by
  unfold awaitToken at h
  cases hlimiter : client.limiter with
  | none =>
      simp only [hlimiter, Flow.pure_eq, Flow.run_done_iff] at h
      rw [h.1]
      exact .nil
  | some limiter =>
      simp only [hlimiter] at h
      have htokens := htraced.tokens limiter hlimiter
      exact Flow.writes_of_leaves h (limiter.leaves_acquire htraced.record htokens scope)

/-- The trials of a course leave their marks one after the other. -/
theorem exists_traces {first : Nat} {t t' : Moment} {trials : List (Trial σ)}
    {result : Except Failure Response}
    (h : client.Course others scope wire first t trials result t') :
    ∃ traces, Writes trace (trials.flatMap Trial.steps) traces.flatten ∧
      List.Forall₂ (Trial.Peeled client trace layers transport others scope wire) trials traces := by
  induction h with
  | @final trial hgenuine hrests _ =>
      obtain ⟨marks, hmarks, hpeeled⟩ := hgenuine.exists_peeled htraced
      have hpause : Writes trace trial.pause [] := by
        rw [hrests]
        exact .nil
      refine ⟨[marks], ?_, .cons hpeeled .nil⟩
      simpa using hgenuine.writes htraced.record htraced.random hmarks hpause
  | interrupted hgenuine _ _ _ hpause =>
      obtain ⟨marks, hmarks, hpeeled⟩ := hgenuine.exists_peeled htraced
      have hpause := Flow.writes_of_leaves hpause (leaves_pause htraced.record _ _ _)
      refine ⟨[marks], ?_, .cons hpeeled .nil⟩
      simpa using hgenuine.writes htraced.record htraced.random hmarks hpause
  | again hgenuine _ _ _ hpause _ ih =>
      obtain ⟨marks, hmarks, hpeeled⟩ := hgenuine.exists_peeled htraced
      have hpause := Flow.writes_of_leaves hpause (leaves_pause htraced.record _ _ _)
      obtain ⟨traces, hrest, hall⟩ := ih
      refine ⟨marks :: traces, ?_, .cons hpeeled hall⟩
      rw [List.flatMap_cons, List.flatten_cons]
      exact (hgenuine.writes htraced.record htraced.random hmarks hpause).append hrest

end Traced

/-- The marks of a request are those of its attempts, one after the other, and nothing is marked in
between.  An attempt whose answer comes back leaves the nested marks of its way through the layers;
an attempt that the end of its scope cuts off leaves the beginning of such marks; and an attempt that
is not begun, as it is not signed or its scope is over, leaves none. -/
theorem marks_of_execute (htraced : client.Traced trace layers transport) {t t' : Moment} {s s' : σ}
    {steps : List (Flow.Step σ)} {result : Except Failure Response}
    (h : Flow.Run others (client.execute scope request) t s steps result t' s') :
    ∃ trials traces, traces.length = attemptsOf result ∧ Writes trace steps traces.flatten ∧
      ((∀ s s', others s s' → trace.get s' = trace.get s) →
        trace.get s' = trace.get s ++ traces.flatten) ∧
      ((trials = [] ∧ traces = [] ∧ ∃ failure, result = .error failure) ∨
        ∃ wire t₀, request.prepare client.settings = .ok wire ∧
          client.Course others (client.scopeOf scope request t₀) wire 1 t₀ trials result t' ∧
          List.Forall₂ (Trial.Peeled client trace layers transport others
            (client.scopeOf scope request t₀) wire) trials traces) := by
  cases hprepare : request.prepare client.settings with
  | error failure =>
      obtain ⟨rfl, rfl, _⟩ := run_execute_of_error hprepare h
      obtain ⟨cause, rfl⟩ := Request.exists_cause_of_prepare hprepare
      exact ⟨[], [], rfl, .nil, Writes.nil.get_of_run h, .inl ⟨rfl, rfl, _, rfl⟩⟩
  | ok wire =>
      rcases course_of_run_execute hprepare h with
        ⟨reason, hturned, rfl⟩ | ⟨t₀, s₀, admission, trials, hadmission, rfl, hcourse⟩
      · have hmarks := htraced.writes_admission hturned
        exact ⟨[], [], rfl, hmarks, hmarks.get_of_run h, .inl ⟨rfl, rfl, _, rfl⟩⟩
      · obtain ⟨traces, htraces, hall⟩ := htraced.exists_traces hcourse
        have hlook : Writes trace [(⟨t₀, s₀, s₀⟩ : Flow.Step σ)] [] := Flow.writes_nothing (by simp)
        have hmarks := (htraced.writes_admission hadmission).append (hlook.append htraces)
        have hcount : traces.length = attemptsOf result := by
          have hattempts := hcourse.attemptsOf_eq
          have hlength := hall.length_eq
          omega
        exact ⟨trials, traces, hcount, hmarks, hmarks.get_of_run h,
          .inr ⟨wire, t₀, rfl, hcourse, hall⟩⟩

end Client

namespace OnionWitness

/-- A world that keeps marks and nothing else; all its random bits are zeros. -/
structure Ledger where
  marks : List Mark := []

instance : World Ledger where
  record _ ledger := ledger
  random ledger := (0, ledger)

def trace : Cell Ledger (List Mark) := { get := Ledger.marks, set := fun marks _ => ⟨marks⟩ }

/-- A layer that puts a header into every request and adds one to every answer. -/
def label (name : HeaderName) : Layer Ledger where
  Memory := Unit
  enter request :=
    .done (.ok ({ request with headers := request.headers.insert name ⟨[], false⟩ }, ()))
  leave _ answer := .done (answer.map fun response => response.addHeader name.text "")

/-- A layer that is busy for a second and hands every request on after that. -/
def gate : Layer Ledger where
  Memory := Unit
  enter request := .act fun t ledger =>
    (if t < Span.ofSeconds 1 then .error (.ok (RetryScheduleWitness.answerAt 0))
      else .ok (request, ()), ledger)
  leave _ answer := .done answer

def layers : List (Layer Ledger) := [label ⟨"x-label"⟩, gate]

def transport (delay : Span) : Handler Ledger := fun _ =>
  (Flow.sleep delay).bind fun _ => .done (.ok { status := 200 })

def client (delay : Span) : Client Ledger :=
  { settings := RetryScheduleWitness.settings
    middlewares := Layer.stack trace 1 layers
    transport := Layer.marked trace (transport delay) }

theorem traced (delay : Span) : (client delay).Traced trace layers (transport delay) where
  stacked := rfl
  sends := rfl
  quiet :=
    { enter := by
        intro layer hlayer request
        simp only [layers, List.mem_cons, List.not_mem_nil, or_false] at hlayer
        rcases hlayer with rfl | rfl
        · trivial
        · exact Flow.leaves_act fun _ _ => rfl
      leave := by
        intro layer hlayer memory answer
        simp only [layers, List.mem_cons, List.not_mem_nil, or_false] at hlayer
        rcases hlayer with rfl | rfl <;> trivial
      carry := fun _ => (Flow.leaves_sleep delay).bind fun _ => trivial }
  record _ _ := rfl
  random _ := rfl
  tokens _ hlimiter := nomatch hlimiter
  sign _ hsign := nomatch hsign

def sent : WireRequest :=
  { RetryScheduleWitness.wire with headers := Headers.empty.insert ⟨"x-label"⟩ ⟨[], false⟩ }

/-- How a request of a client ends, after how many attempts, and with what marks. -/
def ending (asked : Client Ledger) (request : Request) : Option (Moment × Bool × Nat × List Mark) :=
  ((asked.execute .unbounded request).run 0 {} 4).map fun outcome =>
    (outcome.moment, outcome.value.isOk, Client.attemptsOf outcome.value, trace.get outcome.world)

/-- What ends like this is a run. -/
theorem exists_failure_of_ending {asked : Client Ledger} {request : Request} {t : Moment}
    {attempts : Nat} {marks : List Mark}
    (h : ending asked request = some (t, false, attempts, marks)) :
    ∃ steps failure s',
      Flow.Run Eq (asked.execute .unbounded request) 0 {} steps (.error failure) t s' ∧
      failure.attempts = attempts ∧ trace.get s' = marks := by
  obtain ⟨outcome, steps, _, hvalue, hsteps⟩ := Flow.exists_run_of_map h
  simp only [Prod.mk.injEq] at hvalue
  obtain ⟨rfl, hok, hattempts, hmarks⟩ := hvalue
  cases hresult : outcome.value with
  | ok response => simp [hresult, Except.isOk, Except.toBool] at hok
  | error failure =>
      rw [hresult] at hsteps hattempts
      exact ⟨steps, failure, _, hsteps, hattempts, hmarks⟩

/-- The gate answers the first attempt, and the second one is sent. -/
theorem sent_at_second_attempt :
    ∃ outcome t₀ trials traces,
      ((client 0).execute .unbounded TokenAccountWitness.request).run 0 {} 4 = some outcome ∧
      outcome.value.isOk = true ∧ Client.attemptsOf outcome.value = 2 ∧
      trace.get outcome.world = onion 1 2 none ++ onion 1 2 (some sent) ∧
      traces.length = 2 ∧ trace.get outcome.world = traces.flatten ∧
      (client 0).Course Eq .unbounded RetryScheduleWitness.wire 1 t₀ trials outcome.value
        outcome.moment ∧
      List.Forall₂ (Client.Trial.Peeled (client 0) trace layers (transport 0) Eq .unbounded
        RetryScheduleWitness.wire) trials traces := by
  have hending : ending (client 0) TokenAccountWitness.request =
      some (Span.ofSeconds 2, true, 2, onion 1 2 none ++ onion 1 2 (some sent)) := by decide +kernel
  obtain ⟨outcome, steps, houtcome, hvalue, hsteps⟩ := Flow.exists_run_of_map hending
  simp only [Prod.mk.injEq] at hvalue
  obtain ⟨_, hok, hattempts, hmarks⟩ := hvalue
  have hprepare : TokenAccountWitness.request.prepare (client 0).settings =
      .ok RetryScheduleWitness.wire := by
    rfl
  obtain ⟨trials, traces, hcount, _, htrace, hcases⟩ := Client.marks_of_execute (traced 0) hsteps
  rcases hcases with ⟨_, _, _, hfailure⟩ | ⟨wire, t₀, hwire, hcourse, hall⟩
  · simp [hfailure, Except.isOk, Except.toBool] at hok
  · rw [hprepare, Except.ok.injEq] at hwire
    subst hwire
    have hkept := htrace fun _ _ heq => congrArg trace.get heq.symm
    exact ⟨outcome, t₀, trials, traces, houtcome, hok, hattempts, hmarks, hcount.trans hattempts,
      hkept, hcourse, hall⟩

def slow : Span := Span.ofSeconds 5

/-- A request that has three seconds. -/
def hurried : Request := { TokenAccountWitness.request with timeout := some (Span.ofSeconds 3) }

/-- The client without the credentials that it needs. -/
def unsigned : Client Ledger :=
  { client 0 with authenticator := some fun _ => .done (.error (.missingCredentials "none")) }

theorem traced_unsigned : unsigned.Traced trace layers (transport 0) :=
  { traced 0 with
    sign := by
      rintro _ ⟨⟩ wire
      trivial }

/-- The marks of so many attempts, all of them nested. -/
def Nested (count : Nat) (marks : List Mark) : Prop :=
  ∃ traces : List (List Mark), traces.length = count ∧ marks = traces.flatten ∧
    ∀ trace ∈ traces, ∃ depth received, Fits layers.length depth received ∧
      trace = onion 1 depth received

/-- They end with the last mark of the first layer. -/
theorem Nested.getLast?_eq {count : Nat} {marks : List Mark} (h : Nested (count + 1) marks) :
    marks.getLast? = some (.after 1) := by
  obtain ⟨traces, hcount, rfl, hall⟩ := h
  obtain rfl | ⟨front, last, rfl⟩ := traces.eq_nil_or_concat'
  · cases hcount
  · obtain ⟨depth, received, hfits, rfl⟩ := hall last (by simp)
    obtain ⟨depth, rfl⟩ : ∃ inner, depth = inner + 1 := by
      apply Nat.exists_eq_add_one.mpr
      rcases hfits with ⟨_, rfl⟩ | ⟨_, hdepth, _⟩
      · decide
      · exact hdepth
    simp [List.getLast?_append, getLast?_onion]

/-- An answer that takes too long cuts the second attempt off between its marks, and an attempt that
is not signed leaves no marks. -/
theorem attempts_without_nested_marks :
    (∃ steps failure s', (client slow).Traced trace layers (transport slow) ∧
      Flow.Run Eq ((client slow).execute .unbounded hurried) 0 {} steps (.error failure)
        (Span.ofSeconds 3) s' ∧
      failure.attempts = 2 ∧
      trace.get s' = onion 1 2 none ++ [.before 1, .before 2, .sent sent] ∧
      ¬ Nested failure.attempts (trace.get s')) ∧
    ∃ steps failure s', unsigned.Traced trace layers (transport 0) ∧
      Flow.Run Eq (unsigned.execute .unbounded TokenAccountWitness.request) 0 {} steps
        (.error failure) 0 s' ∧
      failure.attempts = 1 ∧ trace.get s' = [] ∧ ¬ Nested failure.attempts (trace.get s') := by
  constructor
  · have hending : ending (client slow) hurried =
        some (Span.ofSeconds 3, false, 2,
          onion 1 2 none ++ [.before 1, .before 2, .sent sent]) := by decide +kernel
    obtain ⟨steps, failure, s', hsteps, hattempts, hmarks⟩ := exists_failure_of_ending hending
    refine ⟨steps, failure, s', traced slow, hsteps, hattempts, hmarks, ?_⟩
    rw [hattempts, hmarks]
    intro hnested
    cases hnested.getLast?_eq
  · have hending : ending unsigned TokenAccountWitness.request = some (0, false, 1, []) := by
      decide +kernel
    obtain ⟨steps, failure, s', hsteps, hattempts, hmarks⟩ := exists_failure_of_ending hending
    refine ⟨steps, failure, s', traced_unsigned, hsteps, hattempts, hmarks, ?_⟩
    rw [hattempts, hmarks]
    intro hnested
    cases hnested.getLast?_eq

end OnionWitness
end Courier
