import Courier.Proofs.FailureShape
import Courier.Proofs.SideBySide
/-!
Results and credentials.  Two runs of a request that differ in their credentials only, both accepted,
and whose attempts are answered alike make the same attempts with the same waits and come to the same
result.  What is signed is a copy: the result names the URL that the request was prepared with.
-/
namespace Courier

namespace Flow

variable {σ α : Type} {others others' : σ → σ → Prop}

/-- The polls of a run settle its answer. -/
theorem Run.same_of_steps {flow : Flow σ α} {t t₁ t₁' : Moment} {s s' s₁ s₁' : σ}
    {steps : List (Step σ)} {a a' : α} (h : Run others flow t s steps a t₁ s₁)
    (h' : Run others' flow t s' steps a' t₁' s₁') : a = a' ∧ t₁ = t₁' := by
  induction h generalizing s' with
  | done =>
      simp only [run_done_iff] at h'
      obtain ⟨_, rfl, rfl, _⟩ := h'
      exact ⟨rfl, rfl⟩
  | @ready _ poll next t _ s s₂ _ _ b _ _ hpoll _ _ ih =>
      have hworld : s' = s := by
        cases h' with
        | ready => rfl
        | later => rfl
      rw [hworld] at h'
      obtain ⟨_, _, _, hrest, heq⟩ := h'.of_ready hpoll
      rw [List.cons.injEq] at heq
      rw [← heq.2] at hrest
      exact ih hrest
  | @later _ poll next t _ _ s s₂ _ _ _ _ hpoll _ _ ih =>
      have hworld : s' = s := by
        cases h' with
        | ready => rfl
        | later => rfl
      rw [hworld] at h'
      obtain ⟨_, _, _, hrest, heq⟩ := h'.of_later hpoll
      rw [List.cons.injEq] at heq
      rw [← heq.2] at hrest
      exact ih hrest

end Flow

namespace Client

variable {σ : Type} [World σ] {client : Client σ} {others others' : σ → σ → Prop} {scope : Scope}
  {request : Request} {wire : WireRequest} {sign sign' : Authenticator σ}

/-- The credentials are accepted in the trial, and the middleware answers what they signed. -/
def Trial.Answered (client : Client σ) (sign : Authenticator σ) (others : σ → σ → Prop)
    (scope : Scope) (wire : WireRequest) (trial : Trial σ)
    (answer : Except Interruption (Except TransportFailure WireResponse)) : Prop :=
  ∃ s signed signing t₁ s₁ sending,
    Flow.Run others (Flow.within scope (sign wire)) trial.began s signing (.ok (.ok signed)) t₁ s₁ ∧
    Flow.Run others (Flow.within scope (client.handler signed)) t₁ s₁ sending answer trial.ended
      trial.draw.before ∧
    trial.polls = signing ++ sending

/-- A trial that is answered comes to the outcome of its answer. -/
theorem Trial.Answered.outcome_eq {trial : Trial σ}
    {answer : Except Interruption (Except TransportFailure WireResponse)}
    (h : trial.Answered client sign others scope wire answer)
    (hgenuine : trial.Genuine (client.signedBy sign) others scope wire) :
    trial.outcome = .ofAnswer answer := by
  obtain ⟨s, signed, signing, t₁, s₁, sending, hsign, hanswer, hpolls⟩ := h
  obtain ⟨s', _, hattempt⟩ := hgenuine.attempted
  have hsend : Flow.Run others ((client.signedBy sign).send scope signed) t₁ s₁ (sending ++ [])
      (.ofAnswer answer) trial.ended trial.draw.before := by
    rw [send_eq]
    exact hanswer.bind .done
  rw [List.append_nil] at hsend
  have hwhole : Flow.Run others ((client.signedBy sign).attempt scope wire) trial.began s
      (signing ++ sending) (.ofAnswer answer) trial.ended trial.draw.before := hsign.bind hsend
  rw [← hpolls] at hwhole
  exact (hattempt.same_of_steps hwhole).1

/-- Two trials are both accepted and both answered in the same way after the same time, and the same
bits are drawn after them. -/
structure AnsweredAlike (client : Client σ) (sign sign' : Authenticator σ)
    (others others' : σ → σ → Prop) (scope : Scope) (wire : WireRequest) (trial trial' : Trial σ) :
    Prop where
  answers : ∃ answer, trial.Answered client sign others scope wire answer ∧
    trial'.Answered client sign' others' scope wire answer
  span : ∃ span, trial.ended = trial.began + span ∧ trial'.ended = trial'.began + span
  bits : trial.bits = trial'.bits

/-- Two trials that cannot be told apart by what a request comes to. -/
structure SameTrial (client : Client σ) (trial trial' : Trial σ) : Prop where
  number : trial.number = trial'.number
  began : trial.began = trial'.began
  ended : trial.ended = trial'.ended
  outcome : trial.outcome = trial'.outcome
  delay : trial.delay client = trial'.delay client

theorem AnsweredAlike.sameTrial {trial trial' : Trial σ}
    (h : client.AnsweredAlike sign sign' others others' scope wire trial trial')
    (hgenuine : trial.Genuine (client.signedBy sign) others scope wire)
    (hgenuine' : trial'.Genuine (client.signedBy sign') others' scope wire)
    (hnumber : trial.number = trial'.number) (hbegan : trial.began = trial'.began) :
    client.SameTrial trial trial' := by
  obtain ⟨answer, hanswer, hanswer'⟩ := h.answers
  have houtcome : trial.outcome = trial'.outcome := by
    rw [hanswer.outcome_eq hgenuine, hanswer'.outcome_eq hgenuine']
  have hended : trial.ended = trial'.ended := by
    obtain ⟨span, hspan, hspan'⟩ := h.span
    rw [hspan, hspan', hbegan]
  refine ⟨hnumber, hbegan, hended, houtcome, ?_⟩
  rw [Trial.delay, Trial.delay, hnumber, houtcome, h.bits]

/-- The ways in which a course goes on after its first trial. -/
theorem Course.exists_first {first : Nat} {t t' : Moment} {trials : List (Trial σ)}
    {result : Except Failure Response}
    (h : client.Course others scope wire first t trials result t') :
    ∃ trial rest, trials = trial :: rest ∧ trial.number = first ∧ trial.began = t ∧
      trial.Genuine client others scope wire ∧
      ((client.Concludes trial.number trial.outcome ∧ rest = [] ∧
          result = resultOf wire trial.number trial.outcome ∧ t' = trial.ended) ∨
        ¬ client.Concludes trial.number trial.outcome ∧ ∃ failure s r t₁ s',
          resultOf wire trial.number trial.outcome = .error failure ∧
          Flow.Run others (pause scope wire trial.number (trial.delay client) failure) trial.ended s
            trial.pause r t₁ s' ∧
          ((∃ reason, r = .error reason ∧ rest = [] ∧ t' = t₁ ∧ result = .error
              (.ofInterruption wire.method wire.url.toText trial.number reason failure.response)) ∨
            r = .ok () ∧ client.Course others scope wire (trial.number + 1) t₁ rest result t')) := by
  cases h with
  | final hgenuine hrests hstops =>
      exact ⟨_, [], rfl, rfl, rfl, hgenuine, .inl ⟨hstops, rfl, rfl, rfl⟩⟩
  | interrupted hgenuine hgoes hfailure _ hpause =>
      exact ⟨_, [], rfl, rfl, rfl, hgenuine, .inr ⟨hgoes, _, _, _, _, _, hfailure, hpause,
        .inl ⟨_, rfl, rfl, rfl, rfl⟩⟩⟩
  | again hgenuine hgoes hfailure _ hpause hrest =>
      exact ⟨_, _, rfl, rfl, rfl, hgenuine, .inr ⟨hgoes, _, _, _, _, _, hfailure, hpause,
        .inr ⟨rfl, hrest⟩⟩⟩

/-- The wait after an attempt ends in the same way at the same moment, whatever others do. -/
theorem pause_same {number : Nat} {delay : Span} {failure : Failure} {t t₁ t₁' : Moment}
    {s s' s₁ s₁' : σ} {steps steps' : List (Flow.Step σ)} {r r' : Except Interruption Unit}
    (h : Flow.Run others (pause scope wire number delay failure) t s steps r t₁ s₁)
    (h' : Flow.Run others' (pause scope wire number delay failure) t s' steps' r' t₁' s₁') :
    r = r' ∧ t₁ = t₁' := by
  let blind : Mirror σ := ⟨fun _ _ => True, others, others', fun _ _ _ _ _ _ _ => trivial⟩
  have hrecords : blind.Records := fun _ _ _ _ => trivial
  obtain ⟨hr, ht, _⟩ := paired_pause hrecords scope wire number delay failure t trivial h h'
  exact ⟨hr, ht⟩

/-- After two trials that cannot be told apart the same failure is waited upon, for as long. -/
theorem SameTrial.pause {trial trial' : Trial σ} (h : client.SameTrial trial trial')
    {failure failure' : Failure} {t₁ t₁' : Moment} {s s' s₁ s₁' : σ}
    {r r' : Except Interruption Unit}
    (hfailure : resultOf wire trial.number trial.outcome = .error failure)
    (hfailure' : resultOf wire trial'.number trial'.outcome = .error failure')
    (hpause : Flow.Run others (pause scope wire trial.number (trial.delay client) failure)
      trial.ended s trial.pause r t₁ s₁)
    (hpause' : Flow.Run others' (Client.pause scope wire trial'.number (trial'.delay client) failure')
      trial'.ended s' trial'.pause r' t₁' s₁') :
    failure = failure' ∧ r = r' ∧ t₁ = t₁' := by
  rw [h.number, h.outcome, hfailure', Except.error.injEq] at hfailure
  rw [h.number, h.delay, h.ended, ← hfailure] at hpause
  exact ⟨hfailure.symm, pause_same hpause hpause'⟩

/-- Two courses whose trials are answered alike are one course in all that can be told from outside. -/
theorem Course.same {first : Nat} {t t₁ t₁' : Moment} {trials trials' : List (Trial σ)}
    {result result' : Except Failure Response}
    (h : (client.signedBy sign).Course others scope wire first t trials result t₁)
    (h' : (client.signedBy sign').Course others' scope wire first t trials' result' t₁')
    (halike : ∀ (k : Nat) trial trial', trials[k]? = some trial → trials'[k]? = some trial' →
      client.AnsweredAlike sign sign' others others' scope wire trial trial') :
    result = result' ∧ t₁ = t₁' ∧ List.Forall₂ client.SameTrial trials trials' := by
  induction trials generalizing first t trials' with
  | nil =>
      obtain ⟨_, _, hnil, _⟩ := h.exists_first
      cases hnil
  | cons head rest ih =>
      obtain ⟨trial, _, heq, rfl, rfl, hgenuine, hends⟩ := h.exists_first
      obtain ⟨trial', rest', rfl, hnumber, hbegan, hgenuine', hends'⟩ := h'.exists_first
      cases heq
      have hfirst := halike 0 head trial' rfl rfl
      have hsame := hfirst.sameTrial hgenuine hgenuine' hnumber.symm hbegan.symm
      have hrest : ∀ (k : Nat) trial trial', rest[k]? = some trial → rest'[k]? = some trial' →
          client.AnsweredAlike sign sign' others others' scope wire trial trial' :=
        fun k => halike (k + 1)
      have hconcludes : (client.signedBy sign').Concludes trial'.number trial'.outcome ↔
          (client.signedBy sign).Concludes head.number head.outcome := by
        rw [hsame.number, hsame.outcome]
        rfl
      rcases hends with ⟨hstops, rfl, rfl, rfl⟩ | ⟨hgoes, failure, s, r, t₂, s₂, hfailure, hpause, hends⟩
      · rcases hends' with ⟨_, rfl, rfl, rfl⟩ | ⟨hgoes', _⟩
        · refine ⟨?_, hsame.ended, .cons hsame .nil⟩
          rw [hsame.number, hsame.outcome]
        · exact absurd (hconcludes.mpr hstops) hgoes'
      · rcases hends' with ⟨hstops', _⟩ | ⟨_, failure', s', r', t₂', s₂', hfailure', hpause', hends'⟩
        · exact absurd (hconcludes.mp hstops') hgoes
        · obtain ⟨rfl, rfl, rfl⟩ := hsame.pause hfailure hfailure' hpause hpause'
          rcases hends with ⟨reason, rfl, rfl, rfl, rfl⟩ | ⟨rfl, hcourse⟩
          · rcases hends' with ⟨_, hreason, rfl, rfl, rfl⟩ | ⟨hr, _⟩
            · cases hreason
              refine ⟨?_, rfl, .cons hsame .nil⟩
              rw [hsame.number]
            · cases hr
          · rcases hends' with ⟨_, hr, _⟩ | ⟨_, hcourse'⟩
            · cases hr
            · rw [← hsame.number] at hcourse'
              obtain ⟨hresult, hmoment, htrials⟩ := ih hcourse hcourse' hrest
              exact ⟨hresult, hmoment, .cons hsame htrials⟩

/-- Two worlds with the same tokens for the client. -/
def SameTokens (client : Client σ) (s s' : σ) : Prop :=
  ∀ limiter ∈ client.limiter, limiter.bucket.get s = limiter.bucket.get s'

theorem awaitToken_same (hkeeps : ∀ ⦃s s' s₁ s₁'⦄, client.SameTokens s s' → others s s₁ →
      others' s' s₁' → client.SameTokens s₁ s₁')
    {t t₁ t₁' : Moment} {s s' s₁ s₁' : σ} {steps steps' : List (Flow.Step σ)}
    {r r' : Except Interruption Unit} (htokens : client.SameTokens s s')
    (h : Flow.Run others (client.awaitToken scope) t s steps r t₁ s₁)
    (h' : Flow.Run others' (client.awaitToken scope) t s' steps' r' t₁' s₁') :
    r = r' ∧ t₁ = t₁' := by
  let mirror : Mirror σ := ⟨client.SameTokens, others, others', hkeeps⟩
  have hrecords : mirror.Records := by
    intro s s' event halike limiter hlimiter
    rw [limiter.get_record, limiter.get_record]
    exact halike limiter hlimiter
  have hshares : ∀ limiter ∈ client.limiter, mirror.Shares limiter := by
    intro limiter hlimiter
    refine ⟨fun s s' halike => halike limiter hlimiter, ?_⟩
    intro s s' bucket _ other hother
    have heq : other = limiter := Option.mem_unique hother hlimiter
    rw [heq, limiter.bucket.get_set, limiter.bucket.get_set]
  obtain ⟨hr, ht, _⟩ := paired_awaitToken hrecords hshares scope t htokens h h'
  exact ⟨hr, ht⟩

/-- A result names no other URL than this one. -/
def NamesOnly (url : Url) : Except Failure Response → Prop
  | .ok response => response.url = url
  | .error failure => failure.url = url.toText ∧ ∀ response ∈ failure.response, response.url = url

theorem namesOnly_resultOf (wire : WireRequest) (number : Nat) (outcome : Outcome) :
    NamesOnly wire.url (resultOf wire number outcome) := by
  cases outcome with
  | answered answer =>
      by_cases hstatus : answer.status < 400
      · rw [resultOf, if_pos hstatus]
        rfl
      · rw [resultOf, if_neg hstatus]
        refine ⟨rfl, ?_⟩
        rintro _ ⟨⟩
        rfl
  | unsigned cause => exact ⟨rfl, by simp⟩
  | failed cause => exact ⟨rfl, by simp⟩

theorem Course.namesOnly {first : Nat} {t t' : Moment} {trials : List (Trial σ)}
    {result : Except Failure Response}
    (h : client.Course others scope wire first t trials result t') : NamesOnly wire.url result := by
  induction h with
  | final => exact namesOnly_resultOf wire _ _
  | @interrupted trial failure _ _ _ _ _ _ hfailure _ _ =>
      have hnames := namesOnly_resultOf wire trial.number trial.outcome
      rw [hfailure] at hnames
      exact ⟨rfl, hnames.2⟩
  | again _ _ _ _ _ _ ih => exact ih

/-- A request comes to a result that names the URL that it has without credentials. -/
theorem namesOnly_of_run {t t' : Moment} {s s' : σ} {steps : List (Flow.Step σ)}
    {result : Except Failure Response}
    (h : Flow.Run others (client.execute scope request) t s steps result t' s') :
    NamesOnly (request.url client.settings) result := by
  cases hprepare : request.prepare client.settings with
  | error failure =>
      obtain ⟨_, rfl, _⟩ := run_execute_of_error hprepare h
      obtain ⟨cause, rfl⟩ := Request.exists_cause_of_prepare hprepare
      exact ⟨rfl, by simp [Request.failBefore]⟩
  | ok wire =>
      rcases course_of_run_execute hprepare h with ⟨reason, _, rfl⟩ | ⟨_, _, _, _, _, _, hcourse⟩
      · exact ⟨rfl, by simp [Request.failBefore]⟩
      · rw [← (Request.eq_of_prepare hprepare).2]
        exact hcourse.namesOnly

/-- What a request for a document makes of the result of its request. -/
def document (request : Request) (shape : Json.Shape) :
    Except Failure Response → Except Failure (Response × Option Json)
  | .error failure => .error failure
  | .ok response =>
      if response.body.isEmpty then .ok (response, none)
      else
        match response.json shape with
        | .ok document => .ok (response, some document)
        | .error e => .error (.ofDocument request.method response e)

theorem executeJson_eq (client : Client σ) (scope : Scope) (request : Request)
    (shape : Json.Shape) :
    client.executeJson scope request shape =
      (client.execute scope request).bind fun result => .done (document request shape result) := by
  unfold executeJson
  congr 1
  funext result
  rcases result with failure | response
  · rfl
  · unfold document
    by_cases hempty : response.body.isEmpty
    · simp [hempty]
    · cases hread : response.json shape <;> simp [hempty, hread]

theorem run_executeJson {shape : Json.Shape} {t t' : Moment} {s s' : σ}
    {steps : List (Flow.Step σ)} {answer : Except Failure (Response × Option Json)}
    (h : Flow.Run others (client.executeJson scope request shape) t s steps answer t' s') :
    ∃ result, Flow.Run others (client.execute scope request) t s steps result t' s' ∧
      answer = document request shape result := by
  rw [executeJson_eq] at h
  obtain ⟨head, result, t₁, s₁, tail, hhead, htail, rfl⟩ := Flow.run_bind_iff.mp h
  simp only [Flow.run_done_iff] at htail
  obtain ⟨rfl, rfl, rfl, rfl⟩ := htail
  rw [List.append_nil]
  exact ⟨result, hhead, rfl⟩

theorem NamesOnly.document {url : Url} {result : Except Failure Response} (h : NamesOnly url result)
    (request : Request) (shape : Json.Shape) :
    NamesOnly url ((Client.document request shape result).map Prod.fst) := by
  rcases result with failure | response
  · exact h
  · unfold Client.document
    by_cases hempty : response.body.isEmpty
    · simpa [hempty, Except.map] using h
    · cases hread : response.json shape with
      | ok document => simpa [hempty, hread, Except.map] using h
      | error e =>
          have hurl : response.url = url := h
          simp [hempty, hread, Except.map, NamesOnly, Failure.ofDocument, hurl]

/-- Two runs of one request from one moment on, with credentials of their own.  Either it does not
come to an attempt in any of them, and both end alike; or both make their attempts from the same
moment on, and end alike by the same attempts if these are answered alike. -/
inductive Compared (client : Client σ) (sign sign' : Authenticator σ) (others others' : σ → σ → Prop)
    (scope : Scope) (request : Request) (t : Moment) (s s' : σ) (steps steps' : List (Flow.Step σ))
    (result result' : Except Failure Response) (t₁ t₁' : Moment) : Prop
  /-- the request cannot be prepared -/
  | unprepared {failure : Failure} (hprepare : request.prepare client.settings = .error failure)
      (hresult : result = .error failure) (hresult' : result' = .error failure)
      (hmoment : t₁ = t) (hmoment' : t₁' = t)
  /-- the scope is over before there is a token -/
  | turnedAway {reason : Interruption} {s₁ s₁' : σ}
      (hrun : Flow.Run others (client.awaitToken scope) t s steps (.error reason) t₁ s₁)
      (hrun' : Flow.Run others' (client.awaitToken scope) t s' steps' (.error reason) t₁' s₁')
      (hresult : result = result') (hmoment : t₁ = t₁')
  /-- the attempts begin at the same moment -/
  | admitted {wire : WireRequest} {admission admission' : List (Flow.Step σ)} {t₀ : Moment}
      {s₀ s₀' : σ} {trials trials' : List (Trial σ)}
      (hprepare : request.prepare client.settings = .ok wire)
      (hsteps : steps = admission ++ ⟨t₀, s₀, s₀⟩ :: trials.flatMap Trial.steps)
      (hsteps' : steps' = admission' ++ ⟨t₀, s₀', s₀'⟩ :: trials'.flatMap Trial.steps)
      (hcourse : (client.signedBy sign).Course others (client.scopeOf scope request t₀) wire 1 t₀
        trials result t₁)
      (hcourse' : (client.signedBy sign').Course others' (client.scopeOf scope request t₀) wire 1 t₀
        trials' result' t₁')
      (hsame : (∀ (k : Nat) trial trial', trials[k]? = some trial → trials'[k]? = some trial' →
          client.AnsweredAlike sign sign' others others' (client.scopeOf scope request t₀) wire trial
            trial') →
        result = result' ∧ t₁ = t₁' ∧ List.Forall₂ client.SameTrial trials trials')

theorem compared_of_run (hkeeps : ∀ ⦃s s' s₁ s₁'⦄, client.SameTokens s s' → others s s₁ →
      others' s' s₁' → client.SameTokens s₁ s₁')
    {t t₁ t₁' : Moment} {s s' s₁ s₁' : σ} {steps steps' : List (Flow.Step σ)}
    {result result' : Except Failure Response} (htokens : client.SameTokens s s')
    (h : Flow.Run others ((client.signedBy sign).execute scope request) t s steps result t₁ s₁)
    (h' : Flow.Run others' ((client.signedBy sign').execute scope request) t s' steps' result' t₁'
      s₁') :
    client.Compared sign sign' others others' scope request t s s' steps steps' result result' t₁
      t₁' := by
  cases hprepare : request.prepare client.settings with
  | error failure =>
      have hprepared (sign : Authenticator σ) :
          request.prepare (client.signedBy sign).settings = .error failure := hprepare
      obtain ⟨_, hresult, hmoment⟩ := run_execute_of_error (hprepared sign) h
      obtain ⟨_, hresult', hmoment'⟩ := run_execute_of_error (hprepared sign') h'
      exact .unprepared hprepare hresult hresult' hmoment hmoment'
  | ok wire =>
      have hprepared (sign : Authenticator σ) :
          request.prepare (client.signedBy sign).settings = .ok wire := hprepare
      rcases course_of_run_execute (hprepared sign) h with
        ⟨reason, hturned, hresult⟩ | ⟨t₀, s₀, _, _, hadmission, hsteps, hcourse⟩
      · rcases course_of_run_execute (hprepared sign') h' with
          ⟨reason', hturned', hresult'⟩ | ⟨_, _, _, _, hadmission', _, _⟩
        · obtain ⟨hreason, hmoment⟩ := awaitToken_same hkeeps htokens hturned hturned'
          cases hreason
          exact .turnedAway hturned hturned' (hresult.trans hresult'.symm) hmoment
        · cases (awaitToken_same hkeeps htokens hturned hadmission').1
      · rcases course_of_run_execute (hprepared sign') h' with
          ⟨reason', hturned', _⟩ | ⟨t₀', s₀', _, _, hadmission', hsteps', hcourse'⟩
        · cases (awaitToken_same hkeeps htokens hadmission hturned').1
        · obtain ⟨_, rfl⟩ := awaitToken_same hkeeps htokens hadmission hadmission'
          exact .admitted hprepare hsteps hsteps' hcourse hcourse' (hcourse.same hcourse')

/-- A request comes to the same result with any two credentials that are accepted, by the same
attempts with the same waits, if its attempts are answered alike; and so does a request for a
document.  The result names the URL that the request has without credentials. -/
theorem result_independent_of_credentials
    (hkeeps : ∀ ⦃s s' s₁ s₁'⦄, client.SameTokens s s' → others s s₁ → others' s' s₁' →
      client.SameTokens s₁ s₁')
    {s s' : σ} (htokens : client.SameTokens s s') (sign sign' : Authenticator σ) (scope : Scope)
    (request : Request) :
    (∀ t steps steps' result result' t₁ t₁' s₁ s₁',
      Flow.Run others ((client.signedBy sign).execute scope request) t s steps result t₁ s₁ →
      Flow.Run others' ((client.signedBy sign').execute scope request) t s' steps' result' t₁' s₁' →
        client.Compared sign sign' others others' scope request t s s' steps steps' result result' t₁
          t₁' ∧
        NamesOnly (request.url client.settings) result) ∧
    ∀ shape t steps steps' answer answer' t₁ t₁' s₁ s₁',
      Flow.Run others ((client.signedBy sign).executeJson scope request shape) t s steps answer t₁
        s₁ →
      Flow.Run others' ((client.signedBy sign').executeJson scope request shape) t s' steps' answer'
        t₁' s₁' →
        ∃ result result',
          answer = document request shape result ∧ answer' = document request shape result' ∧
          client.Compared sign sign' others others' scope request t s s' steps steps' result result'
            t₁ t₁' ∧
          NamesOnly (request.url client.settings) (answer.map Prod.fst) := by
  constructor
  · intro t steps steps' result result' t₁ t₁' s₁ s₁' hrun hrun'
    have hnames : NamesOnly (request.url (client.signedBy sign).settings) result :=
      namesOnly_of_run hrun
    exact ⟨compared_of_run hkeeps htokens hrun hrun', hnames⟩
  · intro shape t steps steps' answer answer' t₁ t₁' s₁ s₁' hrun hrun'
    obtain ⟨result, hresult, rfl⟩ := run_executeJson hrun
    obtain ⟨result', hresult', rfl⟩ := run_executeJson hrun'
    have hnames : NamesOnly (request.url (client.signedBy sign).settings) result :=
      namesOnly_of_run hresult
    exact ⟨result, result', rfl, rfl, compared_of_run hkeeps htokens hresult hresult',
      hnames.document request shape⟩

end Client

namespace CredentialIndependenceWitness

/-- A world in which nothing is written down, and all random bits are zeros. -/
structure Blank where

instance : World Blank where
  record _ blank := blank
  random blank := (0, blank)

/-- An answer that asks for two seconds. -/
def busy : WireResponse :=
  { status := 503, headers := ⟨[(.retryAfter, ⟨Octets.ofText "2", false⟩)]⟩ }

def client : Client Blank :=
  { settings := RetryScheduleWitness.settings
    transport := fun _ => .act fun _ blank => (.ok busy, blank) }

def key (value : String) : Authenticator Blank :=
  (Credentials.apiKeyQuery "sig" value).authenticator

/-- Every trial is signed at once, and answered at once with the busy answer. -/
theorem answered_busy {value : String} {trial : Client.Trial Blank}
    (h : trial.Genuine (client.signedBy (key value)) Eq .unbounded RetryScheduleWitness.wire) :
    trial.Answered client (key value) Eq .unbounded RetryScheduleWitness.wire (.ok (.ok busy)) ∧
      trial.ended = trial.began := by
  obtain ⟨s, _, hattempt⟩ := h.attempted
  obtain ⟨signing, r, t₁, s₁, sending, hsign, hsend, hpolls⟩ := Flow.run_bind_iff.mp hattempt
  obtain ⟨_, _, _, rfl, _, hsigned⟩ := Flow.run_within_of_open hsign rfl
  simp only [key, Credentials.authenticator, Credentials.sign, Flow.run_done_iff] at hsigned
  obtain ⟨_, rfl, rfl, _⟩ := hsigned
  simp only [Client.send_eq] at hsend
  obtain ⟨sent, answer, t₂, s₂, _, hanswer, hdone, hsending⟩ := Flow.run_bind_iff.mp hsend
  simp only [Flow.run_done_iff] at hdone
  obtain ⟨rfl, _, rfl, _⟩ := hdone
  obtain ⟨_, _, _, rfl, _, hsent⟩ := Flow.run_within_of_open hanswer rfl
  have hbusy := Flow.run_act_iff.mp hsent
  obtain ⟨_, rfl, hmoment, _⟩ := hbusy
  rw [hsending, List.append_nil] at hpolls
  exact ⟨⟨_, _, _, _, _, _, hsign, hanswer, hpolls⟩, hmoment⟩

theorem answeredAlike_busy {trial trial' : Client.Trial Blank}
    (h : trial.Genuine (client.signedBy (key "alpha")) Eq .unbounded RetryScheduleWitness.wire)
    (h' : trial'.Genuine (client.signedBy (key "beta")) Eq .unbounded RetryScheduleWitness.wire) :
    client.AnsweredAlike (key "alpha") (key "beta") Eq Eq .unbounded RetryScheduleWitness.wire trial
      trial' := by
  obtain ⟨hanswered, hended⟩ := answered_busy h
  obtain ⟨hanswered', hended'⟩ := answered_busy h'
  exact ⟨⟨_, hanswered, hanswered'⟩, ⟨0, hended, hended'⟩, rfl⟩

/-- With another key there are three attempts again, and the same failure after four seconds; the
URL of the failure has no key. -/
theorem same_failure_with_other_key :
    ∃ outcome outcome',
      ((client.signedBy (key "alpha")).execute .unbounded TokenAccountWitness.request).run 0 {} 4 =
        some outcome ∧
      ((client.signedBy (key "beta")).execute .unbounded TokenAccountWitness.request).run 0 {} 4 =
        some outcome' ∧
      Client.attemptsOf outcome.value = 3 ∧ outcome.moment = Span.ofSeconds 4 ∧
      outcome.value = outcome'.value ∧ outcome.moment = outcome'.moment ∧
      Client.NamesOnly RetryScheduleWitness.wire.url outcome.value := by
  have hrun : ∀ value ∈ ["alpha", "beta"],
      (((client.signedBy (key value)).execute .unbounded TokenAccountWitness.request).run 0 {} 4).map
        (fun outcome => (Client.attemptsOf outcome.value, outcome.moment)) =
        some (3, Span.ofSeconds 4) := by decide +kernel
  obtain ⟨outcome, steps, houtcome, hvalue, hsteps⟩ :=
    Flow.exists_run_of_map (hrun "alpha" (by decide))
  obtain ⟨outcome', steps', houtcome', hvalue', hsteps'⟩ :=
    Flow.exists_run_of_map (hrun "beta" (by decide))
  rw [Prod.mk.injEq] at hvalue
  have hprepare : TokenAccountWitness.request.prepare client.settings =
      .ok RetryScheduleWitness.wire := by
    rfl
  have htokens : ∀ blank blank', client.SameTokens blank blank' := by
    intro blank blank' limiter hlimiter
    cases hlimiter
  obtain ⟨hcompared, hnames⟩ := (Client.result_independent_of_credentials
    (fun _ _ _ _ _ _ _ => htokens _ _) (htokens _ _) (key "alpha") (key "beta") .unbounded
    TokenAccountWitness.request).1 _ _ _ _ _ _ _ _ _ hsteps hsteps'
  cases hcompared with
  | unprepared hfails => simp [hprepare] at hfails
  | turnedAway hturned =>
      simp only [Client.awaitToken, client, Flow.pure_eq, Flow.run_done_iff] at hturned
      cases hturned.2.1
  | admitted hprepare' _ _ hcourse hcourse' hsame =>
      rw [hprepare, Except.ok.injEq] at hprepare'
      subst hprepare'
      have halike := fun (k : Nat) trial trial' htrial htrial' =>
        answeredAlike_busy (hcourse.genuine trial (List.mem_of_getElem? (i := k) htrial))
          (hcourse'.genuine trial' (List.mem_of_getElem? (i := k) htrial'))
      obtain ⟨hresult, hmoment, _⟩ := hsame halike
      exact ⟨outcome, outcome', houtcome, houtcome', hvalue.1, hvalue.2, hresult, hmoment, hnames⟩

end CredentialIndependenceWitness
end Courier
