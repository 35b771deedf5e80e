import Courier.Proofs.RetrySchedule
import Courier.Proofs.SideBySide
import Courier.Proofs.Veil
/-!
The log and credentials.  A request that is signed with another secret of the same kind is another
request on its way through the middleware; but if the name under which the secret goes is sensitive,
what is reported of it is the same.
-/
namespace Courier

/-- Somebody who reads the journals of two worlds that have the same draws. -/
structure Observer (σ : Type) [World σ] extends Mirror σ where
  journal : σ → List Event
  journal_record : ∀ event s, journal (World.record event s) = journal s ++ [event]
  journal_eq : ∀ ⦃s s'⦄, alike s s' → journal s = journal s'
  records : toMirror.Records
  draws : ∀ ⦃s s'⦄, alike s s' →
    (World.random s).1 = (World.random s').1 ∧ alike (World.random s).2 (World.random s').2

namespace Handler

variable {σ : Type}

/-- Two handlers that answer alike what belongs together. -/
def Alike (mirror : Mirror σ) (belong : WireRequest → WireRequest → Prop)
    (handler handler' : Handler σ) : Prop :=
  ∀ ⦃request request'⦄, belong request request' →
    Flow.Twin mirror Eq (handler request) (handler' request')

end Handler

namespace Middleware

variable {σ : Type} {mirror : Mirror σ} {belong : WireRequest → WireRequest → Prop}

/-- A middleware that makes no difference between requests that belong together. -/
def Discreet (mirror : Mirror σ) (belong : WireRequest → WireRequest → Prop)
    (middleware : Middleware σ) : Prop :=
  ∀ ⦃inner inner' : Handler σ⦄, inner.Alike mirror belong inner' →
    (middleware inner).Alike mirror belong (middleware inner')

theorem alike_around {middlewares : List (Middleware σ)} {handler handler' : Handler σ}
    (hall : ∀ middleware ∈ middlewares, middleware.Discreet mirror belong)
    (hhandler : handler.Alike mirror belong handler') :
    Handler.Alike mirror belong (around middlewares handler) (around middlewares handler') := by
  induction middlewares with
  | nil => exact hhandler
  | cons middleware middlewares ih =>
      obtain ⟨hfirst, hrest⟩ := List.forall_mem_cons.mp hall
      exact hfirst (ih hrest)

variable [World σ]

def answerEvent (policy : RedactionPolicy) (request : WireRequest) :
    Except TransportFailure WireResponse → Event
  | .ok response =>
      .response request.method (policy.showUrl request.url) response.status
        (policy.showHeaders response.headers)
  | .error e =>
      .failed request.method (policy.showUrl request.url) (Redaction.maskCredentials e.message)

/-- Where no bodies are reported, there is one report before a request is handed on, and one after
it is answered. -/
theorem logging_none_eq (policy : RedactionPolicy) (inner : Handler σ) (request : WireRequest) :
    logging policy none inner request =
      (World.report (.request request.method (policy.showUrl request.url)
        (policy.showHeaders request.headers))).bind fun _ =>
      (inner request).bind fun answer =>
      (World.report (answerEvent policy request answer)).bind fun _ => .done answer := by
  have hsilent : ∀ event headers body,
      (reportBody policy none event headers body : Flow σ Unit) = .done () := fun _ _ _ => rfl
  simp only [logging, hsilent, bind, Flow.bind]
  refine congrArg (Flow.bind _) (funext fun _ => ?_)
  cases request.body
  all_goals
    refine congrArg (Flow.bind _) (funext fun answer => ?_)
    cases answer <;> rfl

/-- The log shows nothing of what the policy hides. -/
theorem discreet_logging (policy : RedactionPolicy) (hrecords : mirror.Records)
    (hveiled : ∀ ⦃request request'⦄, belong request request' →
      policy.SameRequest request request') :
    (logging policy none : Middleware σ).Discreet mirror belong := by
  intro inner inner' hinner request request' hbelong
  have hsame := hveiled hbelong
  have hevent : answerEvent policy request = answerEvent policy request' := by
    funext answer
    cases answer <;> simp only [answerEvent, hsame.method, hsame.url.showUrl_eq]
  rw [logging_none_eq, logging_none_eq, ← hevent, ← hsame.method, ← hsame.headers.showHeaders_eq,
    ← hsame.url.showUrl_eq]
  refine .bind (Flow.twin_report hrecords _) fun _ _ _ => ?_
  refine .bind (hinner hbelong) ?_
  rintro answer _ rfl
  exact .bind (Flow.twin_report hrecords _) fun _ _ _ => .done rfl

/-- An identifier for a request is drawn alike in both worlds. -/
theorem discreet_requestId (observer : Observer σ) {policy : RedactionPolicy} (header : HeaderName)
    (hveiled : ∀ ⦃request request'⦄, belong request request' →
      policy.SameRequest request request')
    (hinsert : ∀ ⦃request request'⦄ value, belong request request' →
      belong { request with headers := request.headers.insert header value }
        { request' with headers := request'.headers.insert header value }) :
    (requestId header : Middleware σ).Discreet observer.toMirror belong := by
  intro inner inner' hinner request request' hbelong
  unfold requestId
  rw [← (hveiled hbelong).headers.contains_eq header]
  by_cases hthere : request.headers.contains header = true
  · rw [if_pos hthere, if_pos hthere]
    exact hinner hbelong
  · rw [if_neg hthere, if_neg hthere]
    have hdraw : Flow.Twin observer.toMirror Eq World.draw World.draw :=
      .act fun _ _ _ halike => observer.draws halike
    refine .bind hdraw ?_
    rintro high _ rfl
    refine .bind hdraw ?_
    rintro low _ rfl
    exact hinner (hinsert _ hbelong)

end Middleware

/-- Authenticators of one kind that differ in their secret only, both of which are accepted, and
whose secret goes under a name that the standard policy takes for sensitive. -/
inductive Authenticator.Rekeyed {σ : Type} (mirror : Mirror σ) :
    Authenticator σ → Authenticator σ → Prop
  | fixed {credentials credentials' : Credentials} (hrekeyed : credentials.Rekeyed credentials')
      (haccepted : credentials.Accepted) (haccepted' : credentials'.Accepted) :
      Rekeyed mirror credentials.authenticator credentials'.authenticator
  /-- the sources give one token each at the same moment, or fail alike -/
  | source {source source' : TokenSource σ}
      (htwin : Flow.Twin mirror
        (SameAnswer fun token token' =>
          (Credentials.bearer token).Accepted ∧ (Credentials.bearer token').Accepted)
        source source') :
      Rekeyed mirror source.authenticator source'.authenticator

section

variable {σ : Type} {mirror : Mirror σ}

theorem Credentials.Rekeyed.sameAnswer {credentials credentials' : Credentials}
    (hrekeyed : credentials.Rekeyed credentials') (haccepted : credentials.Accepted)
    (haccepted' : credentials'.Accepted) (request : WireRequest) :
    SameAnswer RedactionPolicy.standard.SameRequest (credentials.sign request)
      (credentials'.sign request) := by
  obtain ⟨signed, hsigned⟩ := haccepted request
  obtain ⟨signed', hsigned'⟩ := haccepted' request
  rw [hsigned, hsigned']
  exact .ok (hrekeyed.sameRequest hsigned hsigned')

/-- They sign at the same moment, and what they sign differs in the secret only. -/
theorem Authenticator.Rekeyed.twin {sign sign' : Authenticator σ}
    (h : Authenticator.Rekeyed mirror sign sign') (request : WireRequest) :
    Flow.Twin mirror (SameAnswer RedactionPolicy.standard.SameRequest) (sign request)
      (sign' request) := by
  cases h with
  | fixed hrekeyed haccepted haccepted' =>
      exact .done (hrekeyed.sameAnswer haccepted haccepted' request)
  | source htwin =>
      refine .bind htwin ?_
      rintro _ _ (⟨haccepted, haccepted'⟩ | cause)
      · exact .done ((Credentials.Rekeyed.bearer _ _).sameAnswer haccepted haccepted' request)
      · exact .done (.error _)

end

namespace Client

variable {σ : Type} [World σ] {client : Client σ} {mirror : Mirror σ} {scope : Scope}
  {request : Request} {wire : WireRequest} {sign sign' : Authenticator σ}
  {belong : WireRequest → WireRequest → Prop}

theorem paired_send (hhandler : client.handler.Alike mirror belong client.handler)
    {signed signed' : WireRequest} (hbelong : belong signed signed') (scope : Scope) :
    Flow.Paired mirror Eq (client.send scope signed) (client.send scope signed') := by
  rw [send_eq, send_eq]
  refine .bind ((hhandler hbelong).within scope) ?_
  intro answer answer' hanswer
  rw [sameAnswer_eq_iff.mp hanswer]
  exact .done rfl

/-- An attempt comes to the same, whichever of the two secrets signs it. -/
theorem paired_attempt (hhandler : client.handler.Alike mirror belong client.handler)
    (hsigned : Flow.Twin mirror (SameAnswer belong) (sign wire) (sign' wire)) (scope : Scope) :
    Flow.Paired mirror Eq ((client.signedBy sign).attempt scope wire)
      ((client.signedBy sign').attempt scope wire) := by
  refine .bind (hsigned.within scope) ?_
  rintro _ _ ((hbelong | cause) | reason)
  · exact paired_send hhandler hbelong scope
  · exact .done rfl
  · exact .done rfl

/-- So do all attempts. -/
theorem paired_attemptFrom (observer : Observer σ)
    (hattempt : Flow.Paired observer.toMirror Eq ((client.signedBy sign).attempt scope wire)
      ((client.signedBy sign').attempt scope wire)) (number more : Nat) :
    Flow.Paired observer.toMirror Eq ((client.signedBy sign).attemptFrom scope wire number more)
      ((client.signedBy sign').attemptFrom scope wire number more) := by
  have htry : ∀ number, Flow.Paired observer.toMirror Eq
      ((client.signedBy sign).tryOnce scope wire number)
      ((client.signedBy sign').tryOnce scope wire number) := by
    intro number
    refine .bind (Flow.paired_report observer.records _) fun _ _ _ => ?_
    refine .bind hattempt ?_
    rintro outcome _ rfl
    refine .bind (q := Eq) (.act fun _ _ _ halike => observer.draws halike) ?_
    rintro bits _ rfl
    exact .done rfl
  induction more generalizing number with
  | zero =>
      refine .bind (htry number) ?_
      rintro (response | ⟨failure, decision⟩) _ rfl
      · exact .done rfl
      · exact .done rfl
  | succ more ih =>
      refine .bind (htry number) ?_
      rintro (response | ⟨failure, delay | _⟩) _ rfl
      · exact .done rfl
      · refine .bind (paired_pause observer.records scope wire number delay failure) ?_
        rintro (reason | _) _ rfl
        · exact .done rfl
        · exact ih (number + 1)
      · exact .done rfl

/-- A request comes to the same, whichever of the two secrets signs it. -/
theorem paired_execute (observer : Observer σ)
    (hshares : ∀ limiter ∈ client.limiter, observer.Shares limiter)
    (hhandler : client.handler.Alike observer.toMirror belong client.handler)
    (hsigned : ∀ wire, request.prepare client.settings = .ok wire →
      Flow.Twin observer.toMirror (SameAnswer belong) (sign wire) (sign' wire)) (scope : Scope) :
    Flow.Paired observer.toMirror Eq ((client.signedBy sign).execute scope request)
      ((client.signedBy sign').execute scope request) := by
  cases hprepare : request.prepare client.settings with
  | error failure =>
      have hown : request.prepare (client.signedBy sign).settings = .error failure := hprepare
      have hother : request.prepare (client.signedBy sign').settings = .error failure := hprepare
      simp only [execute, hown, hother]
      exact .done rfl
  | ok wire =>
      have hown : request.prepare (client.signedBy sign).settings = .ok wire := hprepare
      have hother : request.prepare (client.signedBy sign').settings = .ok wire := hprepare
      simp only [execute, hown, hother]
      refine .bind (paired_awaitToken observer.records hshares scope) ?_
      rintro (reason | _) _ rfl
      · exact .done rfl
      · refine .bind (q := Eq) (.act fun _ _ _ halike => ⟨rfl, halike⟩) ?_
        rintro t₀ _ rfl
        exact paired_attemptFrom observer (paired_attempt hhandler (hsigned wire hprepare) _) 1 _

/-- Requests that differ in values that the standard policy hides, and that come up in two runs. -/
def OnlyHidden (met : WireRequest → WireRequest → Prop) (request request' : WireRequest) : Prop :=
  RedactionPolicy.standard.SameRequest request request' ∧ met request request'

/-- The log does not depend on the secret, if the name that it goes under is sensitive.  Of two runs
that differ in the secret only, both accepted, let the transport and whatever else there is in the
middleware make no difference between the requests that come up in them; then both runs come to the
same result at the same moment, and every journal that was the same before is the same after. -/
theorem journal_independent_of_secret (observer : Observer σ)
    {met : WireRequest → WireRequest → Prop}
    (hshares : ∀ limiter ∈ client.limiter, observer.Shares limiter)
    (hchain : ∀ middleware ∈ client.middlewares, middleware = .logging .standard none ∨
      middleware.Discreet observer.toMirror (OnlyHidden met))
    (htransport : client.transport.Alike observer.toMirror (OnlyHidden met) client.transport)
    (hrekeyed : Authenticator.Rekeyed observer.toMirror sign sign')
    (hmet : ∀ wire, request.prepare client.settings = .ok wire →
      Flow.Twin observer.toMirror (SameAnswer met) (sign wire) (sign' wire))
    {t t₁ t₁' : Moment} {s s' s₁ s₁' : σ} {steps steps' : List (Flow.Step σ)}
    {result result' : Except Failure Response} (halike : observer.alike s s')
    (h : Flow.Run observer.others ((client.signedBy sign).execute scope request) t s steps result t₁
      s₁)
    (h' : Flow.Run observer.others' ((client.signedBy sign').execute scope request) t s' steps'
      result' t₁' s₁') :
    result = result' ∧ t₁ = t₁' ∧ observer.journal s₁ = observer.journal s₁' := by
  have hall : ∀ middleware ∈ client.middlewares,
      middleware.Discreet observer.toMirror (OnlyHidden met) := by
    intro middleware hmiddleware
    rcases hchain middleware hmiddleware with rfl | hdiscreet
    · exact Middleware.discreet_logging .standard observer.records fun _ _ hbelong => hbelong.1
    · exact hdiscreet
  have hhandler := Middleware.alike_around hall htransport
  have hsigned : ∀ wire, request.prepare client.settings = .ok wire →
      Flow.Twin observer.toMirror (SameAnswer (OnlyHidden met)) (sign wire) (sign' wire) := by
    intro wire hprepare
    exact ((hrekeyed.twin wire).and (hmet wire hprepare)).imp fun _ _ hboth => hboth.1.and hboth.2
  have hpaired := paired_execute observer hshares hhandler hsigned scope
  obtain ⟨hresult, hmoment, hends⟩ := hpaired t halike h h'
  exact ⟨hresult, hmoment, observer.journal_eq hends⟩

end Client

namespace LogSecrecyWitness

/-- A world that keeps what is reported; all its random bits are zeros. -/
structure Diary where
  events : List Event := []

instance : World Diary where
  record event diary := ⟨diary.events ++ [event]⟩
  random diary := (0, diary)

/-- Two equal worlds in which nobody else acts. -/
def observer : Observer Diary where
  alike := Eq
  others := Eq
  others' := Eq
  keeps := by
    rintro s _ s₁ s₁' rfl rfl rfl
    rfl
  journal := Diary.events
  journal_record _ _ := rfl
  journal_eq _ _ := congrArg Diary.events
  records _ _ event := congrArg (World.record event)
  draws _ _ h := ⟨rfl, h⟩

/-- A client that gives its requests identifiers and reports them; its server is busy for the first
two seconds. -/
def client (settings : Settings) : Client Diary :=
  { settings
    middlewares := [.requestId Middleware.requestIdHeader, .logging .standard none]
    transport := fun _ => .act fun t diary =>
      (.ok (RetryScheduleWitness.answerAt (t / Span.ofSeconds 2)), diary) }

def key (parameter value : String) : Authenticator Diary :=
  (Credentials.apiKeyQuery parameter value).authenticator

theorem accepted (parameter value : String) :
    (Credentials.apiKeyQuery parameter value).Accepted :=
  fun _ => ⟨_, rfl⟩

theorem discreet (settings : Settings) : ∀ middleware ∈ (client settings).middlewares,
    middleware = .logging .standard none ∨
      middleware.Discreet observer.toMirror (Client.OnlyHidden fun _ _ => True) := by
  intro middleware hmiddleware
  simp only [client, List.mem_cons, List.not_mem_nil, or_false] at hmiddleware
  rcases hmiddleware with rfl | rfl
  · refine .inr (Middleware.discreet_requestId observer _ (fun _ _ hbelong => hbelong.1) ?_)
    rintro request request' value ⟨hsame, _⟩
    exact ⟨⟨hsame.method, hsame.url, hsame.headers.insert (.inr rfl), hsame.body⟩, trivial⟩
  · exact .inl rfl

/-- With another key there are two attempts again, and the same seven events. -/
theorem same_events_with_other_key :
    ∃ outcome outcome',
      (((client RetryScheduleWitness.settings).signedBy (key "api_key" "alpha")).execute .unbounded
        TokenAccountWitness.request).run 0 {} 4 = some outcome ∧
      (((client RetryScheduleWitness.settings).signedBy (key "api_key" "beta")).execute .unbounded
        TokenAccountWitness.request).run 0 {} 4 = some outcome' ∧
      outcome.value.isOk = true ∧ Client.attemptsOf outcome.value = 2 ∧
      outcome.world.events.length = 7 ∧ outcome.value = outcome'.value ∧
      outcome.moment = outcome'.moment ∧ outcome.world.events = outcome'.world.events := by
  have hrun : ∀ value ∈ ["alpha", "beta"],
      ((((client RetryScheduleWitness.settings).signedBy (key "api_key" value)).execute .unbounded
        TokenAccountWitness.request).run 0 {} 4).map (fun outcome =>
          (outcome.value.isOk, Client.attemptsOf outcome.value, outcome.world.events.length)) =
        some (true, 2, 7) := by decide +kernel
  obtain ⟨outcome, steps, houtcome, hvalue, hsteps⟩ :=
    Flow.exists_run_of_map (hrun "alpha" (by decide))
  obtain ⟨outcome', steps', houtcome', _, hsteps'⟩ :=
    Flow.exists_run_of_map (hrun "beta" (by decide))
  simp only [Prod.mk.injEq] at hvalue
  obtain ⟨hok, hattempts, hcount⟩ := hvalue
  have hname : RedactionPolicy.standard.isSensitive "api_key" = true := by decide +kernel
  have hshares : ∀ limiter ∈ (client RetryScheduleWitness.settings).limiter,
      observer.Shares limiter := by
    intro limiter hlimiter
    cases hlimiter
  obtain ⟨hresult, hmoment, hevents⟩ := Client.journal_independent_of_secret observer
    hshares (discreet _)
    (fun _ _ _ => .act fun _ _ _ halike => ⟨rfl, halike⟩)
    (.fixed (.apiKeyQuery "alpha" "beta" hname) (accepted _ _) (accepted _ _))
    (fun _ _ => .done (.ok trivial)) rfl hsteps hsteps'
  exact ⟨outcome, outcome', houtcome, houtcome', hok, hattempts, hcount, hresult, hmoment, hevents⟩

def sent (parameter value : String) : WireRequest :=
  { RetryScheduleWitness.wire with
    url := Credentials.setParameter RetryScheduleWitness.wire.url parameter value
    headers := RetryScheduleWitness.wire.headers.insert Middleware.requestIdHeader
      ⟨Octets.ofText (Uuid.ofRandom 0 0), false⟩ }

theorem prepare_request (sign : Authenticator Diary) :
    TokenAccountWitness.request.prepare
      ((client TokenAccountWitness.settings).signedBy sign).settings =
      .ok RetryScheduleWitness.wire := by
  rfl

/-- Its second event reports the request as it is sent. -/
theorem second_event (parameter value : String) :
    ((((client TokenAccountWitness.settings).signedBy (key parameter value)).execute .unbounded
      TokenAccountWitness.request).run 0 {} 4).map (fun outcome => outcome.world.events[1]?) =
      some (some (.request RetryScheduleWitness.wire.method
        (RedactionPolicy.standard.showUrl (sent parameter value).url)
        (RedactionPolicy.standard.showHeaders (sent parameter value).headers))) := by
  have hbusy : Status.isFailure 503 = true := rfl
  have hfresh : RetryScheduleWitness.wire.headers.contains Middleware.requestIdHeader = false := rfl
  simp only [Client.execute, prepare_request, Client.awaitToken]
  simp [Client.signedBy, client, Client.attemptFrom, Client.tryOnce, Client.attempt, Client.send,
    Client.handler, Client.attempts, Client.scopeOf, Client.judge, hbusy, Middleware.around,
    Middleware.requestId, hfresh, Middleware.logging_none_eq, key, Credentials.authenticator,
    Credentials.sign, sent, TokenAccountWitness.settings, TokenAccountWitness.request,
    RetryScheduleWitness.answerAt, Scope.ended?, Scope.reached, Scope.unbounded, Flow.run,
    Flow.advance, Flow.within, Flow.guarded, Flow.guardPoll, Flow.bind, bind, Flow.now, Flow.act,
    Flow.update, World.report, World.draw, World.record, World.random]

/-- A client whose events tell a key from another one. -/
def Tells (asked : Client Diary) (parameter : String) : Prop :=
  (Credentials.apiKeyQuery parameter "alpha").Accepted ∧
    (Credentials.apiKeyQuery parameter "beta").Accepted ∧
    ∃ outcome outcome',
      ((asked.signedBy (key parameter "alpha")).execute .unbounded
        TokenAccountWitness.request).run 0 {} 4 = some outcome ∧
      ((asked.signedBy (key parameter "beta")).execute .unbounded
        TokenAccountWitness.request).run 0 {} 4 = some outcome' ∧
      outcome.world.events ≠ outcome'.world.events

theorem tells_plain_key (hplain : RedactionPolicy.standard.isSensitive "sig" = false) :
    Tells (client TokenAccountWitness.settings) "sig" := by
  obtain ⟨outcome, houtcome, hevent⟩ := Option.map_eq_some_iff.mp (second_event "sig" "alpha")
  obtain ⟨outcome', houtcome', hevent'⟩ := Option.map_eq_some_iff.mp (second_event "sig" "beta")
  refine ⟨accepted _ _, accepted _ _, outcome, outcome', houtcome, houtcome', ?_⟩
  intro hsame
  rw [hsame, hevent', Option.some.injEq, Event.request.injEq] at hevent
  have hshown : ∀ value, RedactionPolicy.standard.showUrl (sent "sig" value).url =
      (sent "sig" value).url.toText := by
    intro value
    have hpairs : (sent "sig" value).url.pairs = [("sig", value)] :=
      Credentials.pairs_setParameter RetryScheduleWitness.wire.url "sig" value
    simp [RedactionPolicy.showUrl, hpairs, hplain]
  have htexts : (sent "sig" "beta").url.toText ≠ (sent "sig" "alpha").url.toText := by
    decide +kernel
  exact htexts ((hshown "beta").symm.trans (hevent.2.1.trans (hshown "alpha")))

/-- A client with a middleware that answers by itself whoever has the right key. -/
def doorkeeper : Client Diary :=
  { client RetryScheduleWitness.settings with
    middlewares := [.logging .standard none, fun inner request =>
      if request.url.pairs = [("api_key", "alpha")] then .done (.ok { status := 200 })
      else inner request] }

/-- With the right key there is one attempt, with another one there are two. -/
theorem tells_right_key : Tells doorkeeper "api_key" := by
  have hright : (((doorkeeper.signedBy (key "api_key" "alpha")).execute .unbounded
      TokenAccountWitness.request).run 0 {} 4).map (fun outcome => outcome.world.events.length) =
      some 3 := by decide +kernel
  have hwrong : (((doorkeeper.signedBy (key "api_key" "beta")).execute .unbounded
      TokenAccountWitness.request).run 0 {} 4).map (fun outcome => outcome.world.events.length) =
      some 7 := by decide +kernel
  obtain ⟨outcome, houtcome, hlength⟩ := Option.map_eq_some_iff.mp hright
  obtain ⟨outcome', houtcome', hlength'⟩ := Option.map_eq_some_iff.mp hwrong
  refine ⟨accepted _ _, accepted _ _, outcome, outcome', houtcome, houtcome', ?_⟩
  intro hsame
  rw [hsame, hlength'] at hlength
  cases hlength

/-- A key under a name that is not sensitive is seen in the log, and a key under a sensitive one is
seen by the middleware. -/
theorem events_differ_by_key :
    (RedactionPolicy.standard.isSensitive "sig" = false ∧
        Tells (client TokenAccountWitness.settings) "sig") ∧
      RedactionPolicy.standard.isSensitive "api_key" = true ∧ Tells doorkeeper "api_key" := by
  have hplain : RedactionPolicy.standard.isSensitive "sig" = false := by decide +kernel
  have hname : RedactionPolicy.standard.isSensitive "api_key" = true := by decide +kernel
  exact ⟨⟨hplain, tells_plain_key hplain⟩, hname, tells_right_key⟩

end LogSecrecyWitness
end Courier
