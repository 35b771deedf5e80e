import Courier.Proofs.AttemptHistory
import Courier.Proofs.RetryAfter
/-!
Rules of retries, said by the fields of results and by numbers of nanoseconds.  The outcome of the last
attempt says what the request comes to; the outcome of any other attempt says how long the client waits
before it tries again.
-/
namespace Courier

/-- The response is this answer to this URL, received at this attempt. -/
structure Response.Carries (response : Response) (answer : WireResponse) (url : Url) (number : Nat) :
    Prop where
  status : response.status = answer.status
  headers : response.headers = answer.headers
  body : response.body = answer.body
  url : response.url = url
  attempts : response.attempts = number

/-- The failure is one of this request at this attempt. -/
structure Failure.Names (failure : Failure) (wire : WireRequest) (number : Nat) : Prop where
  method : failure.method = wire.method
  url : failure.url = wire.url.toText
  attempts : failure.attempts = number

/-- The kind under which it is reported that no answer came back. -/
inductive TransportFailure.Counts : TransportFailure → FailureKind → Prop
  | late : Counts (.interrupted .deadlineExceeded) .timeout
  | cancelled : Counts (.interrupted .cancelled) .network
  | unreachable (url : String) (causes : List String) : Counts (.unreachable url causes) .network
  | connection (detail : String) : Counts (.connection detail) .network
  | refused (url : String) : Counts (.refused url) .unknown
  | endless (url : String) : Counts (.endless url) .unknown
  | middleware (cause : Wrapped) : Counts (.middleware cause) .unknown
  | other (text : String) : Counts (.other text) .unknown

theorem TransportFailure.counts_ofTransport (cause : TransportFailure) :
    cause.Counts (.ofTransport cause) := by
  cases cause with
  | interrupted reason =>
      cases reason with
      | cancelled => exact .cancelled
      | deadlineExceeded => exact .late
  | refused url => exact .refused url
  | unreachable url causes => exact .unreachable url causes
  | endless url => exact .endless url
  | connection detail => exact .connection detail
  | middleware cause => exact .middleware cause
  | other text => exact .other text

namespace Client

/-- What a request comes to whose last attempt, the one of this number, has this outcome. -/
inductive Settles (wire : WireRequest) (number : Nat) :
    Outcome → Except Failure Response → Prop
  /-- the answer is no failure -/
  | success {answer : WireResponse} {response : Response} (hstatus : answer.status < 400)
      (hcarries : response.Carries answer wire.url number) :
      Settles wire number (.answered answer) (.ok response)
  /-- the answer is a failure, and kept -/
  | http {answer : WireResponse} {response : Response} {failure : Failure}
      (hstatus : 400 ≤ answer.status) (hcarries : response.Carries answer wire.url number)
      (hnames : failure.Names wire number) (hkind : failure.kind = .http)
      (hresponse : failure.response = some response) (hcause : failure.cause = none) :
      Settles wire number (.answered answer) (.error failure)
  /-- the credentials could not be had -/
  | unsigned {cause : AuthError} {failure : Failure} (hnames : failure.Names wire number)
      (hkind : failure.kind = .unknown) (hresponse : failure.response = none)
      (hcause : failure.cause = some (.signing cause)) :
      Settles wire number (.unsigned cause) (.error failure)
  /-- no answer came back -/
  | failed {cause : TransportFailure} {failure : Failure} (hnames : failure.Names wire number)
      (hkind : cause.Counts failure.kind) (hresponse : failure.response = none)
      (hcause : failure.cause = some (.transport cause)) :
      Settles wire number (.failed cause) (.error failure)

variable {wire : WireRequest} {number : Nat} {outcome : Outcome} {result : Except Failure Response}

theorem settles_resultOf (wire : WireRequest) (number : Nat) (outcome : Outcome) :
    Settles wire number outcome (resultOf wire number outcome) := by
  cases outcome with
  | answered answer =>
      by_cases hstatus : answer.status < 400
      · rw [resultOf, if_pos hstatus]
        exact .success hstatus ⟨rfl, rfl, rfl, rfl, rfl⟩
      · rw [resultOf, if_neg hstatus]
        exact .http (Nat.le_of_not_lt hstatus) ⟨rfl, rfl, rfl, rfl, rfl⟩ ⟨rfl, rfl, rfl⟩ rfl rfl rfl
  | unsigned cause => exact .unsigned ⟨rfl, rfl, rfl⟩ rfl rfl rfl
  | failed cause => exact .failed ⟨rfl, rfl, rfl⟩ cause.counts_ofTransport rfl rfl

end Client

namespace Quantity

end Quantity

/-- The first field of a name has this value. -/
def Headers.FirstIs (headers : Headers) (name : HeaderName) (value : HeaderValue) : Prop :=
  ∃ before after, headers.fields = before ++ (name, value) :: after ∧
    ∀ field ∈ before, field.1 ≠ name

namespace RetryPolicy

/-- An answer with these headers asks for a wait of so many seconds: its first value of `Retry-After`
denotes them, and they are at least one and fit into 63 bits. -/
def Asks (headers : Headers) (seconds : Nat) : Prop :=
  ∃ value text, headers.FirstIs ⟨"retry-after"⟩ value ∧ value.octets = .ofText text ∧
    Decimal.Denotes text seconds ∧ 1 ≤ seconds ∧ seconds ≤ Nat.pow 2 63 - 1

variable {headers : Headers} {d : Span}

/-- The delay after an attempt before it is spread: the first delay times the factor for each attempt
but the first, in whole nanoseconds, and the bound where that is more. -/
inductive Grows (policy : RetryPolicy Float) (number : Nat) : Span → Prop
  | zero (hinitial : policy.initialDelay = 0) : Grows policy number 0
  | below {curve : Float} (hinitial : policy.initialDelay ≠ 0)
      (hcurve : curve = Decimal.floatOfNat policy.initialDelay *
        Float.pow policy.multiplier (Decimal.floatOfNat (number - 1)))
      (hbound : curve ≤ Decimal.floatOfNat policy.maxDelay) :
      Grows policy number curve.toUInt64.toNat
  | bounded {curve : Float} (hinitial : policy.initialDelay ≠ 0)
      (hcurve : curve = Decimal.floatOfNat policy.initialDelay *
        Float.pow policy.multiplier (Decimal.floatOfNat (number - 1)))
      (hbound : ¬ curve ≤ Decimal.floatOfNat policy.maxDelay) :
      Grows policy number (Decimal.floatOfNat policy.maxDelay).toUInt64.toNat

/-- The part by which a delay is spread: the jitter between 0 and 1, and none of it if it is no
number. -/
inductive Part (jitter : Float) : Float → Prop
  | none (h : jitter.isFinite = false ∨ ¬ 0 ≤ jitter) : Part jitter 0
  | whole (hfinite : jitter.isFinite = true) (hone : ¬ jitter ≤ 1) : Part jitter 1
  | stored (hfinite : jitter.isFinite = true) (hzero : 0 ≤ jitter) (hone : jitter ≤ 1) :
      Part jitter jitter

/-- A delay is spread evenly to both sides, by a part of itself. -/
inductive Spreads (base : Span) (part draw : Float) : Span → Prop
  | kept (h : part ≤ 0 ∨ base = 0) : Spreads base part draw base
  | drawn {nanos range : Float} (hpart : ¬ part ≤ 0) (hbase : base ≠ 0)
      (hnanos : nanos = Decimal.floatOfNat base) (hrange : range = nanos * part) :
      Spreads base part draw (nanos - range + draw * 2 * range).toUInt64.toNat

/-- The wait that a policy sets after an attempt. -/
def Backs (policy : RetryPolicy Float) (number : Nat) (draw : Float) (d : Span) : Prop :=
  ∃ base part, policy.Grows number base ∧ Part policy.jitter part ∧ Spreads base part draw d

/-- The wait after an attempt that is not the last one: as many seconds as the answer asks for, however
many that are, and otherwise what the policy sets. -/
inductive Delays (policy : RetryPolicy Float) (number : Nat) (draw : Float) :
    Outcome → Span → Prop
  | asked {answer : WireResponse} {seconds : Nat} (hasks : Asks answer.headers seconds) :
      Delays policy number draw (.answered answer) (seconds * 1000000000)
  | unasked {answer : WireResponse} {d : Span} (hasks : ∀ seconds, ¬ Asks answer.headers seconds)
      (hbacks : policy.Backs number draw d) : Delays policy number draw (.answered answer) d
  | unanswered {cause : TransportFailure} {d : Span} (hbacks : policy.Backs number draw d) :
      Delays policy number draw (.failed cause) d

variable (policy : RetryPolicy Float) (number : Nat) (draw : Float)

end RetryPolicy

namespace Client

variable {σ : Type} [World σ] {client : Client σ}

end Client
end Courier
