import Courier.Command.Run
import Courier.Proofs.Preparation
/-!
Content types.  The content type of a request is settled after its headers, and put on top of them.
So a content type among the headers of a request is sent only if there is no body: a body of no type
of its own goes with the default of the client, whatever the headers of the request say.
-/
namespace Courier

theorem mapError_eq_ok_iff {ε ε' α : Type} {f : ε → ε'} {x : Except ε α} {a : α} :
    x.mapError f = .ok a ↔ x = .ok a := by
  cases x with
  | error e => exact ⟨nofun, nofun⟩
  | ok a' =>
      change (.ok a' : Except ε' α) = .ok a ↔ _
      rw [Except.ok.injEq, Except.ok.injEq]

namespace Request

variable {request : Request} {draft : Draft} {settings : Settings} {wire : WireRequest}

/-- The content type that is sent if the request asks for one in its headers only. -/
theorem contentType_of_prepare {value : HeaderValue} (hcheck : draft.check = .ok settings)
    (hprepare : request.prepare settings = .ok wire)
    (hcall : Headers.lastOf request.headers .contentType = some value) :
    wire.headers.getAll .contentType = [(request.topType? settings.contentType).getD value] := by
  have hsettings := (Draft.holds_of_check hcheck).2
  rw [getAll_contentType_of_prepare hsettings hprepare, value?, hcall]
  cases request.topType? settings.contentType with
  | none => rfl
  | some type => rfl

/-- The content type of a body that has none of its own. -/
theorem contentType_of_plain_body {body : Body} (hcheck : draft.check = .ok settings)
    (hprepare : request.prepare settings = .ok wire) (hoverride : request.contentType = none)
    (hbody : request.body = some body) (hplain : body.ownType? = none) :
    wire.headers.getAll .contentType = [settings.contentType] := by
  have hsettings := (Draft.holds_of_check hcheck).2
  rw [getAll_contentType_of_prepare hsettings hprepare, topType?, hoverride, hbody]
  simp [hplain]

end Request

namespace Command

/-- The words of a command ask for a content type in the headers only. -/
theorem Options.body_of_request {options : Options} {request : Request}
    (h : options.request = .ok request) :
    request.contentType = none ∧ options.body = .ok request.body := by
  unfold Options.request at h
  cases hmethod : Method.parse? (String.ofList (options.method.toList.map Char.toUpper)) with
  | none => simp [hmethod, throw, throwThe, MonadExceptOf.throw] at h
  | some method =>
      simp only [hmethod] at h
      obtain ⟨headers, _, h⟩ := bind_eq_ok_iff.mp h
      obtain ⟨query, _, h⟩ := bind_eq_ok_iff.mp h
      obtain ⟨body, hbody, h⟩ := bind_eq_ok_iff.mp h
      simp only [pure, Except.pure, Except.ok.injEq] at h
      rw [← h]
      exact ⟨rfl, mapError_eq_ok_iff.mp hbody⟩

/-- Data that is no document is sent as it is. -/
theorem Options.text_of_request {options : Options} {request : Request} {data : String}
    (h : options.request = .ok request) (hdata : options.data = some data)
    (hjson : options.json = false) : request.body = some (.text data) := by
  simpa [Options.body, hdata, hjson, eq_comm] using (body_of_request h).2

/-- The settings of a command were checked, and its request is the one that its words ask for. -/
theorem parts_of_plan {surroundings : Surroundings} {options : Options} {settings : Settings}
    {request : Request} (h : plan surroundings options = .ok (settings, request)) :
    (∃ draft : Draft, draft.check = .ok settings) ∧ options.request = .ok request := by
  obtain ⟨config, _, h⟩ := bind_eq_ok_iff.mp h
  obtain ⟨overrides, _, h⟩ := bind_eq_ok_iff.mp h
  obtain ⟨draft, _, h⟩ := bind_eq_ok_iff.mp h
  obtain ⟨settings', hsettings, h⟩ := bind_eq_ok_iff.mp h
  obtain ⟨request', hrequest, h⟩ := bind_eq_ok_iff.mp h
  simp only [pure, Except.pure, Except.ok.injEq, Prod.mk.injEq] at h
  obtain ⟨rfl, rfl⟩ := h
  exact ⟨⟨draft, mapError_eq_ok_iff.mp hsettings⟩, hrequest⟩

end Command

/-- The content type among the headers of a request is sent with a body of no type of its own if it is
the default of the client anyway, and only then.  So it is for the data of a command, too. -/
theorem content_type_of_call_sent_iff {settings : Settings} {request : Request} {wire : WireRequest}
    {value : HeaderValue} (hprepare : request.prepare settings = .ok wire)
    (hcall : Headers.lastOf request.headers .contentType = some value) :
    (∀ (draft : Draft) (body : Body), draft.check = .ok settings → request.contentType = none →
      request.body = some body → body.ownType? = none →
        (wire.headers.getAll .contentType = [value] ↔ settings.contentType = value)) ∧
    (∀ (surroundings : Command.Surroundings) (options : Command.Options),
      Command.plan surroundings options = .ok (settings, request) →
      options.data ≠ none → options.json = false →
        (wire.headers.getAll .contentType = [value] ↔ settings.contentType = value)) ∧
    ∀ draft : Draft, draft.check = .ok settings → request.contentType = none →
      request.body = none → wire.headers.getAll .contentType = [value] := by
  refine ⟨?_, ?_, ?_⟩
  · intro draft body hcheck hoverride hbody hplain
    rw [Request.contentType_of_plain_body hcheck hprepare hoverride hbody hplain,
      List.singleton_inj]
  · intro surroundings options hplan hdata hjson
    obtain ⟨⟨draft, hcheck⟩, hrequest⟩ := Command.parts_of_plan hplan
    obtain ⟨data, hdata⟩ := Option.ne_none_iff_exists'.mp hdata
    have hoverride := (Command.Options.body_of_request hrequest).1
    have htext := Command.Options.text_of_request hrequest hdata hjson
    rw [Request.contentType_of_plain_body hcheck hprepare hoverride htext rfl, List.singleton_inj]
  · intro draft hcheck hoverride hbody
    rw [Request.contentType_of_prepare hcheck hprepare hcall, Request.topType?, hoverride, hbody]
    rfl

namespace ContentTypeWitness

def surroundings : Command.Surroundings := { environment := {}, look := fun _ => none }

/-- The words of a command that sends plain text and says so. -/
def options : Command.Options :=
  { path := "/r", baseUrl := some "https://mock.local", method := "POST"
    headers := ["Content-Type: text/plain"], data := some "hello" }

def plain : HeaderValue := ⟨Octets.ofText "text/plain", false⟩

def document : HeaderValue := ⟨Octets.ofText "application/json", false⟩

/-- What the command asks for and what it sends. -/
theorem exists_plan :
    ∃ settings request wire, Command.plan surroundings options = .ok (settings, request) ∧
      request.prepare settings = .ok wire ∧
      Headers.lastOf request.headers .contentType = some plain ∧
      wire.headers.getAll .contentType = [document] := by
  have hrun : ((Command.plan surroundings options).toOption.map fun planned =>
      (Headers.lastOf planned.2.headers .contentType,
        (planned.2.prepare planned.1).toOption.map fun wire => wire.headers.getAll .contentType)) =
      some (some plain, some [document]) := by decide +kernel
  cases hplan : Command.plan surroundings options with
  | error e => simp [hplan, Except.toOption] at hrun
  | ok planned =>
      obtain ⟨settings, request⟩ := planned
      cases hprepare : request.prepare settings with
      | error failure => simp [hplan, hprepare, Except.toOption] at hrun
      | ok wire =>
          simp only [hplan, hprepare, Except.toOption, Option.map_some, Option.some.injEq,
            Prod.mk.injEq] at hrun
          exact ⟨settings, request, wire, rfl, hprepare, hrun.1, hrun.2⟩

/-- The command asks for another content type than the default, so what it asks for is not sent. -/
theorem plain_text_sent_as_document :
    ∃ settings request wire, Command.plan surroundings options = .ok (settings, request) ∧
      request.prepare settings = .ok wire ∧
      Headers.lastOf request.headers .contentType = some plain ∧
      settings.contentType ≠ plain ∧
      wire.headers.getAll .contentType ≠ [plain] := by
  obtain ⟨settings, request, wire, hplan, hprepare, hcall, htype⟩ := exists_plan
  obtain ⟨⟨draft, hcheck⟩, hrequest⟩ := Command.parts_of_plan hplan
  have hoverride := (Command.Options.body_of_request hrequest).1
  have hbody : request.body = some (.text "hello") :=
    Command.Options.text_of_request hrequest rfl rfl
  obtain ⟨hrequests, hcommands, _⟩ := content_type_of_call_sent_iff hprepare hcall
  have hsent := hrequests draft (.text "hello") hcheck hoverride hbody rfl
  have hother : settings.contentType ≠ plain := by
    rw [Ne, ← not_congr hsent, htype]
    decide
  have hlost := (not_congr (hcommands surroundings options hplan (by decide) rfl)).mpr hother
  exact ⟨settings, request, wire, hplan, hprepare, hcall, hother, hlost⟩

/-- It is not so that a content type among the headers of a request is always sent with a body of no
type of its own. -/
theorem content_type_of_call_not_sent :
    ¬ ∀ (draft : Draft) (settings : Settings) (request : Request) (wire : WireRequest)
        (value : HeaderValue) (body : Body),
      draft.check = .ok settings → request.prepare settings = .ok wire →
      request.contentType = none → request.body = some body → body.ownType? = none →
      Headers.lastOf request.headers .contentType = some value →
        wire.headers.getAll .contentType = [value] := by
  intro h
  obtain ⟨settings, request, wire, hplan, hprepare, hcall, htype⟩ := exists_plan
  obtain ⟨⟨draft, hcheck⟩, hrequest⟩ := Command.parts_of_plan hplan
  have hoverride := (Command.Options.body_of_request hrequest).1
  have hbody : request.body = some (.text "hello") :=
    Command.Options.text_of_request hrequest rfl rfl
  have hsent := h draft settings request wire plain (.text "hello") hcheck hprepare hoverride
    hbody rfl hcall
  rw [htype] at hsent
  exact absurd hsent (by decide)

end ContentTypeWitness
end Courier
