import Courier.Proofs.Preparation
import Courier.Proofs.RetrySchedule
/-!
Replay.  A request is prepared once.  All of its attempts start from the wire request that it was
prepared as, whatever the authenticator and the middleware made of it in the attempts before.
-/
namespace Courier

namespace Client

variable {σ : Type} [World σ] {client : Client σ} {request : Request} {wire : WireRequest}

end Client

namespace ReplayWitness

open Rehearsal

/-- A draft that names its tenant twice. -/
def draft : Draft :=
  { baseUrl := some "https://example.com"
    headers := [("X-Tenant", "acme"), ("x-tenant", "other")]
    retry := some .standard }

def settings : Settings := draft.check.toOption.getD TokenAccountWitness.settings

/-- A client of a busy server that signs every request in the place of what was in it. -/
def client : Client Stage :=
  { settings
    authenticator := some fun wire =>
      .done (.ok { wire with headers := ⟨[(.authorization, ⟨Octets.ofText "secret", true⟩)]⟩ })
    transport := fun _ => .act fun _ stage =>
      (.ok (RetryScheduleWitness.answerAt stage.drawn), stage) }

/-- A request for an action that asks for a type of answers. -/
def request : Request :=
  { method := .post, path := "/", body := some (.soap (.unitRecord "Price") .v11 (some "urn:act"))
    headers := [("ACCEPT", "text/xml")] }

end ReplayWitness
end Courier
