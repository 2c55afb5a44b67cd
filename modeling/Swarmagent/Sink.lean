import Swarmagent.Kubernetes.Client
import Swarmagent.Kubernetes.Watch
import Swarmagent.Payload

/-!
# The sink

The model of `sink.rs`: the two requests that are made of Swarmbot, one for its health and one to
post an event, and what the reply to each comes to.

The token is sent with every event, if there is one, and not with the question for the health.

## What is left open

* `toVec` is `serde_json::to_vec`.
* Of an error only the context is kept that the agent adds to it.
-/

namespace Swarmagent

open Json Kubernetes

namespace Sink

inductive Method where
  | get
  | post
deriving DecidableEq

/-- A request to Swarmbot. -/
structure Request where
  method : Method
  url : String
  headers : List (String × String)
  body : Bytes

/-- `JSON_UTF8`. -/
def jsonUtf8 : String := "application/json; charset=utf-8"

section Sink

variable {ε : Type} (toVec : Value → Except ε Bytes) (cfg : Config)

/-- What a request is answered with, if it is. -/
abbrev Reply (ε : Type) := Except ε (Response ε)

/-- Swarmbot has answered, and has accepted what it was asked. -/
def Reply.isSuccess : Reply ε → Bool
  | .ok r => r.isSuccess
  | .error _ => false

/-- The request of `wait_for_health`. -/
def healthRequest : Request where
  method := .get
  url := cfg.healthCheckEndpoint
  headers := []
  body := []

/-- The headers of an event. -/
def eventHeaders : List (String × String) :=
  ("content-type", jsonUtf8) :: match cfg.sharedSecret with
    | some token => [("X-Agent-Token", token)]
    | none => []

/-- The request of `post_event`. -/
def eventRequest (ty : String) (message : Value) : Except String Request := do
  let payload ← context "serialize outbound event" (toVec (envelope ty message))
  return { method := .post, url := cfg.eventEndpoint, headers := eventHeaders cfg, body := payload }

/-- `post_event`, where a request is answered as given. -/
def postEvent (send : Request → Reply ε) (ty : String) (message : Value) : Except String Unit := do
  let req ← eventRequest toVec cfg ty message
  let resp ← context "POST event to Swarmbot" (send req)
  if resp.isSuccess then
    return ()
  else
    .error ("Swarmbot returned " ++ resp.statusText)

/-- An event is posted if a request is made and accepted. -/
theorem postEvent_eq_ok_iff {send : Request → Reply ε} {ty : String} {message : Value} :
    postEvent toVec cfg send ty message = .ok () ↔
      ∃ req, eventRequest toVec cfg ty message = .ok req ∧ (send req).isSuccess = true := by
  rw [postEvent, bind_eq_ok_iff]
  refine exists_congr fun req ↦ and_congr_right fun _ ↦ ?_
  cases hsend : send req with
  | error e => exact iff_of_false nofun nofun
  | ok resp =>
      show (if resp.isSuccess = true then Except.ok () else .error _) = .ok () ↔
        resp.isSuccess = true
      split
      · next h => exact iff_of_true rfl h
      · next h => exact iff_of_false nofun h

variable {cfg} in
/-- What the request of an event is. -/
theorem eventRequest_eq_ok {ty : String} {message : Value} {req : Request}
    (h : eventRequest toVec cfg ty message = .ok req) :
    req.method = .post ∧ req.url = cfg.eventEndpoint ∧ req.headers = eventHeaders cfg ∧
      toVec (envelope ty message) = .ok req.body := by
  rw [eventRequest] at h
  obtain ⟨payload, hpayload, h⟩ := bind_eq_ok_iff.mp h
  cases h
  refine ⟨rfl, rfl, rfl, ?_⟩
  cases hvec : toVec (envelope ty message) with
  | error e =>
      rw [hvec] at hpayload
      cases hpayload
  | ok bytes =>
      rw [hvec] at hpayload
      exact congrArg Except.ok (Except.ok.inj hpayload)

end Sink

end Sink

end Swarmagent
