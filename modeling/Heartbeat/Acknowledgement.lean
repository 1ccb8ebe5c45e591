import Heartbeat.Outcome
import Heartbeat.Json.Record
import Heartbeat.Json.Print

/-!
# Heartbeat.Acknowledgement

The collector's answer to a descriptor: accepted or not, perhaps with a message. It alone decides
whether a descriptor was delivered.

* `Acknowledgement.decode` — from the bytes of a JSON text.
* `Acknowledgement.encode` — to compact JSON.
* `Outcome.ofBody`         — what the body of an answer says about a delivery.
-/

namespace Heartbeat

structure Acknowledgement where
  success : Bool
  message : Option String
  deriving DecidableEq, Repr

namespace Acknowledgement

def schema : Json.Schema where
  name := "ReportAck"
  fields := [⟨"success", .flag, none⟩, ⟨"message", .note, some none⟩]

def ofValues : Json.Values schema.fields → Acknowledgement
  | (success, message, ()) => ⟨success, message⟩

def decode (body : Bytes) : Except Json.Fault Acknowledgement :=
  (schema.read body).map ofValues

def encode (a : Acknowledgement) : String :=
  String.ofList <| Json.printObject <|
    ("success", Json.printFlag a.success) ::
      (a.message.map fun m => ("message", Json.printText m)).toList

def outcome (a : Acknowledgement) : Outcome :=
  if a.success then .success
  else .fail .application (a.message.getD "collector rejected descriptor")

end Acknowledgement

def Outcome.ofBody (body : Bytes) : Outcome :=
  if body.isEmpty then .fail .malformedResponse "empty response body"
  else
    match Acknowledgement.decode body with
    | .ok a => a.outcome
    | .error f => .fail .malformedResponse (f.message body)

end Heartbeat
