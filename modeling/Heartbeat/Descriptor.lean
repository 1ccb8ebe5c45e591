import Heartbeat.Json.Record
import Heartbeat.Json.Print

/-!
# Heartbeat.Descriptor

The record by which an agent makes itself known to the collector.

* `Descriptor.decode` — from the bytes of a JSON text.
* `Descriptor.encode` — to compact JSON; an empty list of ports is left out.
-/

namespace Heartbeat

structure Descriptor where
  agentId : String
  applicationName : String
  hostname : String
  ip : String
  pid : UInt32
  agentVersion : String
  /-- Milliseconds since the epoch. -/
  startTime : UInt64
  ports : List UInt16 := []
  container : Bool := false
  deriving DecidableEq, Repr

namespace Descriptor

def schema : Json.Schema where
  name := "Descriptor"
  fields := [
    ⟨"agent_id", .text, none⟩,
    ⟨"application_name", .text, none⟩,
    ⟨"hostname", .text, none⟩,
    ⟨"ip", .text, none⟩,
    ⟨"pid", .word32, none⟩,
    ⟨"agent_version", .text, none⟩,
    ⟨"start_time_ms", .word64, none⟩,
    ⟨"ports", .words16, some []⟩,
    ⟨"container", .flag, some false⟩]

def ofValues : Json.Values schema.fields → Descriptor
  | (agentId, applicationName, hostname, ip, pid, agentVersion, startTime, ports, container, ()) =>
    ⟨agentId, applicationName, hostname, ip, pid, agentVersion, startTime, ports, container⟩

def decode (s : Bytes) : Except Json.Fault Descriptor := (schema.read s).map ofValues

def encode (d : Descriptor) : String :=
  let ports := Json.printList (d.ports.map fun p => Json.printNat p.toNat)
  String.ofList <| Json.printObject <|
    [("agent_id", Json.printText d.agentId),
      ("application_name", Json.printText d.applicationName),
      ("hostname", Json.printText d.hostname),
      ("ip", Json.printText d.ip),
      ("pid", Json.printNat d.pid.toNat),
      ("agent_version", Json.printText d.agentVersion),
      ("start_time_ms", Json.printNat d.startTime.toNat)] ++
    (if d.ports.isEmpty then [] else [("ports", ports)]) ++
    [("container", Json.printFlag d.container)]

end Descriptor
end Heartbeat
