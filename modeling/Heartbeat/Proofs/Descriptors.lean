import Heartbeat.Descriptor
import Heartbeat.Proofs.Json.Print

/-!
# Heartbeat.Proofs.Descriptors

A descriptor survives its way through JSON (`json_round_trip`), and so does every byte string that
holds one, from its first printing on.
-/

namespace Heartbeat.Descriptor

open Json

/-- The values of the fields, in their order. -/
def values (d : Descriptor) : Values schema.fields :=
  (d.agentId, d.applicationName, d.hostname, d.ip, d.pid, d.agentVersion, d.startTime, d.ports,
    d.container, ())

/-- Every field is printed, but for a list of no ports. -/
theorem encode_printed (d : Descriptor) :
    ∃ ms, d.encode = String.ofList (printObject ms) ∧ Printed schema.fields d.values ms ∧
      (valuesOf "ports" (asBytes ms) = [] ↔ d.ports = []) := by
  have front {ms : List (String × List Char)}
      (h : Printed (schema.fields.drop 7) (d.ports, d.container, ()) ms) :
      Printed schema.fields d.values
        (("agent_id", printText d.agentId) ::
          ("application_name", printText d.applicationName) ::
          ("hostname", printText d.hostname) :: ("ip", printText d.ip) ::
          ("pid", printNat d.pid.toNat) :: ("agent_version", printText d.agentVersion) ::
          ("start_time_ms", printNat d.startTime.toNat) :: ms) :=
    .member (spelled_text _) <| .member (spelled_text _) <| .member (spelled_text _) <|
      .member (spelled_text _) <| .member (spelled_word d.pid.toNat_lt_size) <|
      .member (spelled_text _) <| .member (spelled_word d.startTime.toNat_lt_size) h
  have last := Printed.member (f := ⟨"container", .flag, some false⟩) (spelled_flag d.container)
    Printed.nil
  refine ⟨_, rfl, ?_⟩
  by_cases hp : d.ports.isEmpty = true
  · rw [if_pos hp]
    have none : d.ports = [] := List.isEmpty_iff.mp hp
    refine ⟨front (.leftOut (by rw [none]) last), ?_⟩
    simp [asBytes, valuesOf, none]
  · rw [if_neg hp]
    have some : d.ports ≠ [] := fun h => hp (List.isEmpty_iff.mpr h)
    refine ⟨front (.member (spelled_words d.ports) last), ?_⟩
    simp [asBytes, valuesOf, some]

theorem decode_encode (d : Descriptor) : decode (utf8 d.encode) = .ok d := by
  obtain ⟨ms, he, printed, -⟩ := d.encode_printed
  rw [decode, he, Schema.read_printObject (by decide) printed]
  rfl

/-- Only ports that there are become a member of the object. -/
theorem encode_ports (d : Descriptor) :
    ∃ c members, utf8 d.encode = '\x7b'.toUInt8 :: (c ++ ['\x7d'.toUInt8]) ∧
      Content memberLead c members ∧ (valuesOf "ports" members = [] ↔ d.ports = []) := by
  obtain ⟨ms, he, -, ports⟩ := d.encode_printed
  obtain ⟨c, hc, content⟩ := content_object ms
  exact ⟨c, asBytes ms, by rw [he, utf8_ofList, hc], content, ports⟩

/-- A descriptor is decoded from what it was encoded as, an object that leaves out ports when there
are none. So for any bytes that hold a descriptor, encoding and decoding it once more changes
neither the descriptor nor the bytes it is encoded as. -/
theorem json_round_trip :
    (∀ d : Descriptor, decode (utf8 d.encode) = .ok d) ∧
    (∀ d : Descriptor, ∃ c members, utf8 d.encode = '\x7b'.toUInt8 :: (c ++ ['\x7d'.toUInt8]) ∧
      Content memberLead c members ∧ (valuesOf "ports" members = [] ↔ d.ports = [])) ∧
    ∀ s : Bytes,
      (do
        let d ← decode s
        let d' ← decode (utf8 d.encode)
        return (d', utf8 d'.encode)) =
      (decode s).map fun d => (d, utf8 d.encode) := by
  refine ⟨decode_encode, encode_ports, fun s => ?_⟩
  cases decode s with
  | error e => rfl
  | ok d =>
    simp only [bind, Except.bind, decode_encode]
    rfl

end Heartbeat.Descriptor
