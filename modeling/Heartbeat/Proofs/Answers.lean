import Heartbeat.Acknowledgement
import Heartbeat.Proofs.Json.Print

/-!
# Heartbeat.Proofs.Answers

Which bodies are acknowledgements (`Acknowledges`), and that nothing else about a body decides what
became of a delivery. An acknowledgement survives its way through JSON, and so does what it says
about the delivery (`acknowledgement_survives`).
-/

namespace Heartbeat

open Json

/-- The texts that answer a descriptor: an object with one flag and at most one message among
members of any other names, or a list of the flag and perhaps a message. -/
inductive Acknowledges : Bytes → Bool → Option String → Prop where
  | object {w s w' : Bytes} {members : List (String × Bytes)} {success : Bool}
      {message : Option String} :
      Blank w → Blank w' → Content memberLead s members →
      valuesOf "success" members = [flagWord success] →
      (valuesOf "message" members = [] ∧ message = none ∨
        ∃ v, valuesOf "message" members = [v] ∧ NoteSpells v message) →
      (∀ p ∈ members, p.1 ≠ "success" → p.1 ≠ "message" → Value p.2) →
      Acknowledges (w ++ '\x7b'.toUInt8 :: (s ++ '\x7d'.toUInt8 :: w')) success message
  | flagAlone {w s w' : Bytes} {success : Bool} :
      Blank w → Blank w' → Content elementLead s [((), flagWord success)] →
      Acknowledges (w ++ '['.toUInt8 :: (s ++ ']'.toUInt8 :: w')) success none
  | flagAndNote {w s w' v : Bytes} {success : Bool} {message : Option String} :
      Blank w → Blank w' → Content elementLead s [((), flagWord success), ((), v)] →
      NoteSpells v message →
      Acknowledges (w ++ '['.toUInt8 :: (s ++ ']'.toUInt8 :: w')) success message

namespace Acknowledgement

theorem allGiven_iff {members : List (String × Bytes)} {xs : Values schema.fields} :
    AllGiven members schema.fields xs ↔
      valuesOf "success" members = [flagWord (ofValues xs).success] ∧
        (valuesOf "message" members = [] ∧ (ofValues xs).message = none ∨
          ∃ v, valuesOf "message" members = [v] ∧ NoteSpells v (ofValues xs).message) := by
  obtain ⟨success, message, ⟨⟩⟩ := xs
  constructor
  · rintro ⟨⟨_, hs, rfl⟩ | ⟨-, hs⟩, ⟨v, hv, hm⟩ | ⟨hv, hm⟩, -⟩
    · exact ⟨hs, .inr ⟨v, hv, hm⟩⟩
    · cases hm; exact ⟨hs, .inl ⟨hv, rfl⟩⟩
    · cases hs
    · cases hs
  · rintro ⟨hs, ⟨hv, hm⟩ | ⟨v, hv, hm⟩⟩
    · cases hm; exact ⟨.inl ⟨_, hs, rfl⟩, .inr ⟨hv, rfl⟩, trivial⟩
    · exact ⟨.inl ⟨_, hs, rfl⟩, .inl ⟨v, hv, hm⟩, trivial⟩

theorem listed_iff {vs : List Bytes} {xs : Values schema.fields} :
    Listed schema.fields xs vs ↔
      vs = [flagWord (ofValues xs).success] ∧ (ofValues xs).message = none ∨
        ∃ v, vs = [flagWord (ofValues xs).success, v] ∧ NoteSpells v (ofValues xs).message := by
  obtain ⟨success, message, ⟨⟩⟩ := xs
  constructor
  · intro h
    match vs, h with
    | [], ⟨hs, _⟩ => cases hs
    | [v], ⟨hs, hm, _⟩ => cases hs; cases hm; exact .inl ⟨rfl, rfl⟩
    | [v, u], ⟨hs, hm, _⟩ => cases hs; exact .inr ⟨u, rfl, hm⟩
  · rintro (⟨rfl, hm⟩ | ⟨v, rfl, hm⟩)
    · cases hm; exact ⟨rfl, rfl, rfl⟩
    · exact ⟨rfl, hm, rfl⟩

theorem spells_iff {s : Bytes} {xs : Values schema.fields} :
    schema.Spells s xs ↔ Acknowledges s (ofValues xs).success (ofValues xs).message := by
  have named (p : String × Bytes) :
      p.1 ∉ schema.fields.map (·.name) ↔ p.1 ≠ "success" ∧ p.1 ≠ "message" := by
    simp [schema]
  constructor
  · intro h
    cases h with
    | object hw hw' hs hg hv =>
      obtain ⟨hsuccess, hmessage⟩ := allGiven_iff.mp hg
      exact .object hw hw' hs hsuccess hmessage fun p hp h h' => hv p hp ((named p).mpr ⟨h, h'⟩)
    | @list w s w' items _ hw hw' hs hl =>
      rcases listed_iff.mp hl with ⟨hi, hm⟩ | ⟨v, hi, hm⟩
      · match items, hi with
        | [((), _)], rfl => rw [hm]; exact .flagAlone hw hw' hs
      · match items, hi with
        | [((), _), ((), _)], rfl => exact .flagAndNote hw hw' hs hm
  · intro h
    generalize hsuccess : (ofValues xs).success = success at h
    generalize hmessage : (ofValues xs).message = message at h
    cases h with
    | object hw hw' hs hflag hnote hv =>
      subst hsuccess hmessage
      exact .object hw hw' hs (allGiven_iff.mpr ⟨hflag, hnote⟩) fun p hp h =>
        hv p hp ((named p).mp h).1 ((named p).mp h).2
    | flagAlone hw hw' hs =>
      exact .list hw hw' hs (listed_iff.mpr (.inl ⟨by rw [hsuccess]; rfl, hmessage⟩))
    | flagAndNote hw hw' hs hv =>
      exact .list hw hw' hs (listed_iff.mpr (.inr ⟨_, by rw [hsuccess]; rfl, hmessage ▸ hv⟩))

theorem decode_eq_ok_iff {body : Bytes} {a : Acknowledgement} :
    decode body = .ok a ↔ Acknowledges body a.success a.message := by
  rw [decode, except_map_eq_ok]
  constructor
  · rintro ⟨xs, h, rfl⟩
    exact spells_iff.mp ((Schema.read_eq_ok_iff (by decide)).mp h)
  · intro h
    let xs : Values schema.fields := (a.success, a.message, ())
    exact ⟨xs, (Schema.read_eq_ok_iff (by decide)).mpr (spells_iff.mpr h), rfl⟩

end Acknowledgement

theorem Acknowledges.ofBody {body : Bytes} {success : Bool} {message : Option String}
    (h : Acknowledges body success message) :
    Outcome.ofBody body = Acknowledgement.outcome ⟨success, message⟩ := by
  have hd : Acknowledgement.decode body = .ok ⟨success, message⟩ :=
    Acknowledgement.decode_eq_ok_iff.mpr h
  have hb : body.isEmpty = false := by
    cases h <;> simp
  simp [Outcome.ofBody, hb, hd]

theorem ofBody_malformed {body : Bytes} (h : ¬ ∃ success message, Acknowledges body success message) :
    ∃ text, Outcome.ofBody body = .fail .malformedResponse text := by
  unfold Outcome.ofBody
  split
  · exact ⟨_, rfl⟩
  · cases hd : Acknowledgement.decode body with
    | ok a => exact absurd ⟨_, _, Acknowledgement.decode_eq_ok_iff.mp hd⟩ h
    | error f => exact ⟨_, rfl⟩

theorem ofBody_cases (body : Bytes) :
    (∃ success message, Acknowledges body success message ∧
      Outcome.ofBody body = Acknowledgement.outcome ⟨success, message⟩) ∨
    ((¬ ∃ success message, Acknowledges body success message) ∧
      ∃ text, Outcome.ofBody body = .fail .malformedResponse text) := by
  by_cases h : ∃ success message, Acknowledges body success message
  · obtain ⟨success, message, ha⟩ := h
    exact .inl ⟨success, message, ha, ha.ofBody⟩
  · exact .inr ⟨h, ofBody_malformed h⟩

/-- A body delivers, rejects or is malformed as the grammar of acknowledgements says: it delivers
when it acknowledges with true, it rejects with the message it gives when it acknowledges with
false, and it is malformed when it is no acknowledgement at all. -/
theorem outcome_follows_grammar (body : Bytes) :
    (Outcome.ofBody body = .success ↔ ∃ message, Acknowledges body true message) ∧
    (∀ text, Outcome.ofBody body = .fail .application text ↔
      ∃ message, Acknowledges body false message ∧
        text = message.getD "collector rejected descriptor") ∧
    ((∃ text, Outcome.ofBody body = .fail .malformedResponse text) ↔
      ¬ ∃ success message, Acknowledges body success message) ∧
    (Outcome.ofBody body = .success ∨ (∃ text, Outcome.ofBody body = .fail .application text) ∨
      ∃ text, Outcome.ofBody body = .fail .malformedResponse text) := by
  refine ⟨⟨fun h => ?_, ?_⟩, fun text => ⟨fun h => ?_, ?_⟩, ⟨?_, ofBody_malformed⟩, ?_⟩
  · rcases ofBody_cases body with ⟨success, message, ha, ho⟩ | ⟨-, text, ho⟩
    · cases success with
      | true => exact ⟨message, ha⟩
      | false => rw [h] at ho; cases ho
    · rw [h] at ho; cases ho
  · rintro ⟨message, ha⟩
    exact ha.ofBody
  · rcases ofBody_cases body with ⟨success, message, ha, ho⟩ | ⟨-, text', ho⟩
    · rw [h] at ho
      cases success with
      | true => cases ho
      | false => cases ho; exact ⟨message, ha, rfl⟩
    · rw [h] at ho; cases ho
  · rintro ⟨message, ha, rfl⟩
    exact ha.ofBody
  · rintro ⟨text, h⟩ ⟨success, message, ha⟩
    rw [ha.ofBody] at h
    cases success <;> cases h
  · rcases ofBody_cases body with ⟨success, message, -, ho⟩ | ⟨-, text, ho⟩
    · cases success with
      | true => exact .inl ho
      | false => exact .inr (.inl ⟨_, ho⟩)
    · exact .inr (.inr ⟨text, ho⟩)

example : Outcome.ofBody (utf8 "\x7b\"note\": [[], 1e5], \"\\u0073uccess\": true\x7d") = .success := by
  decide

/-! ## Encoding -/

namespace Acknowledgement

/-- The flag is printed always, the message when there is one. -/
theorem encode_printed (a : Acknowledgement) :
    ∃ ms, a.encode = String.ofList (printObject ms) ∧
      Printed schema.fields (a.success, a.message, ()) ms ∧
      ms.map (·.1) = "success" :: if a.message.isSome then ["message"] else [] := by
  obtain ⟨success, message⟩ := a
  have flag {ms : List (String × List Char)} (h : Printed (schema.fields.drop 1) (message, ()) ms) :
      Printed schema.fields (success, message, ()) (("success", printFlag success) :: ms) :=
    .member (spelled_flag success) h
  refine ⟨_, rfl, ?_⟩
  cases message with
  | none => exact ⟨flag (.leftOut rfl .nil), rfl⟩
  | some m =>
    have note : NoteSpells (bytesOf (printText m)) (some m) := spelled_text m
    exact ⟨flag (.member note .nil), rfl⟩

theorem decode_encode (a : Acknowledgement) : decode (utf8 a.encode) = .ok a := by
  obtain ⟨ms, he, printed, -⟩ := a.encode_printed
  rw [decode, he, Schema.read_printObject (by decide) printed]
  rfl

theorem encode_members (a : Acknowledgement) :
    ∃ c members, utf8 a.encode = '\x7b'.toUInt8 :: (c ++ ['\x7d'.toUInt8]) ∧
      Content memberLead c members ∧
      members.map (·.1) = "success" :: if a.message.isSome then ["message"] else [] := by
  obtain ⟨ms, he, -, names⟩ := a.encode_printed
  obtain ⟨c, hc, content⟩ := content_object ms
  refine ⟨c, asBytes ms, by rw [he, utf8_ofList, hc], content, ?_⟩
  rw [← names, asBytes, List.map_map]
  rfl

theorem ofBody_encode (a : Acknowledgement) : Outcome.ofBody (utf8 a.encode) = a.outcome :=
  (decode_eq_ok_iff.mp a.decode_encode).ofBody

end Acknowledgement

/-- An acknowledgement is decoded from what it was encoded as, an object with its flag and, if there
is one, its message. So that text delivers exactly if the flag is set, and rejects otherwise, with
the message character for character or the usual one where there is none; it is never malformed. -/
theorem acknowledgement_survives (a : Acknowledgement) :
    Acknowledgement.decode (utf8 a.encode) = .ok a ∧
    (∃ c members, utf8 a.encode = '\x7b'.toUInt8 :: (c ++ ['\x7d'.toUInt8]) ∧
      Content memberLead c members ∧
      members.map (·.1) = "success" :: if a.message.isSome then ["message"] else []) ∧
    (Outcome.ofBody (utf8 a.encode) = .success ↔ a.success = true) ∧
    (∀ text, Outcome.ofBody (utf8 a.encode) = .fail .application text ↔
      a.success = false ∧ text = a.message.getD "collector rejected descriptor") ∧
    ∀ text, Outcome.ofBody (utf8 a.encode) ≠ .fail .malformedResponse text := by
  refine ⟨a.decode_encode, a.encode_members, ?_⟩
  rw [a.ofBody_encode]
  obtain ⟨success, message⟩ := a
  cases success with
  | true => simp [Acknowledgement.outcome, Outcome.fail]
  | false => simp [Acknowledgement.outcome, Outcome.fail, eq_comm]

example : Acknowledgement.encode ⟨false, some "a\"b\n"⟩ =
    "\x7b\"success\":false,\"message\":\"a\\\"b\\n\"\x7d" := by
  decide

end Heartbeat
