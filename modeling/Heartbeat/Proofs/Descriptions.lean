import Heartbeat.Descriptor
import Heartbeat.Proofs.Json.Record

/-!
# Heartbeat.Proofs.Descriptions

Which texts hold a descriptor, and which one (`Describes`).

* `Descriptor.GivenBy`  — members of an object that give every field its value.
* `Descriptor.ListedBy` — values in the order of the fields.
* `descriptor_follows_grammar` — a text is decoded to what it describes, and refused if it
  describes nothing.
-/

namespace Heartbeat

namespace Json

/-- One member has the key, and its value is as asked. -/
def Once (key : String) (members : List (String × Bytes)) (asked : Bytes → Prop) : Prop :=
  ∃ v, valuesOf key members = [v] ∧ asked v

namespace Field

variable {f : Field} {members : List (String × Bytes)} {x a : f.kind.Value}

theorem given_required (h : f.absent = none) :
    f.Given members x ↔ Once f.name members (f.kind.Spells · x) := by
  simp [Given, Once, h]

theorem given_optional (h : f.absent = some a) :
    f.Given members x ↔
      valuesOf f.name members = [] ∧ x = a ∨ Once f.name members (f.kind.Spells · x) := by
  rw [Given, h, or_comm, Option.some.injEq, eq_comm (a := a)]
  rfl

end Field

theorem listed_required {f : Field} {fs : List Field} {x : f.kind.Value} {xs : Values fs}
    {vs : List Bytes} (h : f.absent = none) :
    Listed (f :: fs) (x, xs) vs ↔ ∃ v us, vs = v :: us ∧ f.kind.Spells v x ∧ Listed fs xs us := by
  cases vs with
  | nil => simp [Listed, h]
  | cons v us =>
    constructor
    · rintro ⟨hv, hl⟩
      exact ⟨v, us, rfl, hv, hl⟩
    · rintro ⟨_, _, he, hv, hl⟩
      cases he
      exact ⟨hv, hl⟩

end Json

open Json

namespace Descriptor

/-- Members of an object that give every field its value: each field has one member, but for the
ports, which may be left out when there are none, and the container, when it is false. -/
structure GivenBy (d : Descriptor) (members : List (String × Bytes)) : Prop where
  agentId : Once "agent_id" members (TextSpells · d.agentId)
  applicationName : Once "application_name" members (TextSpells · d.applicationName)
  hostname : Once "hostname" members (TextSpells · d.hostname)
  ip : Once "ip" members (TextSpells · d.ip)
  pid : Once "pid" members (WordSpells UInt32.size · d.pid.toNat)
  agentVersion : Once "agent_version" members (TextSpells · d.agentVersion)
  startTime : Once "start_time_ms" members (WordSpells UInt64.size · d.startTime.toNat)
  ports : valuesOf "ports" members = [] ∧ d.ports = [] ∨
    Once "ports" members (Kind.words16.Spells · d.ports)
  container : valuesOf "container" members = [] ∧ d.container = false ∨
    Once "container" members (· = flagWord d.container)

/-- The keys that the fields go by. -/
def keys : List String :=
  ["agent_id", "application_name", "hostname", "ip", "pid", "agent_version", "start_time_ms",
    "ports", "container"]

/-- What may follow the values of the required fields. -/
inductive ListedLast (d : Descriptor) : List Bytes → Prop where
  | nothing : d.ports = [] → d.container = false → ListedLast d []
  | ports {ports : Bytes} :
      Kind.words16.Spells ports d.ports → d.container = false → ListedLast d [ports]
  | container {ports : Bytes} :
      Kind.words16.Spells ports d.ports → ListedLast d [ports, flagWord d.container]

/-- Values in the order of the fields. -/
inductive ListedBy (d : Descriptor) : List Bytes → Prop where
  | fields {agentId applicationName hostname ip pid agentVersion startTime : Bytes}
      {last : List Bytes} :
      TextSpells agentId d.agentId → TextSpells applicationName d.applicationName →
      TextSpells hostname d.hostname → TextSpells ip d.ip →
      WordSpells UInt32.size pid d.pid.toNat → TextSpells agentVersion d.agentVersion →
      WordSpells UInt64.size startTime d.startTime.toNat → ListedLast d last →
      ListedBy d
        (agentId :: applicationName :: hostname :: ip :: pid :: agentVersion :: startTime :: last)

end Descriptor

/-- The texts that hold a descriptor: an object that gives its fields, among members of any other
names, or a list of their values. -/
inductive Describes : Bytes → Descriptor → Prop where
  | object {w s w' : Bytes} {members : List (String × Bytes)} {d : Descriptor} :
      Blank w → Blank w' → Content memberLead s members → d.GivenBy members →
      (∀ p ∈ members, p.1 ∉ Descriptor.keys → Value p.2) →
      Describes (w ++ '\x7b'.toUInt8 :: (s ++ '\x7d'.toUInt8 :: w')) d
  | list {w s w' : Bytes} {items : List (Unit × Bytes)} {d : Descriptor} :
      Blank w → Blank w' → Content elementLead s items → d.ListedBy (items.map (·.2)) →
      Describes (w ++ '['.toUInt8 :: (s ++ ']'.toUInt8 :: w')) d

namespace Descriptor

variable {members : List (String × Bytes)} {vs : List Bytes} {xs : Values schema.fields} {s : Bytes}

theorem allGiven_iff : AllGiven members schema.fields xs ↔ (ofValues xs).GivenBy members := by
  obtain ⟨agentId, applicationName, hostname, ip, pid, agentVersion, startTime, ports, container,
    ⟨⟩⟩ := xs
  constructor
  · rintro ⟨h₁, h₂, h₃, h₄, h₅, h₆, h₇, h₈, h₉, -⟩
    exact {
      agentId := (Field.given_required rfl).mp h₁
      applicationName := (Field.given_required rfl).mp h₂
      hostname := (Field.given_required rfl).mp h₃
      ip := (Field.given_required rfl).mp h₄
      pid := (Field.given_required rfl).mp h₅
      agentVersion := (Field.given_required rfl).mp h₆
      startTime := (Field.given_required rfl).mp h₇
      ports := (Field.given_optional rfl).mp h₈
      container := (Field.given_optional rfl).mp h₉ }
  · intro h
    exact ⟨(Field.given_required rfl).mpr h.agentId,
      (Field.given_required rfl).mpr h.applicationName, (Field.given_required rfl).mpr h.hostname,
      (Field.given_required rfl).mpr h.ip, (Field.given_required rfl).mpr h.pid,
      (Field.given_required rfl).mpr h.agentVersion, (Field.given_required rfl).mpr h.startTime,
      (Field.given_optional rfl).mpr h.ports, (Field.given_optional rfl).mpr h.container, trivial⟩

/-- The two fields that may be missing from the end of a list. -/
theorem listedLast_iff {d : Descriptor} :
    Listed (schema.fields.drop 7) (d.ports, d.container, ()) vs ↔ d.ListedLast vs := by
  constructor
  · intro h
    match vs, h with
    | [], ⟨hports, hcontainer, _⟩ =>
      exact .nothing (Option.some.inj hports).symm (Option.some.inj hcontainer).symm
    | [_], ⟨hports, hcontainer, _⟩ => exact .ports hports (Option.some.inj hcontainer).symm
    | [_, _], ⟨hports, hcontainer, _⟩ => cases hcontainer; exact .container hports
  · intro h
    cases h with
    | nothing hports hcontainer => exact ⟨by rw [hports], by rw [hcontainer], rfl⟩
    | ports hports hcontainer => exact ⟨hports, by rw [hcontainer], rfl⟩
    | container hports => exact ⟨hports, rfl, rfl⟩

theorem listed_iff : Listed schema.fields xs vs ↔ (ofValues xs).ListedBy vs := by
  obtain ⟨agentId, applicationName, hostname, ip, pid, agentVersion, startTime, ports, container,
    ⟨⟩⟩ := xs
  constructor
  · intro h
    obtain ⟨_, _, rfl, h₁, h⟩ := (listed_required rfl).mp h
    obtain ⟨_, _, rfl, h₂, h⟩ := (listed_required rfl).mp h
    obtain ⟨_, _, rfl, h₃, h⟩ := (listed_required rfl).mp h
    obtain ⟨_, _, rfl, h₄, h⟩ := (listed_required rfl).mp h
    obtain ⟨_, _, rfl, h₅, h⟩ := (listed_required rfl).mp h
    obtain ⟨_, _, rfl, h₆, h⟩ := (listed_required rfl).mp h
    obtain ⟨_, _, rfl, h₇, h⟩ := (listed_required rfl).mp h
    exact .fields h₁ h₂ h₃ h₄ h₅ h₆ h₇ (listedLast_iff.mp h)
  · rintro ⟨h₁, h₂, h₃, h₄, h₅, h₆, h₇, hlast⟩
    exact ⟨h₁, h₂, h₃, h₄, h₅, h₆, h₇, listedLast_iff.mpr hlast⟩

theorem spells_iff : schema.Spells s xs ↔ Describes s (ofValues xs) := by
  constructor
  · intro h
    cases h with
    | object hw hw' hs hgiven hothers => exact .object hw hw' hs (allGiven_iff.mp hgiven) hothers
    | list hw hw' hs hlisted => exact .list hw hw' hs (listed_iff.mp hlisted)
  · intro h
    generalize hd : ofValues xs = d at h
    cases h with
    | object hw hw' hs hgiven hothers =>
      exact .object hw hw' hs (allGiven_iff.mpr (hd ▸ hgiven)) hothers
    | list hw hw' hs hlisted => exact .list hw hw' hs (listed_iff.mpr (hd ▸ hlisted))

theorem decode_eq_ok_iff {d : Descriptor} : decode s = .ok d ↔ Describes s d := by
  rw [decode, except_map_eq_ok]
  constructor
  · rintro ⟨xs, h, rfl⟩
    exact spells_iff.mp ((Schema.read_eq_ok_iff (by decide)).mp h)
  · intro h
    let xs : Values schema.fields := (d.agentId, d.applicationName, d.hostname, d.ip, d.pid,
      d.agentVersion, d.startTime, d.ports, d.container, ())
    exact ⟨xs, (Schema.read_eq_ok_iff (by decide)).mpr (spells_iff.mpr h), rfl⟩

end Descriptor

/-- **Decoding follows the grammar of descriptors.** A text is decoded to the descriptor that it
describes; it describes no other, and a text that describes none is refused. -/
theorem descriptor_follows_grammar (s : Bytes) :
    (∀ d, Descriptor.decode s = .ok d ↔ Describes s d) ∧
    (∀ d d', Describes s d → Describes s d' → d = d') ∧
    ((∃ f, Descriptor.decode s = .error f) ↔ ¬ ∃ d, Describes s d) := by
  refine ⟨fun d => Descriptor.decode_eq_ok_iff, fun d d' h h' => ?_, ?_, fun h => ?_⟩
  · have hd := Descriptor.decode_eq_ok_iff.mpr h
    rw [Descriptor.decode_eq_ok_iff.mpr h'] at hd
    exact (Except.ok.inj hd).symm
  · rintro ⟨f, hf⟩ ⟨d, hd⟩
    rw [Descriptor.decode_eq_ok_iff.mpr hd] at hf
    cases hf
  · cases hs : Descriptor.decode s with
    | error f => exact ⟨f, rfl⟩
    | ok d => exact absurd ⟨d, Descriptor.decode_eq_ok_iff.mp hs⟩ h

/-- The greatest process number is read, and no greater one is cut down to size. -/
example :
    (Descriptor.decode (utf8 "[\"a\", \"b\", \"c\", \"d\", 4294967295, \"v\", 0, [80]]")).toOption =
        some ⟨"a", "b", "c", "d", 4294967295, "v", 0, [80], false⟩ ∧
      (Descriptor.decode (utf8 "[\"a\", \"b\", \"c\", \"d\", 4294967296, \"v\", 0]")).toOption =
        none := by
  decide

end Heartbeat
