import Heartbeat.Launch
import Heartbeat.Simulation
import Mathlib.Data.List.TakeWhile

/-!
# Heartbeat.Proofs.Launches

How the program ends by itself, and when it does not.

Each error says something of the values it was found in. The checks find errors in a fixed order;
what a launch comes to depends on which errors hold, and what it tells on the first that does.

* `SettingsError.Holds`, `FatalError.Holds` — what an error says of a configuration.
* `Tells`                — a check that fails with the first error that holds.
* `Launch.Follows`       — what a configuration leads to.
* `launch_ends_as_told`  — every launch follows the configuration that its command line makes.
-/

namespace Heartbeat

open CommandLine

/-! ## What the errors say -/

/-- The settings errors in the order in which they are told. -/
def SettingsError.order : List SettingsError :=
  [.sendIntervalZero, .refreshIntervalZero, .responseTimeoutZero, .maxTriesZero]

def SettingsError.Holds (s : Settings) : SettingsError → Prop
  | .sendIntervalZero => s.sendInterval = 0
  | .refreshIntervalZero => s.refreshInterval = 0
  | .responseTimeoutZero => s.responseTimeout = 0
  | .maxTriesZero => s.maxTries = 0

instance (s : Settings) : DecidablePred (SettingsError.Holds s)
  | .sendIntervalZero => inferInstanceAs (Decidable (s.sendInterval = 0))
  | .refreshIntervalZero => inferInstanceAs (Decidable (s.refreshInterval = 0))
  | .responseTimeoutZero => inferInstanceAs (Decidable (s.responseTimeout = 0))
  | .maxTriesZero => inferInstanceAs (Decidable (s.maxTries = 0))

theorem isBlankText_iff {s : String} : isBlankText s = true ↔ ∀ d ∈ s.toList, isBlank d := by
  rw [isBlankText, List.all_eq_true]

theorem Identity.hasBlankId_iff {i : Identity} :
    (i.agentId.map isBlankText).getD false = true ↔
      ∃ id ∈ i.agentId, ∀ d ∈ id.toList, isBlank d := by
  cases i.agentId with
  | none => simp
  | some id => simpa using isBlankText_iff

theorem Collector.base_isEmpty_iff {c : Collector} :
    c.base.isEmpty = true ↔ ∀ d ∈ c.url.toList, d = '/' := by
  rw [List.isEmpty_iff, base, List.reverse_eq_nil_iff, List.dropWhile_eq_nil_iff]
  simp

/-- The fatal errors in the order in which they are told. -/
def FatalError.order : List FatalError :=
  [.identity .applicationNameBlank, .identity .agentIdBlank, .collector .urlEmpty]

def FatalError.Holds (c : Config) : FatalError → Prop
  | .identity .applicationNameBlank => ∀ d ∈ c.identity.applicationName.toList, isBlank d
  | .identity .agentIdBlank => ∃ id ∈ c.identity.agentId, ∀ d ∈ id.toList, isBlank d
  | .collector .urlEmpty => ∀ d ∈ c.collector.url.toList, d = '/'

instance (c : Config) : DecidablePred (FatalError.Holds c)
  | .identity .applicationNameBlank =>
    decidable_of_iff (isBlankText c.identity.applicationName = true) isBlankText_iff
  | .identity .agentIdBlank =>
    decidable_of_iff ((c.identity.agentId.map isBlankText).getD false = true)
      Identity.hasBlankId_iff
  | .collector .urlEmpty =>
    decidable_of_iff (c.collector.base.isEmpty = true) Collector.base_isEmpty_iff

/-! ## Checks -/

section Tells

variable {ε α : Type} {bad : ε → Prop} [DecidablePred bad] {order : List ε} {x : Except ε α}

/-- A check fails with the first error that holds, and only if one does. -/
def Tells (order : List ε) (bad : ε → Prop) [DecidablePred bad] (x : Except ε α) : Prop :=
  ∀ e, x = .error e ↔ order.find? bad = some e

theorem Tells.nil {a : α} : Tells [] bad (.ok a : Except ε α) := by
  intro e
  simp

/-- Looking for one error before all others. -/
theorem Tells.cons {first : ε} (hbad : bad first → x = .error first)
    (hgood : ¬ bad first → Tells order bad x) : Tells (first :: order) bad x := by
  intro e
  by_cases h : bad first
  · rw [hbad h, List.find?_cons_of_pos (by simpa using h)]
    simp
  · rw [List.find?_cons_of_neg (by simpa using h)]
    exact hgood h e

theorem Tells.holds (h : Tells order bad x) {e : ε} (hx : x = .error e) : bad e := by
  simpa using List.find?_some ((h e).mp hx)

/-- If all errors are looked for, a check passes exactly if none holds. -/
theorem Tells.passes_iff (h : Tells order bad x) (all : ∀ e, e ∈ order) :
    (∃ a, x = .ok a) ↔ ∀ e, ¬ bad e := by
  constructor
  · rintro ⟨a, rfl⟩ e he
    obtain ⟨first, hfirst⟩ : ∃ first, order.find? bad = some first :=
      Option.isSome_iff_exists.mp (List.find?_isSome.mpr ⟨e, all e, by simpa using he⟩)
    have : Except.ok a = Except.error first := (h first).mpr hfirst
    contradiction
  · intro hnone
    match x, h with
    | .ok a, _ => exact ⟨a, rfl⟩
    | .error e, h => exact absurd (h.holds rfl) (hnone e)

end Tells

theorem SettingsError.mem_order (e : SettingsError) : e ∈ order := by
  cases e <;> decide

theorem FatalError.mem_order : ∀ e : FatalError, e ∈ order
  | .identity .applicationNameBlank | .identity .agentIdBlank | .collector .urlEmpty => by decide

theorem Settings.cadence_tells (s : Settings) :
    Tells SettingsError.order (SettingsError.Holds s) s.cadence := by
  refine .cons (fun h => dif_pos h) fun (hsend : ¬ s.sendInterval = 0) =>
    .cons (fun (h : s.refreshInterval = 0) => ?_) fun (hrefresh : ¬ s.refreshInterval = 0) =>
    .cons (fun (h : s.responseTimeout = 0) => ?_) fun (hresponse : ¬ s.responseTimeout = 0) =>
    .cons (fun (h : s.maxTries = 0) => ?_) fun (htries : ¬ s.maxTries = 0) => ?_
  · rw [cadence, dif_neg hsend, dif_pos h]
  · rw [cadence, dif_neg hsend, dif_neg hrefresh, dif_pos h]
  · rw [cadence, dif_neg hsend, dif_neg hrefresh, dif_neg hresponse, dif_pos h]
  · rw [cadence, dif_neg hsend, dif_neg hrefresh, dif_neg hresponse, dif_neg htries]
    exact .nil

/-- The checks of the identity and of the collector are as one. -/
theorem CommandLine.Config.endpoint_tells (c : Config) :
    Tells FatalError.order (FatalError.Holds c) c.endpoint := by
  refine .cons (fun h => ?_) fun hname => .cons (fun h => ?_) fun hid =>
    .cons (fun h => ?_) fun hurl => ?_
  · rw [endpoint, Identity.check, if_pos (isBlankText_iff.mpr h)]
  · rw [endpoint, Identity.check, if_neg (mt isBlankText_iff.mp hname),
      if_pos (Identity.hasBlankId_iff.mpr h)]
  all_goals
    have hcheck : c.identity.check = .ok () := by
      rw [Identity.check, if_neg (mt isBlankText_iff.mp hname),
        if_neg (mt Identity.hasBlankId_iff.mp hid)]
    rw [endpoint, hcheck, Collector.endpoint]
  · rw [if_pos (Collector.base_isEmpty_iff.mpr h)]
  · rw [if_neg (mt Collector.base_isEmpty_iff.mp hurl)]
    exact .nil

/-! ## What a configuration leads to -/

/-- A reporter that runs has all the configuration gives it, and is built and started on any
bench. -/
structure Assignment.Serves (c : Config) (a : Assignment) : Prop where
  identity : a.identity = c.identity
  collector : a.collector = c.collector
  endpoint : c.collector.endpoint = .ok a.endpoint
  cadence : c.settings.cadence = .ok a.cadence
  reporter (bench : Bench) : ∃ m m', Simulation.build c.settings .reporter true bench = .ok m ∧
    m.scheduler.cadence = a.cadence ∧ m.apply .start = (some true, m') ∧
      m'.scheduler.lifecycle = .running

/-- What a configuration leads to: zero settings to exit code 2, a fault in the identity or in the
collector to exit code 1, and all others to a reporter that runs. -/
structure Launch.Follows (c : Config) (l : Launch) : Prop where
  exits_two_iff : (∃ output errors, l = .exits 2 output errors) ↔
    ∃ e : SettingsError, e.Holds c.settings
  exits_two {output : List Output} {errors : List String} (h : l = .exits 2 output errors) :
    output = [] ∧ ∃ e, SettingsError.order.find? (SettingsError.Holds c.settings) = some e ∧
      errors = ["error: " ++ e.message]
  exits_one_iff : (∃ output errors, l = .exits 1 output errors) ↔
    (∀ e : SettingsError, ¬ e.Holds c.settings) ∧ ∃ e : FatalError, e.Holds c
  exits_one {output : List Output} {errors : List String} (h : l = .exits 1 output errors) :
    errors = [] ∧ ∃ e, FatalError.order.find? (FatalError.Holds c) = some e ∧
      output = c.fatalOutput e
  runs_iff : (∃ a, l = .runs a) ↔
    (∀ e : SettingsError, ¬ e.Holds c.settings) ∧ ∀ e : FatalError, ¬ e.Holds c
  runs {a : Assignment} (h : l = .runs a) : a.Serves c

variable {c : Config}

/-- The cadence that was checked is the one that the scheduler is built with. -/
theorem reporter_starts {cadence : Cadence} (h : c.settings.cadence = .ok cadence)
    (bench : Bench) : ∃ m m', Simulation.build c.settings .reporter true bench = .ok m ∧
      m.scheduler.cadence = cadence ∧ m.apply .start = (some true, m') ∧
        m'.scheduler.lifecycle = .running := by
  let m : Simulation := { facade := .reporter, scheduler := { cadence, bench } }
  refine ⟨m, (m.apply .start).2, ?_, rfl, rfl, rfl⟩
  rw [Simulation.build, h]
  rfl

theorem CommandLine.Config.collector_endpoint {url : String} (h : c.endpoint = .ok url) :
    c.collector.endpoint = .ok url := by
  unfold endpoint at h
  split at h
  · contradiction
  · split at h
    · contradiction
    · rename_i url' hurl
      cases h
      exact hurl

/-- The checks are made one after the other: in each case the ones before have passed, so that no
error of theirs holds. -/
theorem Launch.follows_ofConfig (c : Config) : (Launch.ofConfig c).Follows c := by
  have hzero := Tells.passes_iff c.settings.cadence_tells SettingsError.mem_order
  have hfault := Tells.passes_iff c.endpoint_tells FatalError.mem_order
  cases hc : c.settings.cadence with
  | error e =>
    have he := c.settings.cadence_tells.holds hc
    have hl : Launch.ofConfig c = .exits 2 [] ["error: " ++ e.message] := by
      rw [ofConfig, hc]
    rw [hl]
    exact {
      exits_two_iff := ⟨fun _ => ⟨e, he⟩, fun _ => ⟨_, _, rfl⟩⟩
      exits_two := by
        rintro _ _ ⟨⟩
        exact ⟨rfl, e, (c.settings.cadence_tells e).mp hc, rfl⟩
      exits_one_iff := ⟨nofun, fun h => absurd he (h.1 e)⟩
      exits_one := nofun
      runs_iff := ⟨nofun, fun h => absurd he (h.1 e)⟩
      runs := nofun }
  | ok cadence =>
    have hpos := hzero.mp ⟨cadence, hc⟩
    cases he : c.endpoint with
    | error e =>
      have hbad := c.endpoint_tells.holds he
      have hl : Launch.ofConfig c = .exits 1 (c.fatalOutput e) [] := by
        rw [ofConfig, hc, he]
      rw [hl]
      exact {
        exits_two_iff := ⟨nofun, fun ⟨z, hz⟩ => absurd hz (hpos z)⟩
        exits_two := nofun
        exits_one_iff := ⟨fun _ => ⟨hpos, e, hbad⟩, fun _ => ⟨_, _, rfl⟩⟩
        exits_one := by
          rintro _ _ ⟨⟩
          exact ⟨rfl, e, (c.endpoint_tells e).mp he, rfl⟩
        runs_iff := ⟨nofun, fun h => absurd hbad (h.2 e)⟩
        runs := nofun }
    | ok url =>
      have hgood := hfault.mp ⟨url, he⟩
      have hl : Launch.ofConfig c = .runs ⟨cadence, c.identity, c.collector, url⟩ := by
        rw [ofConfig, hc, he]
      rw [hl]
      exact {
        exits_two_iff := ⟨nofun, fun ⟨z, hz⟩ => absurd hz (hpos z)⟩
        exits_two := nofun
        exits_one_iff := ⟨nofun, fun ⟨_, f, hf⟩ => absurd hf (hgood f)⟩
        exits_one := nofun
        runs_iff := ⟨fun _ => ⟨hpos, hgood⟩, fun _ => ⟨_, rfl⟩⟩
        runs := by
          rintro _ ⟨⟩
          exact ⟨rfl, rfl, c.collector_endpoint he, hc, reporter_starts hc⟩ }

/-! ## Every launch -/

/-- How every launch ends, or that it runs. A command line that asks for a text gets it, with exit
code 0, and one that cannot be read is told why, with exit code 2. -/
theorem launch_ends_as_told (args : List String) (env : Environment) :
    (Command.agent.parse args env = .error .help →
      Launch.ofCommandLine args env = .exits 0 ((Command.agent.helpLines env).map .line) []) ∧
    (Command.agent.parse args env = .error .version →
      Launch.ofCommandLine args env = .exits 0 [.line versionLine] []) ∧
    (∀ e, e ≠ .help → e ≠ .version → Command.agent.parse args env = .error e →
      Launch.ofCommandLine args env = .exits 2 [] (e.lines .agent)) ∧
    ∀ c, Command.agent.parse args env = .ok c → (Launch.ofCommandLine args env).Follows c := by
  refine ⟨?_, ?_, ?_, ?_⟩
  · intro h
    rw [Launch.ofCommandLine, h]
  · intro h
    rw [Launch.ofCommandLine, h]
  · intro e hhelp hversion h
    rw [Launch.ofCommandLine, h]
    cases e with
    | help => contradiction
    | version => contradiction
    | _ => rfl
  · intro c h
    rw [Launch.ofCommandLine, h]
    exact Launch.follows_ofConfig c

theorem blank_id_is_told_before_slashes :
    (∃ output, Launch.ofCommandLine ["--help"] (fun _ => none) = .exits 0 output []) ∧
    Launch.ofCommandLine ["-V"] (fun _ => none) = .exits 0 [.line "herald 0.1.0"] [] ∧
    (∃ errors, Launch.ofCommandLine ["--port"] (fun _ => none) = .exits 2 [] errors) ∧
    Launch.ofCommandLine ["--collector-url=//", "--application-name=a", "--agent-id= "]
        (fun _ => none) =
      .exits 1 [.record ⟨.error, "fatal: agent id must not be empty"⟩ .text] [] := by
  refine ⟨⟨_, (launch_ends_as_told _ _).1 rfl⟩, (launch_ends_as_told _ _).2.1 rfl,
    ⟨_, (launch_ends_as_told _ _).2.2.1 (.valueMissing .port) nofun nofun rfl⟩, ?_⟩
  have hf := (launch_ends_as_told ["--collector-url=//", "--application-name=a", "--agent-id= "]
    (fun _ => none)).2.2.2
    { collector := { url := "//" }, identity := { applicationName := "a", agentId := some " " },
      settings := {}, logLevel := "info", logFormat := "text" } rfl
  have hpos (e : SettingsError) : ¬ e.Holds {} := by cases e <;> decide
  obtain ⟨output, errors, h⟩ := hf.exits_one_iff.mpr ⟨hpos, .identity .agentIdBlank, by decide⟩
  obtain ⟨rfl, e, he, rfl⟩ := hf.exits_one h
  obtain rfl : e = .identity .agentIdBlank := Option.some.inj (he.symm.trans (by decide))
  rw [h]
  exact congrArg (Launch.exits 1 · []) (by decide)

end Heartbeat
