import Heartbeat.Proofs.CommandLine.Sources

/-!
# Heartbeat.Proofs.CommandLine.Agreement

It makes no difference whether options are given their texts by arguments or by variables
(`flags_and_variables_agree`).

* `Command.Gives` — a way to give options their texts; every such way is parsed alike.
* `parse_ports`   — ports in several arguments add up.
-/

namespace Heartbeat.CommandLine

/-! ## Arguments or variables -/

/-- A way to give options their texts: some as arguments, in any order, and the others by their
variables. -/
structure Command.Gives (c : Command) (texts : Key → Option String) (given : List (Key × String))
    (env : Environment) : Prop where
  known : ∀ k, k ∉ c.options → texts k = none
  once : (given.map (·.1)).Nodup
  assigned : ∀ g ∈ given, g.1.kind ≠ .switch ∧ texts g.1 = some g.2
  fromVariable : ∀ k ∈ c.options, k ∉ given.map (·.1) → env k.envVariable = texts k

namespace Command.Gives

variable {c : Command} {texts : Key → Option String} {given : List (Key × String)}
  {env : Environment}

theorem takes (h : c.Gives texts given env) : ∀ g ∈ given, c.Takes g.1 := by
  intro g hg
  obtain ⟨value, text⟩ := h.assigned g hg
  refine ⟨?_, value⟩
  by_contra hc
  rw [h.known g.1 hc] at text
  cases text

theorem textsOf_eq (h : c.Gives texts given env) {k : Key} (hk : k ∈ given.map (·.1)) :
    textsOf k given = (texts k).toList := by
  obtain ⟨⟨j, text⟩, hg, rfl⟩ := List.mem_map.mp hk
  rw [textsOf_of_mem h.once hg, (h.assigned _ hg).2, Option.toList_some]

theorem sources_eq (h : c.Gives texts given env) (k : Key) :
    c.sources given env k = (texts k).toList := by
  rw [sources]
  by_cases hk : k ∈ given.map (·.1)
  · rw [if_pos (mt textsOf_eq_nil.mp (not_not.mpr hk)), h.textsOf_eq hk]
  · rw [if_neg (not_not.mpr (textsOf_eq_nil.mpr hk))]
    by_cases hc : k ∈ c.options
    · rw [if_pos hc, h.fromVariable k hc hk]
    · rw [if_neg hc, h.known k hc, Option.toList_none]

theorem length_textsOf_le (h : c.Gives texts given env) (k : Key) :
    (textsOf k given).length ≤ 1 := by
  by_cases hk : k ∈ given.map (·.1)
  · rw [h.textsOf_eq hk]
    exact Option.length_toList_le
  · simp [textsOf_eq_nil.mpr hk]

theorem parse_eq_ok (h : c.Gives texts given env) {cfg : Config} :
    c.parse (arguments given) env = .ok cfg ↔ c.Means (fun k => (texts k).toList) cfg := by
  rw [parse_arguments h.takes, funext h.sources_eq]
  exact and_iff_right fun k _ => h.length_textsOf_le k

end Command.Gives

theorem toOption_eq {ε α : Type} {x y : Except ε α} (h : ∀ a, x = .ok a ↔ y = .ok a) :
    x.toOption = y.toOption := by
  cases x with
  | ok a => rw [(h a).mp rfl]
  | error e =>
    cases y with
    | ok a => cases (h a).mpr rfl
    | error e' => rfl

/-! ## Ports -/

theorem Key.reads_flatten {k : Key} {texts : List String} {vs : List k.Value} :
    k.Reads texts vs ↔
      ∃ lists : List (List k.Value),
        texts.Forall₂ (fun text list => k.Reads [text] list) lists ∧ vs = lists.flatten := by
  induction texts generalizing vs with
  | nil => simp [reads_nil]
  | cons text texts ih =>
    rw [← List.singleton_append, reads_append]
    simp only [ih, List.singleton_append, List.forall₂_cons_left_iff]
    constructor
    · rintro ⟨us, _, hu, ⟨lists, hl, rfl⟩, rfl⟩
      exact ⟨us :: lists, ⟨us, lists, hu, hl, rfl⟩, rfl⟩
    · rintro ⟨_, ⟨us, lists, hu, hl, rfl⟩, rfl⟩
      exact ⟨us, _, hu, ⟨lists, hl, rfl⟩, rfl⟩

def Config.withPorts (cfg : Config) (ports : List UInt16) : Config :=
  { cfg with identity := { cfg.identity with ports } }

theorem Matches.config_set_port (m : Matches) (c : Command) (ports : List UInt16) :
    (m.set .port ports).config c = (m.config c).map (·.withPorts ports) := by
  have missing : (c.options.filter fun k => k.isRequired && !(m.set .port ports).has k) =
      c.options.filter fun k => k.isRequired && !m.has k := by
    apply List.filter_congr
    intro k _
    by_cases hk : k = .port
    · subst hk
      rfl
    · rw [has, has, set_other (k := .port) m ports hk]
  unfold config
  simp only [set_self, set_other, ne_eq, reduceCtorEq, not_false_eq_true, missing]
  split <;> rfl

/-- The variables without that of an option. -/
def Environment.without (env : Environment) (k : Key) : Environment := fun name =>
  if name = k.envVariable then none else env name

section Ports

variable {c : Command} {given : List (Key × String)} {env : Environment}

theorem textsOf_filter_self (k : Key) : textsOf k (given.filter (·.1 ≠ k)) = [] := by
  simp [textsOf_eq_nil]

theorem textsOf_filter_other {j k : Key} (h : k ≠ j) :
    textsOf k (given.filter (·.1 ≠ j)) = textsOf k given := by
  rw [textsOf, textsOf, List.filter_filter]
  congr 1
  apply List.filter_congr
  intro g _
  by_cases hg : g.1 = k
  · simp [hg, h]
  · simp [hg]

theorem sources_filter_self (k : Key) :
    c.sources (given.filter (·.1 ≠ k)) (env.without k) k = [] := by
  rw [Command.sources, textsOf_filter_self]
  simp [Environment.without]

theorem sources_filter_other {j k : Key} (h : k ≠ j) :
    c.sources (given.filter (·.1 ≠ j)) (env.without j) k = c.sources given env k := by
  have unlike : k.envVariable ≠ j.envVariable := fun same => h (Key.envVariable_inj same)
  rw [Command.sources, Command.sources, textsOf_filter_other h, Environment.without, if_neg unlike]

/-- Ports are read apart from everything else. -/
theorem means_port {texts others : Key → List String} (hp : others .port = [])
    (ho : ∀ k, k ≠ .port → others k = texts k) {cfg : Config} :
    c.Means texts cfg ↔
      ∃ ports base, Key.port.Reads (texts .port) ports ∧ c.Means others base ∧
        cfg = base.withPorts ports := by
  constructor
  · rintro ⟨m, reads, hc⟩
    have bare : (m.set .port []).config c = .ok (cfg.withPorts []) := by
      rw [Matches.config_set_port, hc]
      rfl
    have own : cfg = (cfg.withPorts []).withPorts (m .port) := by
      have whole := Matches.config_set_port m c (m .port)
      rw [Matches.set_same, hc] at whole
      exact Except.ok.inj whole
    refine ⟨m .port, cfg.withPorts [], reads .port, ⟨m.set .port [], fun k => ?_, bare⟩, own⟩
    by_cases hk : k = .port
    · subst hk
      rw [hp, Matches.set_self]
      exact Key.reads_nil.mpr rfl
    · rw [ho k hk, Matches.set_other (k := .port) m [] hk]
      exact reads k
  · rintro ⟨ports, base, hr, ⟨m, reads, hc⟩, rfl⟩
    refine ⟨m.set .port ports, fun k => ?_, ?_⟩
    · by_cases hk : k = .port
      · subst hk
        rwa [Matches.set_self]
      · rw [Matches.set_other (k := .port) m ports hk, ← ho k hk]
        exact reads k
    · rw [Matches.config_set_port, hc]
      rfl

/-- Every argument that gives ports adds its own, and the variable adds none. -/
theorem parse_ports (hg : ∀ g ∈ given, c.Takes g.1) (hp : .port ∈ given.map (·.1)) {cfg : Config} :
    c.parse (arguments given) env = .ok cfg ↔
      ∃ (lists : List (List UInt16)) (base : Config),
        (textsOf .port given).Forall₂ (fun text ports => Key.port.Reads [text] ports) lists ∧
        c.parse (arguments (given.filter (·.1 ≠ .port))) (env.without .port) = .ok base ∧
        cfg = base.withPorts lists.flatten := by
  have hg' : ∀ g ∈ given.filter (·.1 ≠ .port), c.Takes g.1 := fun g h =>
    hg g (List.mem_of_mem_filter h)
  have shown : c.sources given env .port = textsOf .port given :=
    if_pos (mt textsOf_eq_nil.mp (not_not.mpr hp))
  have once : (∀ k : Key, k.isList = false → (textsOf k (given.filter (·.1 ≠ .port))).length ≤ 1) ↔
      ∀ k : Key, k.isList = false → (textsOf k given).length ≤ 1 := by
    refine forall_congr' fun k => imp_congr_right fun hl => ?_
    have other : k ≠ .port := by
      rintro rfl
      cases hl
    rw [textsOf_filter_other other]
  simp only [parse_arguments hg, parse_arguments hg', once]
  rw [means_port (sources_filter_self .port) fun k hk => sources_filter_other hk, shown]
  constructor
  · rintro ⟨few, ports, base, hr, hb, rfl⟩
    obtain ⟨lists, hl, rfl⟩ := Key.reads_flatten.mp hr
    exact ⟨lists, base, hl, ⟨few, hb⟩, rfl⟩
  · rintro ⟨lists, base, hl, ⟨few, hb⟩, rfl⟩
    exact ⟨few, lists.flatten, base, Key.reads_flatten.mpr ⟨lists, hl, rfl⟩, hb, rfl⟩

end Ports

/-- Options that take a value can be given it by an argument or by their variable. A command line of
such arguments succeeds exactly if every option reads the text it is given and none is missing, and
then makes the configuration that the texts mean; so success and configuration depend neither on
which texts are arguments nor on the order of these. The variable of an option that any argument
names is not looked at, whatever it is set to. Arguments that give ports add up to the concatenation
of their lists. -/
theorem flags_and_variables_agree (c : Command) :
    (∀ texts given env, c.Gives texts given env → ∀ cfg,
      c.parse (arguments given) env = .ok cfg ↔ c.Means (fun k => (texts k).toList) cfg) ∧
    (∀ texts given given' env env', c.Gives texts given env → c.Gives texts given' env' →
      (c.parse (arguments given) env).toOption = (c.parse (arguments given') env').toOption) ∧
    (∀ args env env' k, k ∈ c.options → (∃ arg ∈ args, k.IsNamedBy arg) →
      (∀ name, name ≠ k.envVariable → env name = env' name) →
      c.parse args env = c.parse args env') ∧
    ∀ given env, (∀ g ∈ given, c.Takes g.1) → .port ∈ given.map (·.1) → ∀ cfg,
      c.parse (arguments given) env = .ok cfg ↔
        ∃ (lists : List (List UInt16)) (base : Config),
          (textsOf .port given).Forall₂ (fun text ports => Key.port.Reads [text] ports) lists ∧
          c.parse (arguments (given.filter (·.1 ≠ .port))) (env.without .port) = .ok base ∧
          cfg = base.withPorts lists.flatten := by
  refine ⟨fun texts given env h cfg => h.parse_eq_ok, ?_, ?_, ?_⟩
  · intro texts given given' env env' h h'
    exact toOption_eq fun cfg => h.parse_eq_ok.trans h'.parse_eq_ok.symm
  · intro args env env' k hk hn he
    exact parse_shadowed hk hn he
  · intro given env hg hp cfg
    exact parse_ports hg hp

/-- An environment in which the variables of options are set. -/
def variablesOf (given : List (Key × String)) : Environment := fun name =>
  (given.map fun g => (g.1.envVariable, g.2)).lookup name

/-- What is needed as arguments and the rest by variables, and the other way round; and then ports
in two arguments, with a variable that cannot be read. -/
theorem split_sample_agrees :
    let needed := [(Key.applicationName, "app"), (Key.collectorUrl, "http://c")]
    let more := [(Key.agentIp, "::1"), (Key.port, "80,443")]
    let texts : Key → Option String := fun k => (needed ++ more).lookup k
    let ports := (Key.port, "80,443") :: needed ++ [(Key.port, "8080")]
    let read : Config :=
      { collector := { url := "http://c" }
        identity := { applicationName := "app", ports := [80, 443, 8080] }
        settings := {}
        logLevel := defaultLogLevel
        logFormat := defaultLogFormat }
    Command.reporting.Gives texts needed (variablesOf more) ∧
      Command.reporting.Gives texts more (variablesOf needed) ∧
      (Command.reporting.parse (arguments needed) (variablesOf more)).toOption =
        (Command.reporting.parse (arguments more) (variablesOf needed)).toOption ∧
      Command.reporting.parse (arguments ports) (variablesOf [(.port, "none")]) =
        Command.reporting.parse (arguments ports) (variablesOf []) ∧
      Command.reporting.parse (arguments ports) (variablesOf []) = .ok read := by
  intro needed more texts ports read
  have first : Command.reporting.Gives texts needed (variablesOf more) :=
    ⟨by intro k; cases k <;> decide, by decide, by decide, by decide⟩
  have second : Command.reporting.Gives texts more (variablesOf needed) :=
    ⟨by intro k; cases k <;> decide, by decide, by decide, by decide⟩
  obtain ⟨-, agree, shadowed, added⟩ := flags_and_variables_agree Command.reporting
  have named : ∃ arg ∈ arguments ports, Key.port.IsNamedBy arg :=
    ⟨_, List.mem_cons_self, .inr ⟨"80,443", rfl⟩⟩
  have other : ∀ name, name ≠ Key.port.envVariable →
      variablesOf [(.port, "none")] name = variablesOf [] name := by
    intro name h
    have unlike : (name == Key.port.envVariable) = false := by simpa using h
    simp [variablesOf, unlike]
  refine ⟨first, second, agree _ _ _ _ _ first second,
    shadowed _ _ _ .port (by decide) named other, (added _ _ (by decide) (by decide) _).mpr ?_⟩
  refine ⟨[[80, 443], [8080]], read.withPorts [], ?_, rfl, rfl⟩
  exact .cons (.cons rfl (.cons rfl .nil)) (.cons (.cons rfl .nil) .nil)

end Heartbeat.CommandLine
