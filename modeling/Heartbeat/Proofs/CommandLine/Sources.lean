import Heartbeat.Proofs.CommandLine.Arguments

/-!
# Heartbeat.Proofs.CommandLine.Sources

Which configuration a command line and an environment make, when every argument is an option with
its value.

* `Key.Accepts`     — what arguments make of the values of one option.
* `Key.Filled`      — what its variable makes of them.
* `parse_arguments` — parsing succeeds exactly if every option can read the texts it is given,
  wherever these come from.
-/

namespace Heartbeat.CommandLine

/-- The texts that are given for an option, in their order. -/
def textsOf (k : Key) (given : List (Key × String)) : List String :=
  (given.filter (·.1 = k)).map (·.2)

section TextsOf

variable {k j : Key} {text : String} {given : List (Key × String)}

theorem textsOf_cons (k : Key) (g : Key × String) (given : List (Key × String)) :
    textsOf k (g :: given) = textsOf k [g] ++ textsOf k given := by
  simp [textsOf, List.filter_cons]
  split <;> simp

theorem textsOf_self (k : Key) (text : String) : textsOf k [(k, text)] = [text] := by
  simp [textsOf]

theorem textsOf_other (h : j ≠ k) (text : String) : textsOf k [(j, text)] = [] := by
  simp [textsOf, h]

theorem textsOf_eq_nil : textsOf k given = [] ↔ k ∉ given.map (·.1) := by
  rw [textsOf, List.map_eq_nil_iff, List.filter_eq_nil_iff, List.mem_map]
  constructor
  · rintro h ⟨g, hg, rfl⟩
    exact absurd (h g hg) (by simp)
  · intro h g hg
    simpa using fun same => h ⟨g, hg, same⟩

theorem textsOf_of_mem (hn : (given.map (·.1)).Nodup) (h : (k, text) ∈ given) :
    textsOf k given = [text] := by
  induction given with
  | nil => cases h
  | cons g given ih =>
    rw [List.map_cons, List.nodup_cons] at hn
    rw [textsOf_cons]
    rcases List.mem_cons.mp h with rfl | h
    · rw [textsOf_self, textsOf_eq_nil.mpr hn.1, List.append_nil]
    · have other : g.1 ≠ k := fun same => hn.1 (same ▸ List.mem_map.mpr ⟨_, h, rfl⟩)
      rw [textsOf_other other, ih hn.2 h, List.nil_append]

end TextsOf

/-! ## Arguments -/

namespace Key

variable {k : Key} {old new : List k.Value} {texts texts' : List String}

/-- An option accepts texts behind the values it has: one that is no list takes one text at most,
and it reads them all. -/
structure Accepts (k : Key) (old : List k.Value) (texts : List String) (new : List k.Value) :
    Prop where
  once : k.isList = false → (old ≠ [] → texts = []) ∧ texts.length ≤ 1
  reads : ∃ vs, k.Reads texts vs ∧ new = old ++ vs

theorem accepts_nil : k.Accepts old [] new ↔ new = old := by
  constructor
  · rintro ⟨-, vs, hv, rfl⟩
    rw [reads_nil.mp hv, List.append_nil]
  · rintro rfl
    exact ⟨fun _ => ⟨fun _ => rfl, by simp⟩, [], reads_nil.mpr rfl, by simp⟩

theorem accepts_first :
    k.Accepts [] texts new ↔ (k.isList = false → texts.length ≤ 1) ∧ k.Reads texts new := by
  constructor
  · rintro ⟨once, vs, hv, rfl⟩
    exact ⟨fun hl => (once hl).2, hv⟩
  · rintro ⟨once, hv⟩
    exact ⟨fun hl => ⟨fun ho => absurd rfl ho, once hl⟩, new, hv, rfl⟩

theorem accepts_append :
    k.Accepts old (texts ++ texts') new ↔
      ∃ mid, k.Accepts old texts mid ∧ k.Accepts mid texts' new := by
  constructor
  · rintro ⟨once, vs, hv, rfl⟩
    obtain ⟨us, ws, hu, hw, rfl⟩ := reads_append.mp hv
    refine ⟨old ++ us, ⟨fun hl => ?_, us, hu, rfl⟩, fun hl => ?_, ws, hw, by simp⟩
    · obtain ⟨first, few⟩ := once hl
      refine ⟨fun ho => (List.append_eq_nil_iff.mp (first ho)).1, ?_⟩
      rw [List.length_append] at few
      omega
    · obtain ⟨first, few⟩ := once hl
      rw [List.length_append] at few
      refine ⟨fun hm => ?_, by omega⟩
      by_cases ho : old = []
      · have some : us ≠ [] := by simpa [ho] using hm
        have one : texts ≠ [] := by
          rintro rfl
          exact some (reads_nil.mp hu)
        have := List.length_pos_iff.mpr one
        exact List.length_eq_zero_iff.mp (by omega)
      · exact (List.append_eq_nil_iff.mp (first ho)).2
  · rintro ⟨mid, ⟨once, us, hu, rfl⟩, once', ws, hw, rfl⟩
    refine ⟨fun hl => ?_, us ++ ws, reads_append.mpr ⟨us, ws, hu, hw, rfl⟩, by simp⟩
    obtain ⟨first, few⟩ := once hl
    obtain ⟨second, few'⟩ := once' hl
    refine ⟨fun ho => ?_, ?_⟩
    · rw [first ho, second (by simp [ho]), List.nil_append]
    · cases texts with
      | nil => simpa using few'
      | cons t ts =>
        rw [second (by simp [hu.ne_nil]), List.append_nil]
        exact few

end Key

theorem Matches.accept_iff {m m' : Matches} {j : Key} {text : String} :
    m.accept j text = .ok m' ↔ ∀ k : Key, k.Accepts (m k) (textsOf k [(j, text)]) (m' k) := by
  rw [accept_eq_ok]
  constructor
  · rintro ⟨once, vs, hv, hm⟩ k
    obtain ⟨here, others⟩ := eq_set_iff.mp hm
    by_cases h : k = j
    · subst h
      rw [textsOf_self]
      refine ⟨fun hl => ⟨fun ho => ?_, by simp⟩, vs, hv, here⟩
      rw [once (has_iff.mpr ho)] at hl
      cases hl
    · rw [textsOf_other (Ne.symm h), Key.accepts_nil]
      exact others k h
  · intro h
    have here := h j
    rw [textsOf_self] at here
    obtain ⟨once, vs, hv, hm⟩ := here
    refine ⟨fun has => ?_, vs, hv, eq_set_iff.mpr ⟨hm, fun k hk => ?_⟩⟩
    · by_contra hl
      exact absurd ((once (by simpa using hl)).1 (has_iff.mp has)) (by simp)
    · have other := h k
      rwa [textsOf_other (Ne.symm hk), Key.accepts_nil] at other

/-- Takes the texts of options, one after the other. -/
def Matches.acceptAll (m : Matches) (given : List (Key × String)) : Except ParseError Matches :=
  given.foldlM (fun m g => m.accept g.1 g.2) m

theorem Matches.acceptAll_iff {given : List (Key × String)} {m m' : Matches} :
    m.acceptAll given = .ok m' ↔ ∀ k : Key, k.Accepts (m k) (textsOf k given) (m' k) := by
  unfold acceptAll
  induction given generalizing m with
  | nil =>
    have none (k : Key) : textsOf k [] = [] := rfl
    simp only [none, Key.accepts_nil]
    constructor
    · rintro ⟨⟩ k
      rfl
    · intro h
      exact congrArg Except.ok (funext fun k => (h k).symm)
  | cons g given ih =>
    rw [List.foldlM_cons, bind_eq_ok]
    simp only [ih, accept_iff]
    constructor
    · rintro ⟨mid, front, back⟩ k
      rw [textsOf_cons, Key.accepts_append]
      exact ⟨mid k, front k, back k⟩
    · intro h
      have split (k : Key) :
          ∃ mid, k.Accepts (m k) (textsOf k [g]) mid ∧ k.Accepts mid (textsOf k given) (m' k) := by
        rw [← Key.accepts_append, ← textsOf_cons]
        exact h k
      choose mid front back using split
      exact ⟨mid, front, back⟩

/-! ## Variables -/

namespace Key

variable {k : Key} {env : Environment} {old mid new : List k.Value}

/-- What the variable makes of the values of an option: it is read if there are none yet. -/
def Filled (k : Key) (env : Environment) (old new : List k.Value) : Prop :=
  if old = [] then k.Reads (env k.envVariable).toList new else new = old

theorem filled_nil : k.Filled env [] new ↔ k.Reads (env k.envVariable).toList new := by
  simp [Filled]

theorem filled_of_ne_nil (h : old ≠ []) : k.Filled env old new ↔ new = old := by
  simp [Filled, h]

theorem Filled.trans (h : k.Filled env old mid) (h' : k.Filled env mid new) :
    k.Filled env old new := by
  by_cases ho : old = []
  · by_cases hm : mid = []
    · rwa [ho, ← hm]
    · rw [filled_of_ne_nil hm] at h'
      rwa [h']
  · rw [filled_of_ne_nil ho] at h
    rwa [← h]

theorem Filled.again (h : k.Filled env old new) : k.Filled env new new := by
  by_cases hn : new = []
  · by_cases ho : old = []
    · rwa [ho, ← hn] at h
    · rw [filled_of_ne_nil ho] at h
      exact absurd (h.symm.trans hn) ho
  · exact (filled_of_ne_nil hn).mpr rfl

end Key

namespace Matches

variable {env : Environment} {m m' : Matches} {j : Key}

theorem fill_iff :
    m.fill env j = .ok m' ↔ j.Filled env (m j) (m' j) ∧ ∀ k, k ≠ j → m' k = m k := by
  have kept : .ok m = (.ok m' : Except ParseError Matches) ↔
      m' j = m j ∧ ∀ k, k ≠ j → m' k = m k := by
    rw [← eq_set_iff, set_same, Except.ok.injEq, eq_comm]
  rw [fill]
  by_cases ho : m j = []
  · have unset : ¬m.has j = true := by rw [has_iff, not_not]; exact ho
    rw [if_neg unset, ho, Key.filled_nil]
    cases env j.envVariable with
    | none => rw [Option.toList_none, Key.reads_nil, ← ho, kept]
    | some text =>
      simp only [Option.toList_some, accept_eq_ok, ho, List.nil_append, eq_set_iff]
      constructor
      · rintro ⟨-, vs, hv, rfl, others⟩
        exact ⟨hv, others⟩
      · rintro ⟨hv, others⟩
        exact ⟨fun has => absurd has unset, m' j, hv, rfl, others⟩
  · rw [if_pos (has_iff.mpr ho), Key.filled_of_ne_nil ho, kept]

/-- Each option in question is filled, and the others are left alone. -/
theorem foldlM_fill_iff {ks : List Key} :
    ks.foldlM (fill env) m = .ok m' ↔
      (∀ k ∈ ks, k.Filled env (m k) (m' k)) ∧ ∀ k, k ∉ ks → m' k = m k := by
  induction ks generalizing m with
  | nil =>
    constructor
    · rintro ⟨⟩
      exact ⟨by simp, fun _ _ => rfl⟩
    · rintro ⟨-, others⟩
      exact congrArg Except.ok (funext fun k => (others k (by simp)).symm)
  | cons j ks ih =>
    rw [List.foldlM_cons, bind_eq_ok]
    simp only [ih, fill_iff]
    constructor
    · rintro ⟨mid, ⟨first, rest⟩, filled, others⟩
      refine ⟨fun k hk => ?_, fun k hk => ?_⟩
      · by_cases here : k = j
        · subst here
          by_cases again : k ∈ ks
          · exact first.trans (filled k again)
          · rwa [others k again]
        · rw [← rest k here]
          exact filled k ((List.mem_cons.mp hk).resolve_left here)
      · obtain ⟨other, later⟩ := not_or.mp (List.mem_cons.not.mp hk)
        rw [others k later, rest k other]
    · rintro ⟨filled, others⟩
      -- What the first option is filled with is what it has in the end.
      refine ⟨m.set j (m' j), ⟨?_, fun k hk => set_other m _ hk⟩, fun k hk => ?_, fun k hk => ?_⟩
      · rw [set_self]
        exact filled j List.mem_cons_self
      · by_cases here : k = j
        · subst here
          rw [set_self]
          exact (filled k List.mem_cons_self).again
        · rw [set_other m _ here]
          exact filled k (List.mem_cons_of_mem j hk)
      · by_cases here : k = j
        · subst here
          rw [set_self]
        · rw [set_other m _ here]
          exact others k fun h => hk ((List.mem_cons.mp h).resolve_left here)

end Matches

/-! ## Parsing -/

/-- Whether an option of a command takes a value. -/
def Command.Takes (c : Command) (k : Key) : Prop := k ∈ c.options ∧ k.kind ≠ .switch

instance (c : Command) (k : Key) : Decidable (c.Takes k) :=
  inferInstanceAs (Decidable (_ ∧ _))

/-- Arguments, each an option with its value. -/
def arguments (given : List (Key × String)) : List String := given.map fun g => g.1.argument g.2

theorem Scan.step_given {c : Command} {s : Scan} {k : Key} (hp : s.pending = none)
    (hl : s.literal = false) (hk : c.Takes k) (text : String) :
    s.step c (k.argument text) =
      (s.given.accept k text).map fun m => { s with given := m } := by
  have settled : s.settle = .ok s := by rw [settle, hp]
  have taken : s.step c (k.argument text) = s.take k text := by
    rw [step_argument hl k text]
    unfold long
    rw [Command.find?_name hk.1]
    exact if_neg hk.2
  rw [taken, take, settled]
  show (s.given.accept k text >>= fun m => .ok { s with given := m }) = _
  cases s.given.accept k text <;> rfl

theorem Scan.run_given {c : Command} {s : Scan} {given : List (Key × String)}
    (hp : s.pending = none) (hl : s.literal = false) (hg : ∀ g ∈ given, c.Takes g.1) :
    (arguments given).foldlM (step c) s =
      (s.given.acceptAll given).map fun m => { s with given := m } := by
  induction given generalizing s with
  | nil => rfl
  | cons g given ih =>
    have first := step_given hp hl (hg g List.mem_cons_self) g.2
    have rest (h : Key × String) (hh : h ∈ given) := hg h (List.mem_cons_of_mem g hh)
    rw [arguments, List.map_cons, List.foldlM_cons, first, Matches.acceptAll, List.foldlM_cons]
    cases s.given.accept g.1 g.2 with
    | error e => rfl
    | ok m => exact ih (s := { s with given := m }) hp hl rest

/-- Where the texts of an option come from: the arguments, or else its variable. -/
def Command.sources (c : Command) (given : List (Key × String)) (env : Environment) (k : Key) :
    List String :=
  if textsOf k given ≠ [] then textsOf k given
  else if k ∈ c.options then (env k.envVariable).toList
  else []

/-- The configuration that texts mean: every option reads its own. -/
def Command.Means (c : Command) (texts : Key → List String) (cfg : Config) : Prop :=
  ∃ m : Matches, (∀ k : Key, k.Reads (texts k) (m k)) ∧ m.config c = .ok cfg

section Parsing

variable {c : Command} {given : List (Key × String)} {env : Environment}

theorem reads_sources {k : Key} {new : List k.Value} :
    (k.isList = false → (textsOf k given).length ≤ 1) ∧ k.Reads (c.sources given env k) new ↔
      ∃ mid, k.Accepts [] (textsOf k given) mid ∧
        (k ∈ c.options → k.Filled env mid new) ∧ (k ∉ c.options → new = mid) := by
  simp only [Key.accepts_first, and_assoc]
  rw [Command.sources]
  by_cases hg : textsOf k given = []
  · rw [hg, if_neg (by simp)]
    simp only [Key.reads_nil, exists_and_left, exists_eq_left, Key.filled_nil]
    by_cases hc : k ∈ c.options
    · simp [hc]
    · simp [hc, Key.reads_nil]
  · have some {vs : List k.Value} (h : k.Reads (textsOf k given) vs) : vs ≠ [] := by
      cases ht : textsOf k given with
      | nil => exact absurd ht hg
      | cons t ts => exact (ht ▸ h).ne_nil
    rw [if_pos hg]
    constructor
    · rintro ⟨once, hr⟩
      exact ⟨new, once, hr, fun _ => (Key.filled_of_ne_nil (some hr)).mpr rfl, fun _ => rfl⟩
    · rintro ⟨mid, once, hr, filled, other⟩
      have same : new = mid := by
        by_cases hc : k ∈ c.options
        · exact (Key.filled_of_ne_nil (some hr)).mp (filled hc)
        · exact other hc
      exact ⟨once, same ▸ hr⟩

/-- Arguments that are options with their values are parsed exactly if no option comes twice that is
no list, and every option can read the texts it is given. -/
theorem parse_arguments (hg : ∀ g ∈ given, c.Takes g.1) {cfg : Config} :
    c.parse (arguments given) env = .ok cfg ↔
      (∀ k : Key, k.isList = false → (textsOf k given).length ≤ 1) ∧
        c.Means (c.sources given env) cfg := by
  have stages : c.parse (arguments given) env =
      Matches.empty.acceptAll given >>= fun m =>
        c.options.foldlM (Matches.fill env) m >>= fun m => m.config c := by
    rw [Command.parse, Scan.run_given rfl rfl hg]
    cases Matches.acceptAll _ given <;> rfl
  simp only [stages, bind_eq_ok, Matches.acceptAll_iff, Matches.foldlM_fill_iff]
  constructor
  · rintro ⟨mid, accepted, m, ⟨filled, others⟩, hc⟩
    have each (k : Key) := reads_sources.mpr ⟨mid k, accepted k, filled k, others k⟩
    exact ⟨fun k => (each k).1, m, fun k => (each k).2, hc⟩
  · rintro ⟨once, m, reads, hc⟩
    have each (k : Key) := reads_sources.mp ⟨once k, reads k⟩
    choose mid accepted filled others using each
    exact ⟨mid, accepted, m, ⟨filled, others⟩, hc⟩

end Parsing

end Heartbeat.CommandLine
