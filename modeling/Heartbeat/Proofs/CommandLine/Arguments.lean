import Heartbeat.CommandLine.Parse
import Mathlib.Data.List.Nodup
import Mathlib.Data.List.TakeWhile

/-!
# Heartbeat.Proofs.CommandLine.Arguments

What is taken from the arguments of a command line.

* `Scan.step_argument` — an argument of an option with its value gives the option that value.
* `Scan.Holds`         — an option that an argument names is given, or will be when it is settled.
* `parse_shadowed`     — so its variable has no say.
-/

namespace Heartbeat.CommandLine

theorem bind_eq_ok {ε α β : Type} {x : Except ε α} {f : α → Except ε β} {b : β} :
    x >>= f = .ok b ↔ ∃ a, x = .ok a ∧ f a = .ok b := by
  cases x <;> simp [bind, Except.bind]

/-! ## Options by their names -/

namespace Key

theorem mem_agent (k : Key) : k ∈ Command.agent.options := by
  cases k <;> decide

theorem name_inj {j k : Key} (h : j.name = k.name) : j = k :=
  List.inj_on_of_nodup_map (f := Key.name) (by decide) j.mem_agent k.mem_agent h

theorem envVariable_inj {j k : Key} (h : j.envVariable = k.envVariable) : j = k :=
  List.inj_on_of_nodup_map (f := Key.envVariable) (by decide) j.mem_agent k.mem_agent h

theorem name_noEquals (k : Key) : ∀ c ∈ k.name.toList, decide (c ≠ '=') = true := by
  rw [← List.all_eq_true]
  cases k <;> decide

theorem name_nonempty (k : Key) : k.name.toList ≠ [] := by
  cases k <;> decide

/-- The argument that gives an option a text. -/
def argument (k : Key) (text : String) : String := "--" ++ k.name ++ "=" ++ text

/-- Whether an argument names an option, with a value attached or without. -/
def IsNamedBy (k : Key) (arg : String) : Prop :=
  arg = "--" ++ k.name ∨ ∃ text, arg = k.argument text

end Key

theorem Command.find?_name {c : Command} {k : Key} (hk : k ∈ c.options) :
    c.find? k.name = some k := by
  have found : (c.options.find? (·.name = k.name)).isSome := by
    rw [List.find?_isSome]
    exact ⟨k, hk, by simp⟩
  obtain ⟨j, hj⟩ := Option.isSome_iff_exists.mp found
  have same : j.name = k.name := by simpa using List.find?_some hj
  rw [Command.find?, hj, Key.name_inj same]

/-! ## Values -/

theorem mapM_eq_ok_iff {ε α β : Type} {f : α → Except ε β} {xs : List α} {ys : List β} :
    xs.mapM f = .ok ys ↔ xs.Forall₂ (f · = .ok ·) ys := by
  induction xs generalizing ys with
  | nil => simp [pure, Except.pure, eq_comm]
  | cons x xs ih =>
    rw [List.mapM_cons, List.forall₂_cons_left_iff]
    simp only [bind_eq_ok, ih, pure, Except.pure, Except.ok.injEq]
    constructor
    · rintro ⟨y, hy, zs, hzs, rfl⟩
      exact ⟨y, zs, hy, hzs, rfl⟩
    · rintro ⟨y, zs, hy, hzs, rfl⟩
      exact ⟨y, hy, zs, hzs, rfl⟩

namespace Key

/-- Which values texts give an option: one for each piece of each text, in their order. -/
def Reads (k : Key) (texts : List String) (vs : List k.Value) : Prop :=
  (texts.flatMap k.pieces).Forall₂ (k.kind.read · = .ok ·) vs

variable {k : Key} {text : String} {texts texts' : List String} {vs ws : List k.Value}

theorem readPiece_eq_ok {piece : String} {v : k.Value} :
    k.readPiece piece = .ok v ↔ k.kind.read piece = .ok v := by
  rw [readPiece]
  cases k.kind.read piece <;> simp

theorem mapM_readPiece : (k.pieces text).mapM k.readPiece = .ok vs ↔ k.Reads [text] vs := by
  rw [mapM_eq_ok_iff, Reads, List.flatMap_singleton]
  simp only [readPiece_eq_ok]

theorem pieces_ne_nil (k : Key) (text : String) : k.pieces text ≠ [] := by
  rw [pieces]
  split
  · simp [List.splitOn_ne_nil]
  · simp

theorem reads_nil : k.Reads [] vs ↔ vs = [] := by
  simp [Reads]

theorem Reads.ne_nil (h : k.Reads (text :: texts) vs) : vs ≠ [] := by
  rintro rfl
  simp [Reads, pieces_ne_nil] at h

theorem reads_append :
    k.Reads (texts ++ texts') vs ↔
      ∃ us ws, k.Reads texts us ∧ k.Reads texts' ws ∧ vs = us ++ ws := by
  simp only [Reads, List.flatMap_append]
  constructor
  · intro h
    have front := List.forall₂_take (texts.flatMap k.pieces).length h
    have back := List.forall₂_drop (texts.flatMap k.pieces).length h
    rw [List.take_left] at front
    rw [List.drop_left] at back
    exact ⟨_, _, front, back, (List.take_append_drop _ vs).symm⟩
  · rintro ⟨us, ws, hu, hw, rfl⟩
    exact List.rel_append hu hw

end Key

namespace Matches

variable {m m' : Matches} {j k : Key} {text : String}

@[simp] theorem set_self (m : Matches) (k : Key) (vs : List k.Value) : m.set k vs k = vs := by
  simp [set]

theorem set_other (m : Matches) (vs : List k.Value) (h : j ≠ k) : m.set k vs j = m j := by
  simp [set, h]

theorem eq_set_iff {vs : List k.Value} : m' = m.set k vs ↔ m' k = vs ∧ ∀ j, j ≠ k → m' j = m j := by
  constructor
  · rintro rfl
    exact ⟨set_self m k vs, fun _ h => set_other m vs h⟩
  · rintro ⟨here, others⟩
    funext j
    by_cases h : j = k
    · subst h
      rw [here, set_self]
    · rw [others j h, set_other m vs h]

theorem set_same (m : Matches) (k : Key) : m.set k (m k) = m :=
  (eq_set_iff.mpr ⟨rfl, fun _ _ => rfl⟩).symm

theorem has_iff : m.has k = true ↔ m k ≠ [] := by
  simp [has]

theorem accept_eq_ok :
    m.accept k text = .ok m' ↔
      (m.has k = true → k.isList = true) ∧
        ∃ vs, k.Reads [text] vs ∧ m' = m.set k (m k ++ vs) := by
  rw [accept]
  split
  · rename_i repeated
    simp only [reduceCtorEq, false_iff, not_and]
    intro h
    exact absurd (h repeated.1) repeated.2
  · rename_i h
    have once : m.has k = true → k.isList = true := fun has => by
      by_contra hl
      exact h ⟨has, hl⟩
    simp only [bind_eq_ok, Key.mapM_readPiece, pure, Except.pure, Except.ok.injEq]
    constructor
    · rintro ⟨vs, hv, rfl⟩
      exact ⟨once, vs, hv, rfl⟩
    · rintro ⟨-, vs, hv, rfl⟩
      exact ⟨vs, hv, rfl⟩

theorem has_of_accept (h : m.accept j text = .ok m') (hk : m.has k = true ∨ k = j) :
    m'.has k = true := by
  obtain ⟨-, vs, hv, rfl⟩ := accept_eq_ok.mp h
  rw [has_iff]
  by_cases same : k = j
  · subst same
    simp [hv.ne_nil]
  · rw [set_other m _ same]
    exact has_iff.mp (hk.resolve_right same)

end Matches

/-! ## Single arguments -/

namespace Scan

variable {c : Command} {s s' : Scan} {j k : Key} {arg text : String}

theorem toList_named (k : Key) : ("--" ++ k.name).toList = '-' :: '-' :: k.name.toList := by
  simp

theorem toList_argument (k : Key) (text : String) :
    (k.argument text).toList = '-' :: '-' :: (k.name.toList ++ '=' :: text.toList) := by
  simp [Key.argument]

theorem step_long {cs : List Char} (hl : s.literal = false) (ha : arg.toList = '-' :: '-' :: cs)
    (hc : cs ≠ []) :
    s.step c arg =
      match cs.dropWhile (· ≠ '=') with
      | [] => s.long c (String.ofList (cs.takeWhile (· ≠ '='))) none
      | _ :: value =>
        s.long c (String.ofList (cs.takeWhile (· ≠ '='))) (some (String.ofList value)) := by
  cases cs with
  | nil => exact absurd rfl hc
  | cons d cs =>
    rw [step, hl, ha]
    rfl

theorem step_named (hl : s.literal = false) (k : Key) :
    s.step c ("--" ++ k.name) = s.long c k.name none := by
  rw [step_long hl (toList_named k) k.name_nonempty,
    List.dropWhile_eq_nil_iff.mpr k.name_noEquals, List.takeWhile_eq_self_iff.mpr k.name_noEquals,
    String.ofList_toList]

theorem step_argument (hl : s.literal = false) (k : Key) (text : String) :
    s.step c (k.argument text) = s.long c k.name (some text) := by
  rw [step_long hl (toList_argument k text) (by simp), List.dropWhile_append_of_pos k.name_noEquals,
    List.takeWhile_append_of_pos k.name_noEquals]
  simp

/-- Whether an option is given, or will be once what is pending is read. -/
def Holds (k : Key) (s : Scan) : Prop := s.given.has k = true ∨ ∃ v, s.pending = some (k, v)

theorem settle_has (h : s.settle = .ok s') (hk : s.Holds k) : s'.given.has k = true := by
  rw [settle] at h
  split at h
  · rename_i none
    cases h
    rcases hk with hk | ⟨v, hv⟩
    · exact hk
    · rw [none] at hv
      cases hv
  · cases h
  · rename_i j text pending
    obtain ⟨m, hm, hs⟩ := bind_eq_ok.mp h
    cases hs
    apply Matches.has_of_accept hm
    rcases hk with hk | ⟨v, hv⟩
    · exact .inl hk
    · rw [pending] at hv
      cases hv
      exact .inr rfl

theorem take_has (h : s.take j text = .ok s') (hk : s.Holds k ∨ k = j) :
    s'.given.has k = true := by
  obtain ⟨t, ht, h⟩ := bind_eq_ok.mp h
  obtain ⟨m, hm, hs⟩ := bind_eq_ok.mp h
  cases hs
  exact Matches.has_of_accept hm (hk.imp_left (settle_has ht))

theorem ask_error (e : ParseError) : s.ask e ≠ .ok s' := by
  intro h
  obtain ⟨_, -, h⟩ := bind_eq_ok.mp h
  cases h

/-- An option that is named is held, and what was held before is too. -/
theorem long_holds {name : String} {value : Option String} (h : s.long c name value = .ok s')
    (hk : s.Holds k ∨ k ∈ c.options ∧ name = k.name) : s'.Holds k := by
  have named {j : Key} (found : c.find? name = some j) : s.Holds k ∨ k = j := by
    refine hk.imp_right ?_
    rintro ⟨hc, rfl⟩
    rw [Command.find?_name hc] at found
    exact Option.some.inj found
  unfold long at h
  split at h
  · rename_i j v found
    split at h
    · cases h
    · exact .inl (take_has h (named found))
  · rename_i j found
    split at h
    · exact .inl (take_has h (named found))
    · obtain ⟨t, ht, hs⟩ := bind_eq_ok.mp h
      cases hs
      rcases named found with hk | rfl
      · have given : t.given.has k = true := settle_has ht hk
        exact .inl given
      · exact .inr ⟨none, rfl⟩
  · split at h
    · split at h
      · cases h
      · exact absurd h (ask_error _)
    · cases h

theorem plain_holds (h : s.plain arg = .ok s') (hk : s.Holds k) : s'.Holds k := by
  rw [plain] at h
  split at h
  · rename_i j pending
    cases h
    rcases hk with hk | ⟨v, hv⟩
    · exact .inl hk
    · rw [pending] at hv
      cases hv
      exact .inr ⟨_, rfl⟩
  · cases h

theorem short_error (letter : Char) : s.short c letter ≠ .ok s' := by
  rw [short]
  split
  · exact ask_error _
  · split
    · exact ask_error _
    · simp

theorem step_holds (h : s.step c arg = .ok s') (hk : s.Holds k) : s'.Holds k := by
  rw [step] at h
  split at h
  · cases h
  · split at h
    · cases h
      exact hk
    · split at h
      · exact long_holds h (.inl hk)
      · exact long_holds h (.inl hk)
    · exact absurd h (short_error _)
    · exact plain_holds h hk

theorem step_holds_named (h : s.step c arg = .ok s') (hk : k ∈ c.options) (ha : k.IsNamedBy arg) :
    s'.Holds k := by
  have open' : s.literal = false := by
    cases hl : s.literal with
    | false => rfl
    | true => rw [step, hl] at h; cases h
  rcases ha with rfl | ⟨text, rfl⟩
  · rw [step_named open' k] at h
    exact long_holds h (.inr ⟨hk, rfl⟩)
  · rw [step_argument open' k text] at h
    exact long_holds h (.inr ⟨hk, rfl⟩)

theorem run_holds {args : List String} (h : args.foldlM (step c) s = .ok s') (hc : k ∈ c.options)
    (hk : s.Holds k ∨ ∃ arg ∈ args, k.IsNamedBy arg) : s'.Holds k := by
  induction args generalizing s with
  | nil =>
    cases h
    exact hk.resolve_right (by simp)
  | cons arg args ih =>
    rw [List.foldlM_cons] at h
    obtain ⟨t, ht, h⟩ := bind_eq_ok.mp h
    apply ih h
    rcases hk with hk | ⟨a, ha, hn⟩
    · exact .inl (step_holds ht hk)
    · rcases List.mem_cons.mp ha with rfl | ha
      · exact .inl (step_holds_named ht hc hn)
      · exact .inr ⟨a, ha, hn⟩

end Scan

/-! ## Variables -/

theorem Matches.fill_has {env : Environment} {m m' : Matches} {j k : Key}
    (h : m.fill env j = .ok m') (hk : m.has k = true) : m'.has k = true := by
  rw [fill] at h
  split at h
  · cases h
    exact hk
  · split at h
    · exact has_of_accept h (.inl hk)
    · cases h
      exact hk

/-- The variable of an option that is given is not looked at. -/
theorem Matches.foldlM_fill_congr {env env' : Environment} {k : Key}
    (he : ∀ name, name ≠ k.envVariable → env name = env' name) (ks : List Key) {m : Matches}
    (hk : m.has k = true) : ks.foldlM (fill env) m = ks.foldlM (fill env') m := by
  induction ks generalizing m with
  | nil => rfl
  | cons j ks ih =>
    have same : m.fill env j = m.fill env' j := by
      by_cases hj : j = k
      · subst hj
        rw [fill, fill, if_pos hk, if_pos hk]
      · rw [fill, fill, he _ fun h => hj (Key.envVariable_inj h)]
    rw [List.foldlM_cons, List.foldlM_cons, same]
    cases hm : m.fill env' j with
    | error e => rfl
    | ok n => exact ih (fill_has hm hk)

/-- So it makes no difference what the variable of an option is that an argument names. -/
theorem parse_shadowed {c : Command} {args : List String} {env env' : Environment} {k : Key}
    (hc : k ∈ c.options) (hk : ∃ arg ∈ args, k.IsNamedBy arg)
    (he : ∀ name, name ≠ k.envVariable → env name = env' name) :
    c.parse args env = c.parse args env' := by
  rw [Command.parse, Command.parse]
  cases hs : args.foldlM (Scan.step c) {} with
  | error e => rfl
  | ok s =>
    cases ht : s.settle with
    | error e => simp [bind, Except.bind, ht]
    | ok t =>
      have has := Scan.settle_has ht (Scan.run_holds hs hc (.inr hk))
      simp only [bind, Except.bind, ht, Matches.foldlM_fill_congr he c.options has]

end Heartbeat.CommandLine
