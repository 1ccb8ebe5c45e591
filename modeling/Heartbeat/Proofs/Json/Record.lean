import Heartbeat.Proofs.Json.Kind

/-!
# Heartbeat.Proofs.Json.Record

A record is read from the texts that the grammar gives it, and from no others
(`Schema.read_eq_ok_iff`).

The members of an object are followed one by one through the values met so far (`Fills`); field by
field, that is the same as looking up the members with the name of the field.
-/

namespace Heartbeat.Json

/-! ## Members -/

/-- A member gives its value to the first field of its name; no other field changes. -/
inductive Stores (key : String) (v : Bytes) : (fs : List Field) → Slots fs → Slots fs → Prop where
  | other : Value v → Stores key v [] () ()
  | here {f : Field} {fs : List Field} {vs : Slots fs} {x : f.kind.Value} :
      f.name = key → f.kind.Spells v x → Stores key v (f :: fs) (none, vs) (some x, vs)
  | there {f : Field} {fs : List Field} {a : Option f.kind.Value} {vs ws : Slots fs} :
      f.name ≠ key → Stores key v fs vs ws → Stores key v (f :: fs) (a, vs) (a, ws)

theorem readMember_sound {key : String} {fs : List Field} {vs ws : Slots fs} {s r : Bytes}
    (h : readMember key fs vs s = .ok (ws, r)) :
    ∃ w w' v, Blank w ∧ Blank w' ∧ Stores key v fs vs ws ∧
      s = w ++ ':'.toUInt8 :: (w' ++ (v ++ r)) := by
  induction fs with
  | nil =>
    simp only [readMember] at h
    split at h
    · cases h
    · rename_i t ht
      obtain ⟨w, hw, rfl⟩ := expectColon_eq_ok.mp ht
      have hs : (skipValue t).map ((), ·) = .ok ((), r) := h
      obtain ⟨w', v, hw', hv, rfl⟩ := skipValue_exact.sound hs
      exact ⟨w, w', v, hw, hw', .other hv, rfl⟩
  | cons f fs ih =>
    obtain ⟨a, vs⟩ := vs
    simp only [readMember] at h
    split at h
    · rename_i hk
      split at h
      · cases h
      · split at h
        · cases h
        · rename_i t ht
          obtain ⟨w, hw, rfl⟩ := expectColon_eq_ok.mp ht
          obtain ⟨⟨x, _⟩, hx, he⟩ := except_map_eq_ok.mp h
          cases he
          obtain ⟨w', v, hw', hv, rfl⟩ := f.kind.exact.sound hx
          exact ⟨w, w', v, hw, hw', .here hk hv, rfl⟩
    · rename_i hk
      obtain ⟨⟨us, _⟩, hu, he⟩ := except_map_eq_ok.mp h
      cases he
      obtain ⟨w, w', v, hw, hw', hv, rfl⟩ := ih hu
      exact ⟨w, w', v, hw, hw', .there hk hv, rfl⟩

theorem readMember_complete {key : String} {fs : List Field} {vs ws : Slots fs} {v w w' r : Bytes}
    (h : Stores key v fs vs ws) (hw : Blank w) (hw' : Blank w') (hr : Ends r) :
    readMember key fs vs (w ++ ':'.toUInt8 :: (w' ++ (v ++ r))) = .ok (ws, r) := by
  have hc : expectColon (w ++ ':'.toUInt8 :: (w' ++ (v ++ r))) = .ok (w' ++ (v ++ r)) :=
    expectColon_eq_ok.mpr ⟨w, hw, rfl⟩
  induction h with
  | other hv =>
    simp only [readMember, hc]
    exact skipValue_exact.complete (x := ()) hw' hv hr
  | @here f fs vs x hk hv =>
    simp only [readMember, if_pos hk, hc, f.kind.exact.complete hw' hv hr]
    rfl
  | there hk _ ih =>
    simp only [readMember, if_neg hk, ih]
    rfl

/-- What members do one after the other. -/
inductive Fills (fs : List Field) : List (String × Bytes) → Slots fs → Slots fs → Prop where
  | nil {vs : Slots fs} : Fills fs [] vs vs
  | cons {key : String} {v : Bytes} {ms : List (String × Bytes)} {vs ws us : Slots fs} :
      Stores key v fs vs ws → Fills fs ms ws us → Fills fs ((key, v) :: ms) vs us

theorem readMembersFrom_sound {fs : List Field} {fuel : Nat} {first : Bool} {vs us : Slots fs}
    {s r : Bytes} (h : readMembersFrom fs fuel first vs s = .ok (us, r)) :
    ∃ c ms t, Items memberLead first c ms ∧ Fills fs ms vs us ∧ r = '\x7d'.toUInt8 :: t ∧
      s = c ++ r := by
  induction fuel generalizing first vs s with
  | zero => cases h
  | succ fuel ih =>
    simp only [readMembersFrom] at h
    split at h
    · cases h
    · rename_i u hn
      cases h
      obtain ⟨w, t, hw, rfl, rfl⟩ := nextMember_eq_close.mp hn
      exact ⟨w, [], t, items_nil.mpr hw, .nil, rfl, rfl⟩
    · rename_i u hn
      obtain ⟨p, w, hp, hw, rfl⟩ := nextMember_eq_item.mp hn
      split at h
      · cases h
      · rename_i key t hk
        obtain ⟨q, rfl, hq⟩ := scanText_eq_ok.mp hk
        split at h
        · cases h
        · rename_i ws u hm
          obtain ⟨w₁, w₂, v, hw₁, hw₂, hv, rfl⟩ := readMember_sound hm
          obtain ⟨c, ms, t, hc, hms, rfl, rfl⟩ := ih h
          have lead : memberLead _ key := ⟨w, q, w₁, hw, hq, hw₁, rfl⟩
          exact ⟨_, (key, v) :: ms, t, items_cons.mpr ⟨p, _, w₂, c, hp, lead, hw₂, hc, rfl⟩,
            .cons hv hms, rfl, by simp⟩

theorem readMembersFrom_complete {fs : List Field} {fuel : Nat} {first : Bool}
    {vs us : Slots fs} {c : Bytes} {ms : List (String × Bytes)}
    (hc : Items memberLead first c ms) (hms : Fills fs ms vs us) (hf : ms.length < fuel)
    (t : Bytes) :
    readMembersFrom fs fuel first vs (c ++ '\x7d'.toUInt8 :: t) =
      .ok (us, '\x7d'.toUInt8 :: t) := by
  induction fuel generalizing first vs c ms with
  | zero => omega
  | succ fuel ih =>
    cases hms with
    | nil =>
      have hn : nextMember first (c ++ '\x7d'.toUInt8 :: t) = .ok (.close ('\x7d'.toUInt8 :: t)) :=
        nextMember_eq_close.mpr ⟨c, t, items_nil.mp hc, rfl, rfl⟩
      simp [readMembersFrom, hn]
    | @cons key v ms _ ws _ hv hms =>
      obtain ⟨p, _, w₂, c', hp, ⟨w, q, w₁, hw, hq, hw₁, rfl⟩, hw₂, hc', rfl⟩ := items_cons.mp hc
      have hn : nextMember first (p ++ (w ++ '"'.toUInt8 :: (q ++ '"'.toUInt8 ::
          (w₁ ++ ':'.toUInt8 :: (w₂ ++ (v ++ (c' ++ '\x7d'.toUInt8 :: t))))))) = .ok (.item _) :=
        nextMember_eq_item.mpr ⟨p, w, hp, hw, rfl⟩
      have hk : scanText (q ++ '"'.toUInt8 :: (w₁ ++ ':'.toUInt8 ::
          (w₂ ++ (v ++ (c' ++ '\x7d'.toUInt8 :: t))))) = .ok (key, _) :=
        scanText_eq_ok.mpr ⟨q, rfl, hq⟩
      have hm := readMember_complete hv hw₁ hw₂ (hc'.ends (.inr rfl) t)
      have hrest := @ih false ws c' ms hc' hms (by simpa using hf)
      simp only [List.append_assoc, List.cons_append, List.nil_append]
      simp only [readMembersFrom, hn, hk, hm, hrest]

/-! ## Fields and their members -/

/-- What members do to the value of one field. -/
def Field.Filled (f : Field) (ms : List (String × Bytes)) (a b : Option f.kind.Value) : Prop :=
  (valuesOf f.name ms = [] ∧ b = a) ∨
    (a = none ∧ ∃ v x, valuesOf f.name ms = [v] ∧ f.kind.Spells v x ∧ b = some x)

/-- The members without those of a name. -/
def without (name : String) (ms : List (String × Bytes)) : List (String × Bytes) :=
  ms.filter (·.1 != name)

theorem fills_nil {ms : List (String × Bytes)} {vs us : Slots []} :
    Fills [] ms vs us ↔ ∀ p ∈ ms, Value p.2 := by
  induction ms with
  | nil => exact ⟨by simp, fun _ => .nil⟩
  | cons p ms ih =>
    rw [List.forall_mem_cons, ← ih]
    constructor
    · rintro (_ | ⟨⟨hv⟩, hms⟩)
      exact ⟨hv, hms⟩
    · rintro ⟨hv, hms⟩
      exact .cons (.other hv) hms

theorem fills_cons {f : Field} {fs : List Field} {ms : List (String × Bytes)}
    {a b : Option f.kind.Value} {vs us : Slots fs} :
    Fills (f :: fs) ms (a, vs) (b, us) ↔
      f.Filled ms a b ∧ Fills fs (without f.name ms) vs us := by
  induction ms generalizing a vs with
  | nil =>
    constructor
    · rintro ⟨⟩
      exact ⟨.inl ⟨rfl, rfl⟩, .nil⟩
    · rintro ⟨⟨-, rfl⟩ | ⟨-, v, x, hv, -⟩, ⟨⟩⟩
      · exact .nil
      · cases hv
  | cons p ms ih =>
    obtain ⟨key, v⟩ := p
    by_cases hk : f.name = key
    · -- The field takes this member, so it has no other of its name.
      have hvalues : valuesOf f.name ((key, v) :: ms) = v :: valuesOf f.name ms := by
        simp [valuesOf, hk]
      have hrest : without f.name ((key, v) :: ms) = without f.name ms := by
        simp [without, hk]
      rw [hrest]
      constructor
      · rintro (_ | ⟨_ | ⟨_, hx⟩ | ⟨hk', _⟩, hms⟩)
        · obtain ⟨⟨hnone, rfl⟩ | ⟨h, -⟩, hrest⟩ := ih.mp hms
          · exact ⟨.inr ⟨rfl, v, _, by rw [hvalues, hnone], hx, rfl⟩, hrest⟩
          · cases h
        · exact absurd hk hk'
      · rintro ⟨⟨h, -⟩ | ⟨rfl, u, x, hu, hx, rfl⟩, hms⟩
        · rw [hvalues] at h; cases h
        · rw [hvalues] at hu
          obtain ⟨rfl, hnone⟩ := List.cons.inj hu
          exact .cons (.here hk hx) (ih.mpr ⟨.inl ⟨hnone, rfl⟩, hms⟩)
    · have hvalues : valuesOf f.name ((key, v) :: ms) = valuesOf f.name ms := by
        simp [valuesOf, Ne.symm hk]
      have hrest : without f.name ((key, v) :: ms) = (key, v) :: without f.name ms := by
        simp [without, Ne.symm hk]
      rw [hrest, Field.Filled, hvalues, ← Field.Filled]
      constructor
      · rintro (_ | ⟨_ | ⟨hk', _⟩ | ⟨_, hv⟩, hms⟩)
        · exact absurd hk' hk
        · obtain ⟨hb, hms⟩ := ih.mp hms
          exact ⟨hb, .cons hv hms⟩
      · rintro ⟨hb, _ | ⟨hv, hms⟩⟩
        exact .cons (.there hk hv) (ih.mpr ⟨hb, hms⟩)

theorem valuesOf_without {name name' : String} (h : name' ≠ name) (ms : List (String × Bytes)) :
    valuesOf name' (without name ms) = valuesOf name' ms := by
  have keep : ∀ p ∈ ms, ((p.1 == name') && (p.1 != name)) = (p.1 == name') := by
    intro p _
    by_cases hp : p.1 = name'
    · simp [hp, h]
    · simp [hp]
  rw [valuesOf, without, List.filter_filter, List.filter_congr keep, ← valuesOf]

theorem allGiven_without {name : String} {fs : List Field} (h : name ∉ fs.map (·.name))
    (ms : List (String × Bytes)) (xs : Values fs) :
    AllGiven (without name ms) fs xs ↔ AllGiven ms fs xs := by
  induction fs with
  | nil => rfl
  | cons f fs ih =>
    obtain ⟨x, xs⟩ := xs
    rw [List.map_cons, List.mem_cons, not_or] at h
    simp only [AllGiven, Field.Given, valuesOf_without (Ne.symm h.1), ih h.2]

theorem Field.given_iff {f : Field} {ms : List (String × Bytes)} {x : f.kind.Value} :
    f.Given ms x ↔ ∃ b, f.Filled ms none b ∧ b.or f.absent = some x := by
  constructor
  · rintro (⟨v, hv, hx⟩ | ⟨hv, hx⟩)
    · exact ⟨some x, .inr ⟨rfl, v, x, hv, hx, rfl⟩, rfl⟩
    · exact ⟨none, .inl ⟨hv, rfl⟩, hx⟩
  · rintro ⟨b, ⟨hv, rfl⟩ | ⟨-, v, y, hv, hy, rfl⟩, hx⟩
    · exact .inr ⟨hv, hx⟩
    · cases hx
      exact .inl ⟨v, hv, hy⟩

/-- Members that fill fields of different names are those that give the fields their values. -/
theorem fills_complete {fs : List Field} (hd : (fs.map (·.name)).Nodup)
    {ms : List (String × Bytes)} {xs : Values fs} :
    (∃ us, Fills fs ms (.empty fs) us ∧ us.complete = .ok xs) ↔
      AllGiven ms fs xs ∧ ∀ p ∈ ms, p.1 ∉ fs.map (·.name) → Value p.2 := by
  induction fs generalizing ms with
  | nil => simp [fills_nil, Slots.complete, AllGiven]
  | cons f fs ih =>
    obtain ⟨x, xs⟩ := xs
    rw [List.map_cons, List.nodup_cons] at hd
    have tail := @ih hd.2 (without f.name ms) xs
    rw [allGiven_without hd.1] at tail
    have others : (∀ p ∈ without f.name ms, p.1 ∉ fs.map (·.name) → Value p.2) ↔
        ∀ p ∈ ms, p.1 ∉ (f :: fs).map (·.name) → Value p.2 := by
      simp [without]
    rw [others] at tail
    constructor
    · rintro ⟨⟨b, us⟩, hms, hus⟩
      obtain ⟨hb, hms⟩ := fills_cons.mp hms
      simp only [Slots.complete] at hus
      split at hus
      · cases hus
      · rename_i y hy
        obtain ⟨ys, hys, he⟩ := except_map_eq_ok.mp hus
        cases he
        obtain ⟨hg, hv⟩ := tail.mp ⟨us, hms, hys⟩
        exact ⟨⟨Field.given_iff.mpr ⟨b, hb, hy⟩, hg⟩, hv⟩
    · rintro ⟨⟨hx, hg⟩, hv⟩
      obtain ⟨b, hb, hy⟩ := Field.given_iff.mp hx
      obtain ⟨us, hms, hys⟩ := tail.mpr ⟨hg, hv⟩
      exact ⟨(b, us), fills_cons.mpr ⟨hb, hms⟩, by simp [Slots.complete, hy, hys, Except.map]⟩

theorem readMembers_sound {fs : List Field} (hd : (fs.map (·.name)).Nodup) {xs : Values fs}
    {s t r : Bytes} (h : readMembers fs s = .ok (xs, t)) (ht : closeObject t = .ok r) :
    ∃ c ms, Content memberLead c ms ∧ AllGiven ms fs xs ∧
      (∀ p ∈ ms, p.1 ∉ fs.map (·.name) → Value p.2) ∧ s = c ++ '\x7d'.toUInt8 :: r := by
  unfold readMembers at h
  split at h
  · cases h
  · rename_i us u hu
    obtain ⟨c, ms, u, hc, hms, rfl, rfl⟩ := readMembersFrom_sound hu
    split at h
    · rename_i hxs
      cases h
      cases ht
      obtain ⟨hg, hv⟩ := (fills_complete hd).mp ⟨us, hms, hxs⟩
      exact ⟨c, ms, hc, hg, hv, rfl⟩
    · cases h

theorem readMembers_complete {fs : List Field} (hd : (fs.map (·.name)).Nodup) {xs : Values fs}
    {c : Bytes} {ms : List (String × Bytes)} (hc : Content memberLead c ms)
    (hg : AllGiven ms fs xs) (hv : ∀ p ∈ ms, p.1 ∉ fs.map (·.name) → Value p.2) (r : Bytes) :
    readMembers fs (c ++ '\x7d'.toUInt8 :: r) = .ok (xs, '\x7d'.toUInt8 :: r) := by
  obtain ⟨us, hms, hxs⟩ := (fills_complete hd).mpr ⟨hg, hv⟩
  have hc : Items memberLead true c ms := hc
  have few := hc.length_le
  have enough : ms.length < (c ++ '\x7d'.toUInt8 :: r).length + 1 := by simp; omega
  have hread := readMembersFrom_complete hc hms enough r
  simp only [readMembers, hread, hxs]

/-! ## Elements -/

/-- At the end of a list the fields that are left take the values they have when absent. -/
theorem readElements_end {expected : String} {fs : List Field} {taken : Nat} {xs : Values fs}
    {s r : Bytes} :
    readElements expected fs taken (']'.toUInt8 :: s) = .ok (xs, r) ↔
      r = ']'.toUInt8 :: s ∧ Listed fs xs [] := by
  induction fs with
  | nil =>
    simp only [readElements, Listed, and_true]
    exact ⟨fun h => by cases h; rfl, by rintro rfl; rfl⟩
  | cons f fs ih =>
    obtain ⟨x, xs⟩ := xs
    simp only [readElements, nextElement_mark, Listed]
    cases hx : f.absent with
    | none => simp
    | some y =>
      rw [except_map_eq_ok]
      constructor
      · rintro ⟨⟨ys, u⟩, hys, he⟩
        cases he
        obtain ⟨hu, hl⟩ := ih.mp hys
        exact ⟨hu, rfl, hl⟩
      · rintro ⟨hr, he, hl⟩
        cases he
        exact ⟨(xs, r), ih.mpr ⟨hr, hl⟩, rfl⟩

theorem readElements_sound {expected : String} {fs : List Field} {taken : Nat} {xs : Values fs}
    {s t r : Bytes} (h : readElements expected fs taken s = .ok (xs, t)) (ht : closeList t = .ok r) :
    ∃ c items, Items elementLead (taken == 0) c items ∧ Listed fs xs (items.map (·.2)) ∧
      s = c ++ ']'.toUInt8 :: r := by
  induction fs generalizing taken s with
  | nil =>
    cases h
    obtain ⟨w, hw, rfl⟩ := closeList_eq_ok.mp ht
    exact ⟨w, [], items_nil.mpr hw, rfl, rfl⟩
  | cons f fs ih =>
    simp only [readElements] at h
    split at h
    · cases h
    · rename_i u hn
      obtain ⟨w, v, hw, rfl, rfl⟩ := nextElement_eq_close.mp hn
      have hend : readElements expected (f :: fs) taken (']'.toUInt8 :: v) = .ok (xs, t) := by
        simpa only [readElements, nextElement_mark] using h
      obtain ⟨rfl, hl⟩ := readElements_end.mp hend
      cases ht
      exact ⟨w, [], items_nil.mpr hw, hl, rfl⟩
    · rename_i u hn
      split at h
      · cases h
      · rename_i x u hx
        obtain ⟨⟨ys, _⟩, hys, he⟩ := except_map_eq_ok.mp h
        cases he
        obtain ⟨k, v, hv, rfl, item⟩ := f.kind.exact.element_sound hn hx
        obtain ⟨c, items, hc, hl, rfl⟩ := ih hys
        exact ⟨k ++ c, _, item hc, ⟨hv, hl⟩, by simp⟩

theorem readElements_complete (expected : String) {fs : List Field} (taken : Nat)
    {xs : Values fs} {c : Bytes} {items : List (Unit × Bytes)}
    (hc : Items elementLead (taken == 0) c items) (hl : Listed fs xs (items.map (·.2)))
    (r : Bytes) :
    ∃ t, readElements expected fs taken (c ++ ']'.toUInt8 :: r) = .ok (xs, t) ∧
      closeList t = .ok r := by
  induction fs generalizing taken c items with
  | nil =>
    match items, hl with
    | [], _ => exact ⟨_, rfl, closeList_eq_ok.mpr ⟨c, items_nil.mp hc, rfl⟩⟩
  | cons f fs ih =>
    obtain ⟨x, xs⟩ := xs
    match items, hl with
    | [], hl =>
      have hn : nextElement (taken == 0) (c ++ ']'.toUInt8 :: r) = .ok (.close (']'.toUInt8 :: r)) :=
        nextElement_eq_close.mpr ⟨c, r, items_nil.mp hc, rfl, rfl⟩
      have hend : readElements expected (f :: fs) taken (']'.toUInt8 :: r) =
          .ok ((x, xs), ']'.toUInt8 :: r) := readElements_end.mpr ⟨rfl, hl⟩
      refine ⟨_, ?_, closeList_mark r⟩
      simpa only [readElements, hn, nextElement_mark] using hend
    | ((), v) :: items, ⟨hv, hl⟩ =>
      obtain ⟨u, c', hn, hu, hc'⟩ := f.kind.exact.element_complete hc hv r
      obtain ⟨t, ht, hclose⟩ := ih (taken + 1) hc' hl
      exact ⟨t, by simp only [readElements, hn, hu, ht]; rfl, hclose⟩

/-! ## Records -/

theorem Schema.spells_of_read {c : Schema} (hd : (c.fields.map (·.name)).Nodup) {s : Bytes}
    {xs : Values c.fields} (h : c.read s = .ok xs) : c.Spells s xs := by
  unfold Schema.read at h
  split at h
  · cases h
  · rename_i ys r hread
    obtain ⟨_, hend, he⟩ := except_map_eq_ok.mp h
    cases he
    have hr := expectEnd_eq_ok.mp hend
    simp only [Schema.readValue] at hread
    split at hread
    · cases hread
    · rename_i b t hs
      obtain ⟨-, w, hw, rfl⟩ := skipBlanks_eq_cons.mp hs
      split at hread
      · rename_i hb
        split at hread
        · cases hread
        · rename_i ys u hu
          obtain ⟨_, hclose, he⟩ := except_map_eq_ok.mp hread
          cases he
          obtain ⟨c', items, hc', hl, rfl⟩ := readElements_sound hu hclose
          rw [hb]
          exact .list hw hr hc' hl
      · split at hread
        · rename_i hb
          split at hread
          · cases hread
          · rename_i ys u hu
            obtain ⟨_, hclose, he⟩ := except_map_eq_ok.mp hread
            cases he
            obtain ⟨c', ms, hc', hg, hv, rfl⟩ := readMembers_sound hd hu hclose
            rw [hb]
            exact .object hw hr hc' hg hv
        · cases hread

theorem Schema.read_of_spells {c : Schema} (hd : (c.fields.map (·.name)).Nodup) {s : Bytes}
    {xs : Values c.fields} (h : c.Spells s xs) : c.read s = .ok xs := by
  cases h with
  | @object w c' w' ms _ hw hw' hc hg hv =>
    have ht := readMembers_complete hd hc hg hv w'
    have other : '\x7b'.toUInt8 ≠ '['.toUInt8 := by decide
    simp only [Schema.read, Schema.readValue, skipBlanks_mark hw (b := '\x7b'.toUInt8)
      (by decide), other, if_false, if_true, ht, closeObject_mark]
    simp [Except.map, expectEnd_eq_ok (u := ()) |>.mpr hw']
  | @list w c' w' items _ hw hw' hc hl =>
    obtain ⟨t, ht, hclose⟩ := readElements_complete c.listTitle 0 hc hl w'
    simp only [Schema.read, Schema.readValue, skipBlanks_mark hw (b := '['.toUInt8) (by decide),
      if_true, ht, hclose]
    simp [Except.map, expectEnd_eq_ok (u := ()) |>.mpr hw']

/-- A record is read from every text that spells it, and from no other. -/
theorem Schema.read_eq_ok_iff {c : Schema} (hd : (c.fields.map (·.name)).Nodup) {s : Bytes}
    {xs : Values c.fields} : c.read s = .ok xs ↔ c.Spells s xs :=
  ⟨spells_of_read hd, read_of_spells hd⟩

end Heartbeat.Json
