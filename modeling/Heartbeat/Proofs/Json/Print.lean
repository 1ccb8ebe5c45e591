import Heartbeat.Json.Print
import Heartbeat.Proofs.Json.Record

/-!
# Heartbeat.Proofs.Json.Print

What is printed for a value spells that value.

* `spelled_text`, `spelled_flag`, `spelled_word` — the values that are printed in one piece.
* `content_list`, `content_object` — items and members, with what was printed for each.
-/

namespace Heartbeat.Json

/-- The bytes of characters in a row. -/
def bytesOf (cs : List Char) : Bytes := cs.flatMap String.utf8EncodeChar

@[simp] theorem bytesOf_nil : bytesOf [] = [] := rfl

@[simp] theorem bytesOf_cons (c : Char) (cs : List Char) :
    bytesOf (c :: cs) = String.utf8EncodeChar c ++ bytesOf cs := List.flatMap_cons

@[simp] theorem bytesOf_append (cs ds : List Char) :
    bytesOf (cs ++ ds) = bytesOf cs ++ bytesOf ds := List.flatMap_append

theorem utf8_ofList (cs : List Char) : utf8 (String.ofList cs) = bytesOf cs := by
  simp [utf8, bytesOf, String.toByteArray_ofList, List.utf8Encode]

theorem bytesOf_toList (s : String) : bytesOf s.toList = utf8 s := by
  rw [← utf8_ofList, String.ofList_toList]

theorem utf8EncodeChar_ascii {c : Char} (h : c.toNat < 128) :
    String.utf8EncodeChar c = [c.toUInt8] := by
  have hv : c.val.toNat ≤ 127 := Nat.le_of_lt_succ h
  rw [String.utf8EncodeChar]
  simp only [hv, if_true]
  rfl

/-- Beyond ASCII every byte of a character is marked. -/
theorem le_of_mem_utf8EncodeChar {c : Char} (h : 128 ≤ c.toNat) {b : UInt8}
    (hb : b ∈ String.utf8EncodeChar c) : 128 ≤ b.toNat := by
  have hv : ¬ c.val.toNat ≤ 127 := Nat.not_le_of_lt h
  rw [String.utf8EncodeChar] at hb
  simp only [hv, if_false] at hb
  split at hb
  · simp only [List.mem_cons, List.not_mem_nil, or_false] at hb
    rcases hb with rfl | rfl <;> simp <;> omega
  · split at hb
    · simp only [List.mem_cons, List.not_mem_nil, or_false] at hb
      rcases hb with rfl | rfl | rfl <;> simp <;> omega
    · simp only [List.mem_cons, List.not_mem_nil, or_false] at hb
      rcases hb with rfl | rfl | rfl | rfl <;> simp <;> omega

/-! ## Strings -/

theorem Spells.plain_append {p q x : Bytes} (hp : ∀ b ∈ p, 0x20 ≤ b ∧ b ≠ '"'.toUInt8 ∧
    b ≠ '\\'.toUInt8) (h : Spells q x) : Spells (p ++ q) (p ++ x) := by
  induction p with
  | nil => exact h
  | cons b p ih =>
    obtain ⟨hc, hq, he⟩ := hp b (by simp)
    exact .plain hc hq he (ih fun b hb => hp b (List.mem_cons_of_mem _ hb))

/-- A character that is printed as it is has no byte that a string may not hold. -/
theorem plain_of_mem_utf8EncodeChar {c : Char} (hc : 0x20 ≤ c.toNat) (hq : c ≠ '"') (he : c ≠ '\\')
    {b : UInt8} (hb : b ∈ String.utf8EncodeChar c) :
    0x20 ≤ b ∧ b ≠ '"'.toUInt8 ∧ b ≠ '\\'.toUInt8 := by
  by_cases ha : c.toNat < 128
  · rw [utf8EncodeChar_ascii ha, List.mem_singleton] at hb
    have same {d : Char} (hd : d.toNat < 128) (h : c.toUInt8 = d.toUInt8) : c = d := by
      have codes : c.toNat % 256 = d.toNat % 256 := congrArg UInt8.toNat h
      have : c.toNat = d.toNat := by omega
      rw [← Char.ofNat_toNat c, this, Char.ofNat_toNat]
    subst hb
    refine ⟨?_, fun h => hq (same (by decide) h), fun h => he (same (by decide) h)⟩
    have : c.toUInt8.toNat = c.toNat % 256 := rfl
    rw [UInt8.le_iff_toNat_le, this]
    show 0x20 ≤ c.toNat % 256
    omega
  · have hb := le_of_mem_utf8EncodeChar (Nat.le_of_not_lt ha) hb
    refine ⟨?_, ?_, ?_⟩
    · rw [UInt8.le_iff_toNat_le]
      exact Nat.le_trans (by decide) hb
    · rintro rfl
      exact absurd hb (by decide)
    · rintro rfl
      exact absurd hb (by decide)

/-- The digits of an escape give the control character back. -/
theorem codeUnit_control : ∀ n < 0x20, CodeUnit (bytesOf (hexDigits 4 n)) n := by
  unfold CodeUnit
  decide

theorem spells_printChar (c : Char) {q x : Bytes} (h : Spells q x) :
    Spells (bytesOf (printChar c) ++ q) (String.utf8EncodeChar c ++ x) := by
  have short {b : Char} (hb : b.toNat < 128) (hc : c.toNat < 128)
      (he : shortEscape? b.toUInt8 = some c.toUInt8) :
      Spells (bytesOf ['\\', b] ++ q) (String.utf8EncodeChar c ++ x) := by
    simpa [utf8EncodeChar_ascii hb, utf8EncodeChar_ascii hc,
      utf8EncodeChar_ascii (c := '\\') (by decide)] using Spells.short he h
  unfold printChar
  split
  · rename_i hc
    rcases hc with rfl | rfl <;> exact short (by decide) (by decide) (by decide)
  rename_i hc
  rw [not_or] at hc
  iterate 5
    split
    · rename_i hc
      subst hc
      exact short (by decide) (by decide) (by decide)
  split
  · rename_i hlow
    have single : isHighSurrogate c.toNat = false ∧ isLowSurrogate c.toNat = false := by
      simp only [isHighSurrogate, isLowSurrogate, Bool.and_eq_false_iff, decide_eq_false_iff_not]
      omega
    have hd := Spells.code (codeUnit_control c.toNat hlow) single.1 single.2 h
    simpa [utf8EncodeChar_ascii (c := '\\') (by decide),
      utf8EncodeChar_ascii (c := 'u') (by decide)] using hd
  · rename_i hlow
    have hp := Spells.plain_append (fun b => plain_of_mem_utf8EncodeChar (b := b)
      (Nat.le_of_not_lt hlow) hc.1 hc.2) h
    simpa using hp

theorem spells_flatMap (cs : List Char) :
    Spells (bytesOf (cs.flatMap printChar)) (bytesOf cs) := by
  induction cs with
  | nil => exact .nil
  | cons c cs ih => simpa using spells_printChar c ih

/-- A text is printed as a string that stands for it. -/
theorem spelled_text (s : String) : TextSpells (bytesOf (printText s)) s := by
  refine ⟨bytesOf (s.toList.flatMap printChar), ?_, ?_⟩
  · simp [printText, utf8EncodeChar_ascii (c := '"') (by decide)]
  · rw [← bytesOf_toList]
    exact spells_flatMap s.toList

/-! ## Flags and numbers -/

theorem spelled_flag (b : Bool) : bytesOf (printFlag b) = flagWord b := by
  cases b <;> decide

theorem digitChar_byte : ∀ d < 10, (Nat.digitChar d).toNat < 128 ∧
    isDigit (Nat.digitChar d).toUInt8 = true ∧ digitValue (Nat.digitChar d).toUInt8 = d := by
  decide

theorem bytesOf_printNat_of_lt {n : Nat} (h : n < 10) :
    bytesOf (printNat n) = [(Nat.digitChar n).toUInt8] := by
  obtain ⟨ascii, -⟩ := digitChar_byte n h
  simp [printNat, Nat.toDigits_of_lt_base h, utf8EncodeChar_ascii ascii]

/-- The last digit comes off the end. -/
theorem bytesOf_printNat_of_le {n : Nat} (h : 10 ≤ n) :
    bytesOf (printNat n) = bytesOf (printNat (n / 10)) ++ [(Nat.digitChar (n % 10)).toUInt8] := by
  obtain ⟨ascii, -⟩ := digitChar_byte (n % 10) (Nat.mod_lt n (by decide))
  simp [printNat, Nat.toDigits_of_base_le (by decide) h, utf8EncodeChar_ascii ascii]

theorem decimalFrom_append (n : Nat) (s t : Bytes) :
    decimalFrom n (s ++ t) = decimalFrom (decimalFrom n s) t := by
  induction s generalizing n with
  | nil => rfl
  | cons d s ih => exact ih _

theorem decimal_printNat (n : Nat) : decimal (bytesOf (printNat n)) = n := by
  induction n using Nat.strongRecOn with
  | ind n ih =>
    by_cases h : n < 10
    · obtain ⟨-, -, value⟩ := digitChar_byte n h
      rw [bytesOf_printNat_of_lt h]
      show 10 * 0 + digitValue _ = n
      omega
    · have h := Nat.le_of_not_lt h
      obtain ⟨-, -, value⟩ := digitChar_byte (n % 10) (Nat.mod_lt n (by decide))
      have front : decimalFrom 0 (bytesOf (printNat (n / 10))) = n / 10 := ih (n / 10) (by omega)
      rw [bytesOf_printNat_of_le h, decimal, decimalFrom_append, front]
      show 10 * (n / 10) + digitValue _ = n
      omega

/-- The first digit of a number other than zero is not zero. -/
theorem printNat_front {n : Nat} (h : 0 < n) :
    ∃ d s, bytesOf (printNat n) = d :: s ∧ d ≠ '0'.toUInt8 ∧ Digits (d :: s) := by
  induction n using Nat.strongRecOn with
  | ind n ih =>
    by_cases hn : n < 10
    · obtain ⟨-, digit, value⟩ := digitChar_byte n hn
      refine ⟨_, [], bytesOf_printNat_of_lt hn, ?_, by simp, by simpa using digit⟩
      intro hz
      have zero : digitValue '0'.toUInt8 = 0 := by decide
      rw [hz, zero] at value
      omega
    · have hn := Nat.le_of_not_lt hn
      obtain ⟨d, s, hs, hz, -, digits⟩ := ih (n / 10) (by omega) (by omega)
      obtain ⟨-, digit, -⟩ := digitChar_byte (n % 10) (Nat.mod_lt n (by decide))
      refine ⟨d, s ++ [_], by rw [bytesOf_printNat_of_le hn, hs]; rfl, hz, by simp, ?_⟩
      intro b hb
      rw [← List.cons_append, List.mem_append, List.mem_singleton] at hb
      rcases hb with hb | rfl
      · exact digits b hb
      · exact digit

theorem integer_printNat (n : Nat) : Integer (bytesOf (printNat n)) := by
  by_cases h : n = 0
  · have zero : (Nat.digitChar 0).toUInt8 = '0'.toUInt8 := by decide
    rw [h, bytesOf_printNat_of_lt (by decide), zero]
    exact .zero
  · obtain ⟨d, s, hs, hz, digits⟩ := printNat_front (Nat.pos_of_ne_zero h)
    rw [hs]
    exact .other hz digits

theorem spelled_word {n limit : Nat} (h : n < limit) : WordSpells limit (bytesOf (printNat n)) n :=
  ⟨integer_printNat n, decimal_printNat n, h⟩

/-! ## Lists and objects -/

theorem commaSeparated_cons (x : List Char) (xs : List (List Char)) :
    commaSeparated (x :: xs) = x ++ xs.flatMap (',' :: ·) := by
  induction xs generalizing x with
  | nil => simp [commaSeparated]
  | cons y ys ih => simp [commaSeparated, ih y]

section Items

variable {ι α : Type} {lead : Bytes → α → Prop} {key : ι → List Char} {name : ι → α}
  (value : ι → List Char)

theorem rest_flatMap {items : List ι} (h : ∀ i ∈ items, lead (bytesOf (key i)) (name i)) :
    Rest lead (bytesOf (items.flatMap fun i => ',' :: (key i ++ value i)))
      (items.map fun i => (name i, bytesOf (value i))) := by
  induction items with
  | nil => exact .blank blank_nil
  | cons i items ih =>
    have further := ih fun j hj => h j (List.mem_cons_of_mem i hj)
    have leads := h i (by simp)
    have more : Rest lead ([] ++ ','.toUInt8 :: (bytesOf (key i) ++ ([] ++ (bytesOf (value i) ++ _))))
        ((name i, bytesOf (value i)) :: _) := .more blank_nil leads blank_nil further
    simpa [utf8EncodeChar_ascii (c := ',') (by decide)] using more

/-- Items printed with commas between them, each as what leads to its value and the value. -/
theorem content_commaSeparated {items : List ι}
    (h : ∀ i ∈ items, lead (bytesOf (key i)) (name i)) :
    Content lead (bytesOf (commaSeparated (items.map fun i => key i ++ value i)))
      (items.map fun i => (name i, bytesOf (value i))) := by
  cases items with
  | nil => exact .blank blank_nil
  | cons i items =>
    have leads := h i (by simp)
    have further := rest_flatMap value fun j hj => h j (List.mem_cons_of_mem i hj)
    have all : Content lead (bytesOf (key i) ++ ([] ++ (bytesOf (value i) ++ _)))
        ((name i, bytesOf (value i)) :: _) := .items leads blank_nil further
    simpa [commaSeparated_cons, List.flatMap_map] using all

end Items

theorem content_list (items : List (List Char)) :
    ∃ c, bytesOf (printList items) = '['.toUInt8 :: (c ++ [']'.toUInt8]) ∧
      Content elementLead c (items.map fun v => ((), bytesOf v)) := by
  refine ⟨bytesOf (commaSeparated items), ?_, ?_⟩
  · simp [printList, utf8EncodeChar_ascii (c := '[') (by decide),
      utf8EncodeChar_ascii (c := ']') (by decide)]
  · have alone : ∀ v ∈ items, elementLead (bytesOf []) () := fun _ _ => rfl
    simpa using content_commaSeparated id alone

theorem memberLead_printText (key : String) : memberLead (bytesOf (printText key ++ [':'])) key := by
  obtain ⟨q, hq, spells⟩ := spelled_text key
  refine ⟨[], q, [], blank_nil, spells, blank_nil, ?_⟩
  simp [hq, utf8EncodeChar_ascii (c := ':') (by decide)]

theorem content_object (members : List (String × List Char)) :
    ∃ c, bytesOf (printObject members) = '\x7b'.toUInt8 :: (c ++ ['\x7d'.toUInt8]) ∧
      Content memberLead c (members.map fun m => (m.1, bytesOf m.2)) := by
  refine ⟨bytesOf (commaSeparated (members.map fun m => printText m.1 ++ ':' :: m.2)), ?_, ?_⟩
  · simp [printObject, utf8EncodeChar_ascii (c := '\x7b') (by decide),
      utf8EncodeChar_ascii (c := '\x7d') (by decide)]
  · have leads : ∀ m ∈ members, memberLead (bytesOf (printText m.1 ++ [':'])) m.1 :=
      fun m _ => memberLead_printText m.1
    simpa using content_commaSeparated Prod.snd leads

theorem spelled_words (ns : List UInt16) :
    Kind.words16.Spells (bytesOf (printList (ns.map fun n => printNat n.toNat))) ns := by
  obtain ⟨c, hc, content⟩ := content_list (ns.map fun n => printNat n.toNat)
  refine ⟨c, _, hc, content, ?_⟩
  simp only [List.map_map, List.forall₂_map_left_iff, List.forall₂_same]
  exact fun n _ => spelled_word n.toNat_lt_size

/-! ## Records -/

/-- Members printed for the values of fields, in the order of the fields; a field may be left out
when its value is the one it has when absent. -/
inductive Printed : (fs : List Field) → Values fs → List (String × List Char) → Prop where
  | nil : Printed [] () []
  | member {f : Field} {fs : List Field} {x : f.kind.Value} {xs : Values fs} {v : List Char}
      {ms : List (String × List Char)} :
      f.kind.Spells (bytesOf v) x → Printed fs xs ms → Printed (f :: fs) (x, xs) ((f.name, v) :: ms)
  | leftOut {f : Field} {fs : List Field} {x : f.kind.Value} {xs : Values fs}
      {ms : List (String × List Char)} :
      f.absent = some x → Printed fs xs ms → Printed (f :: fs) (x, xs) ms

/-- Members as the grammar sees them. -/
def asBytes (ms : List (String × List Char)) : List (String × Bytes) :=
  ms.map fun m => (m.1, bytesOf m.2)

namespace Printed

variable {fs : List Field} {xs : Values fs} {ms : List (String × List Char)}

theorem name_mem (h : Printed fs xs ms) : ∀ m ∈ ms, m.1 ∈ fs.map (·.name) := by
  induction h with
  | nil => simp
  | member _ _ ih =>
    intro m hm
    rcases List.mem_cons.mp hm with rfl | hm
    · simp
    · simp [ih m hm]
  | leftOut _ _ ih =>
    intro m hm
    simp [ih m hm]

theorem valuesOf_eq_nil (h : Printed fs xs ms) {name : String} (hn : name ∉ fs.map (·.name)) :
    valuesOf name (asBytes ms) = [] := by
  rw [valuesOf, List.map_eq_nil_iff, List.filter_eq_nil_iff]
  intro p hp
  obtain ⟨m, hm, rfl⟩ := List.mem_map.mp hp
  have known := h.name_mem m hm
  rintro he
  rw [beq_iff_eq] at he
  exact hn (he ▸ known)

theorem allGiven (h : Printed fs xs ms) (hd : (fs.map (·.name)).Nodup) :
    AllGiven (asBytes ms) fs xs := by
  induction h with
  | nil => trivial
  | @member f fs x xs v ms hv h ih =>
    rw [List.map_cons, List.nodup_cons] at hd
    have others := h.valuesOf_eq_nil hd.1
    refine ⟨.inl ⟨_, ?_, hv⟩, ?_⟩
    · show valuesOf f.name ((f.name, bytesOf v) :: asBytes ms) = [bytesOf v]
      rw [valuesOf] at others ⊢
      simp [others]
    · rw [← allGiven_without hd.1]
      have same : without f.name (asBytes ((f.name, v) :: ms)) = without f.name (asBytes ms) := by
        simp [without, asBytes]
      rw [same, allGiven_without hd.1]
      exact ih hd.2
  | leftOut hx h ih =>
    rw [List.map_cons, List.nodup_cons] at hd
    exact ⟨.inr ⟨h.valuesOf_eq_nil hd.1, hx⟩, ih hd.2⟩

end Printed

/-- A record is read back from the object it was printed as. -/
theorem Schema.read_printObject {c : Schema} (hd : (c.fields.map (·.name)).Nodup)
    {ms : List (String × List Char)} {xs : Values c.fields} (h : Printed c.fields xs ms) :
    c.read (utf8 (String.ofList (printObject ms))) = .ok xs := by
  obtain ⟨s, hs, content⟩ := content_object ms
  apply Schema.read_of_spells hd
  rw [utf8_ofList, hs]
  refine .object (w := []) blank_nil blank_nil content (h.allGiven hd) ?_
  intro p hp hn
  obtain ⟨m, hm, rfl⟩ := List.mem_map.mp hp
  exact absurd (h.name_mem m hm) hn

end Heartbeat.Json
