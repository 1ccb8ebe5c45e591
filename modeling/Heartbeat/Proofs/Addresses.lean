import Heartbeat.Identity

/-!
# Heartbeat.Proofs.Addresses

An address is read back from the text it is written as (`Address.ofText?_text`). So of all the
texts that are read as one address, the one that is reported is its own, whichever was given.

* `number?_toDigits`    — digits are read as the number that they were written for.
* `octets?_octetsText`, `groups?_groupsText` — so are octets and groups.
* `splitGap_groupsText` — there is no `::` inside groups, so the first one is the gap.
* `longestZeros_split`  — the groups that the gap stands for are zeros.
-/

namespace Heartbeat

namespace Address

/-! ## Digits -/

section Digits

variable {base : Nat}

/-- What holds of single digits, and of a digit behind others if it holds of those, holds of the
digits of every number. -/
theorem toDigits_induction (hb : 1 < base) {P : Nat → List Char → Prop}
    (single : ∀ d < base, P d [Nat.digitChar d])
    (snoc : ∀ n d s, 0 < n → d < base → P n s → P (base * n + d) (s ++ [Nat.digitChar d]))
    (n : Nat) : P n (Nat.toDigits base n) := by
  induction n using Nat.strongRecOn with
  | ind n ih =>
    by_cases hn : n < base
    · rw [Nat.toDigits_of_lt_base hn]
      exact single n hn
    · have hle : base ≤ n := Nat.le_of_not_lt hn
      have smaller : n / base < n := Nat.div_lt_self (by omega) hb
      have front : 0 < n / base := Nat.div_pos hle (by omega)
      have last : n % base < base := Nat.mod_lt n (by omega)
      have whole := snoc (n / base) (n % base) _ front last (ih (n / base) smaller)
      rwa [Nat.div_add_mod, ← Nat.toDigits_of_base_le hb hle] at whole

theorem foldlM_toDigits (hb : 1 < base) {digit? : Char → Option Nat}
    (hd : ∀ d < base, digit? (Nat.digitChar d) = some d) (n : Nat) :
    (Nat.toDigits base n).foldlM (fun m c => (digit? c).map (base * m + ·)) 0 = some n := by
  apply toDigits_induction hb (P := fun n s =>
    s.foldlM (fun m c => (digit? c).map (base * m + ·)) 0 = some n)
  · intro d h
    simp [hd d h]
  · intro n d s _ h ih
    rw [List.foldlM_append, ih]
    simp [hd d h]

theorem number?_toDigits (hb : 1 < base) {digit? : Char → Option Nat}
    (hd : ∀ d < base, digit? (Nat.digitChar d) = some d) {n most : Nat}
    (hl : (Nat.toDigits base n).length ≤ most) :
    number? base most digit? (Nat.toDigits base n) = some n := by
  have fits : ¬((Nat.toDigits base n).isEmpty ∨ most < (Nat.toDigits base n).length) := by
    simp only [List.isEmpty_iff, Nat.toDigits_ne_nil, false_or]
    omega
  rw [number?, if_neg fits, foldlM_toDigits hb hd]

theorem decimalDigit?_digitChar : ∀ d < 10, decimalDigit? (Nat.digitChar d) = some d := by
  decide

theorem hexDigit?_digitChar : ∀ d < 16, hexDigit? (Nat.digitChar d) = some d := by
  decide

/-- Only digits are written, and so no separator. -/
theorem not_mem_toDigits (hb : 1 < base) (hb' : base ≤ 16) {c : Char} (hc : hexDigit? c = none)
    (n : Nat) : c ∉ Nat.toDigits base n := by
  have other (d : Nat) (h : d < base) : c ≠ Nat.digitChar d := by
    rintro rfl
    rw [hexDigit?_digitChar d (by omega)] at hc
    cases hc
  apply toDigits_induction hb (P := fun _ s => c ∉ s)
  · intro d h
    simp [other d h]
  · intro n d s _ h ih
    simpa using ⟨ih, other d h⟩

/-- There is a first digit, and only zero has a zero there. -/
theorem toDigits_front (hb : 1 < base) (hb' : base ≤ 16) (n : Nat) :
    ∃ c s, Nat.toDigits base n = c :: s ∧ (c = '0' → n = 0) := by
  have zero : ∀ d < 16, Nat.digitChar d = '0' → d = 0 := by decide
  apply toDigits_induction hb (P := fun n s => ∃ c t, s = c :: t ∧ (c = '0' → n = 0))
  · intro d h
    exact ⟨_, [], rfl, zero d (by omega)⟩
  · rintro n d _ hn h ⟨c, t, rfl, hc⟩
    exact ⟨c, t ++ [Nat.digitChar d], rfl, fun h0 => absurd (hc h0) (by omega)⟩

theorem length_toDigits_le {n k : Nat} (hb : 1 < base) (hk : 0 < k) (hn : n < Nat.pow base k) :
    (Nat.toDigits base n).length ≤ k :=
  (Nat.length_toDigits_le_iff hb hk).mpr hn

end Digits

/-- Texts with a separator between any two are the pieces that it cuts out. -/
theorem pieces_intercalate {separator : Char} {ls : List (List Char)}
    (h : ∀ l ∈ ls, separator ∉ l) (hn : ls ≠ []) :
    pieces separator ([separator].intercalate ls) = ls :=
  List.splitOn_intercalate separator h hn

/-! ## Octets -/

def octetText (x : UInt8) : List Char := Nat.toDigits 10 x.toNat

theorem octet?_octetText (x : UInt8) : octet? (octetText x) = some x := by
  have hx : x.toNat < 256 := x.toNat_lt_size
  obtain ⟨c, s, hs, hc⟩ : ∃ c s, Nat.toDigits 10 x.toNat = c :: s ∧ (c = '0' → x.toNat = 0) :=
    toDigits_front (by decide) (by decide) x.toNat
  have noZeroAhead : ¬((octetText x).head? = some '0' ∧ 1 < (octetText x).length) := by
    rintro ⟨h0, hl⟩
    rw [octetText, hs] at h0
    have : x.toNat = 0 := hc (by simpa using h0)
    rw [octetText, this] at hl
    exact absurd hl (by decide)
  have few : (Nat.toDigits 10 x.toNat).length ≤ 3 :=
    length_toDigits_le (by decide) (by decide) (Nat.lt_trans hx (by decide))
  rw [octet?, if_neg noZeroAhead, octetText,
    number?_toDigits (by decide) decimalDigit?_digitChar few]
  simp [hx]

theorem noDot_octetText (x : UInt8) : '.' ∉ octetText x :=
  not_mem_toDigits (by decide) (by decide) rfl _

theorem noColon_octetText (x : UInt8) : ':' ∉ octetText x :=
  not_mem_toDigits (by decide) (by decide) rfl _

theorem octetsText_eq (a b c d : UInt8) :
    octetsText a b c d = ['.'].intercalate [octetText a, octetText b, octetText c, octetText d] :=
  rfl

theorem octets?_octetsText (a b c d : UInt8) :
    octets? (octetsText a b c d) = some (a, b, c, d) := by
  rw [octets?, octetsText_eq, pieces_intercalate (by simp [noDot_octetText]) (by simp)]
  simp [octet?_octetText]

theorem octets?_of_noDot {s : List Char} (h : '.' ∉ s) : octets? s = none := by
  rw [octets?, pieces, List.splitOn_eq_singleton h]

/-! ## Groups -/

def groupText (g : UInt16) : List Char := Nat.toDigits 16 g.toNat

theorem groupsText_eq (gs : List UInt16) : groupsText gs = [':'].intercalate (gs.map groupText) :=
  rfl

theorem group?_groupText (g : UInt16) : group? (groupText g) = some g := by
  have few : (Nat.toDigits 16 g.toNat).length ≤ 4 :=
    length_toDigits_le (by decide) (by decide) g.toNat_lt_size
  rw [group?, groupText, number?_toDigits (by decide) hexDigit?_digitChar few]
  simp

theorem noColon_groupText (g : UInt16) : ':' ∉ groupText g :=
  not_mem_toDigits (by decide) (by decide) rfl _

theorem noDot_groupText (g : UInt16) : '.' ∉ groupText g :=
  not_mem_toDigits (by decide) (by decide) rfl _

theorem groupText_front (g : UInt16) : ∃ c s, groupText g = c :: s ∧ c ≠ ':' := by
  obtain ⟨c, s, hs, -⟩ : ∃ c s, Nat.toDigits 16 g.toNat = c :: s ∧ (c = '0' → g.toNat = 0) :=
    toDigits_front (by decide) (by decide) g.toNat
  refine ⟨c, s, hs, ?_⟩
  rintro rfl
  have colon : ':' ∈ groupText g := by rw [groupText, hs]; exact List.mem_cons_self
  exact noColon_groupText g colon

@[simp] theorem groupsText_nil : groupsText [] = [] := rfl

@[simp] theorem groupsText_singleton (g : UInt16) : groupsText [g] = groupText g := by
  simp [groupsText_eq]

@[simp] theorem groupsText_cons_cons (g h : UInt16) (gs : List UInt16) :
    groupsText (g :: h :: gs) = groupText g ++ ':' :: groupsText (h :: gs) := by
  simp [groupsText_eq]

theorem noDot_groupsText : (gs : List UInt16) → '.' ∉ groupsText gs
  | [] => by simp
  | [g] => by simpa using noDot_groupText g
  | g :: h :: gs => by simp [noDot_groupText, noDot_groupsText (h :: gs)]

theorem groupsText_front (g : UInt16) (gs : List UInt16) :
    ∃ c s, groupsText (g :: gs) = c :: s ∧ c ≠ ':' := by
  obtain ⟨c, s, hs, hc⟩ := groupText_front g
  cases gs with
  | nil => exact ⟨c, s, by simpa using hs, hc⟩
  | cons h gs => exact ⟨c, s ++ ':' :: groupsText (h :: gs), by simp [hs], hc⟩

theorem lastGroups?_groupText (g : UInt16) : lastGroups? (groupText g) = some [g] := by
  rw [lastGroups?, octets?_of_noDot (noDot_groupText g)]
  simp [group?_groupText]

theorem groupsOfPieces?_map (octetsAllowed : Bool) (gs : List UInt16) :
    groupsOfPieces? octetsAllowed (gs.map groupText) = some gs := by
  induction gs with
  | nil => rfl
  | cons g gs ih =>
    cases gs with
    | nil => cases octetsAllowed <;> simp [groupsOfPieces?, lastGroups?_groupText, group?_groupText]
    | cons h gs =>
      rw [List.map_cons, List.map_cons, groupsOfPieces?, group?_groupText, ← List.map_cons, ih]
      · rfl
      · simp

theorem groups?_groupsText (octetsAllowed : Bool) (gs : List UInt16) :
    groups? octetsAllowed (groupsText gs) = some gs := by
  cases gs with
  | nil => rfl
  | cons g gs =>
    obtain ⟨c, s, hs, -⟩ := groupsText_front g gs
    have some : (groupsText (g :: gs)).isEmpty = false := by rw [hs]; rfl
    rw [groups?, some, groupsText_eq, pieces_intercalate (by simp [noColon_groupText]) (by simp)]
    exact groupsOfPieces?_map octetsAllowed (g :: gs)

/-! ## The gap -/

theorem splitGap_cons {c : Char} {r : List Char} (h : c = ':' → r.head? ≠ some ':') :
    splitGap (c :: r) = (splitGap r).map fun (a, b) => (c :: a, b) := by
  rw [splitGap]
  rintro t rfl rfl
  exact h rfl rfl

theorem splitGap_append {p : List Char} (hp : ':' ∉ p) (t : List Char) :
    splitGap (p ++ t) = (splitGap t).map fun (a, b) => (p ++ a, b) := by
  induction p with
  | nil => simp
  | cons c p ih =>
    have other : c ≠ ':' := fun h => hp (h ▸ List.mem_cons_self)
    have rest := ih fun h => hp (List.mem_cons_of_mem c h)
    rw [List.cons_append, splitGap_cons fun h => absurd h other, rest, Option.map_map]
    rfl

/-- Between two groups is one colon, which a digit follows. -/
theorem splitGap_groupsText (t : List Char) : (gs : List UInt16) →
    splitGap (groupsText gs ++ t) = (splitGap t).map fun (a, b) => (groupsText gs ++ a, b)
  | [] => by simp
  | [g] => by rw [groupsText_singleton, splitGap_append (noColon_groupText g)]
  | g :: h :: gs => by
    obtain ⟨c, s, hs, hc⟩ := groupsText_front h gs
    have single : ':' = ':' → (groupsText (h :: gs) ++ t).head? ≠ some ':' := by
      simp [hs, hc]
    rw [groupsText_cons_cons, List.append_assoc, splitGap_append (noColon_groupText g),
      List.cons_append, splitGap_cons single, splitGap_groupsText t (h :: gs)]
    simp [Option.map_map, Function.comp_def]

theorem splitGap_gap (gs : List UInt16) (t : List Char) :
    splitGap (groupsText gs ++ ':' :: ':' :: t) = some (groupsText gs, t) := by
  rw [splitGap_groupsText]
  simp [splitGap]

theorem splitGap_noGap (gs : List UInt16) : splitGap (groupsText gs) = none := by
  have h := splitGap_groupsText [] gs
  rwa [List.append_nil] at h

/-! ## Zeros -/

theorem zerosAhead_split (gs : List UInt16) :
    List.replicate (zerosAhead gs) 0 ++ gs.drop (zerosAhead gs) = gs := by
  induction gs with
  | nil => rfl
  | cons g gs ih =>
    by_cases hg : g = 0
    · have one : zerosAhead (g :: gs) = zerosAhead gs + 1 := by simp [zerosAhead, hg]
      rw [one, List.replicate_succ, List.drop_succ_cons, List.cons_append, ih, hg]
    · have none : zerosAhead (g :: gs) = 0 := by simp [zerosAhead, hg]
      rw [none]
      rfl

theorem longestZeros_cons (g : UInt16) (gs : List UInt16) :
    longestZeros (g :: gs) =
      if (longestZeros gs).2 ≤ zerosAhead (g :: gs) then (0, zerosAhead (g :: gs))
      else ((longestZeros gs).1 + 1, (longestZeros gs).2) :=
  rfl

/-- What stands before and behind the longest run makes up the whole together with zeros. -/
theorem longestZeros_split (gs : List UInt16) :
    gs.take (longestZeros gs).1 ++ List.replicate (longestZeros gs).2 0 ++
      gs.drop ((longestZeros gs).1 + (longestZeros gs).2) = gs := by
  induction gs with
  | nil => rfl
  | cons g gs ih =>
    rw [longestZeros_cons]
    split
    · rw [Nat.zero_add, List.take_zero, List.nil_append]
      exact zerosAhead_split (g :: gs)
    · rw [Nat.add_right_comm, List.take_succ_cons, List.drop_succ_cons, List.cons_append,
        List.cons_append, ih]

/-! ## Addresses -/

theorem joinOctets_octetsOf (g : UInt16) : joinOctets (octetsOf g).1 (octetsOf g).2 = g := by
  apply UInt16.toNat_inj.mp
  have hg : g.toNat < 65536 := g.toNat_lt_size
  simp only [joinOctets, octetsOf, UInt16.toNat_add, UInt16.toNat_mul, UInt8.toNat_toUInt16,
    UInt16.toNat_toUInt8, UInt16.toNat_div, UInt16.reduceToNat]
  omega

theorem v6?_groupsText {gs : List UInt16} (h : gs.length = 8) :
    v6? (groupsText gs) = some (.v6 gs h) := by
  rw [v6?, splitGap_noGap]
  simp [groups?_groupsText, h]

/-- A gap is read as the zeros that are missing. -/
theorem v6?_gap {before after gs : List UInt16} {t : List Char}
    (ht : groups? true t = some after) {n : Nat} (hn : 0 < n)
    (hg : before ++ List.replicate n 0 ++ after = gs) (h : gs.length = 8) :
    v6? (groupsText before ++ ':' :: ':' :: t) = some (.v6 gs h) := by
  subst hg
  simp only [List.length_append, List.length_replicate] at h
  have missing : 8 - before.length - after.length = n := by omega
  have short : before.length + after.length < 8 := by omega
  rw [v6?, splitGap_gap]
  simp [groups?_groupsText, ht, short, missing]

theorem shortened_of_gap {gs : List UInt16} (h : 1 < (longestZeros gs).2) :
    shortened gs = groupsText (gs.take (longestZeros gs).1) ++
      ':' :: ':' :: groupsText (gs.drop ((longestZeros gs).1 + (longestZeros gs).2)) := by
  simp [shortened, h]

theorem shortened_of_noGap {gs : List UInt16} (h : ¬1 < (longestZeros gs).2) :
    shortened gs = groupsText gs := by
  simp [shortened, h]

theorem noDot_shortened (gs : List UInt16) : '.' ∉ shortened gs := by
  by_cases h : 1 < (longestZeros gs).2
  · simp [shortened_of_gap h, noDot_groupsText]
  · rw [shortened_of_noGap h]
    exact noDot_groupsText gs

theorem v6?_shortened {gs : List UInt16} (h : gs.length = 8) :
    v6? (shortened gs) = some (.v6 gs h) := by
  by_cases hz : 1 < (longestZeros gs).2
  · rw [shortened_of_gap hz]
    exact v6?_gap (groups?_groupsText true _) (by omega) (longestZeros_split gs) h
  · rw [shortened_of_noGap hz, v6?_groupsText h]

/-! ### Addresses that map one of version 4 -/

def mappingText : List Char := [':', ':', 'f', 'f', 'f', 'f', ':']

/-- Text that is too long for the first octet makes no octets. -/
theorem octets?_mapping (a b c d : UInt8) : octets? (mappingText ++ octetsText a b c d) = none := by
  have whole : mappingText ++ octetsText a b c d =
      ['.'].intercalate [mappingText ++ octetText a, octetText b, octetText c, octetText d] := by
    simp [octetsText_eq]
  have long : octet? (mappingText ++ octetText a) = none := by
    simp [octet?, number?, mappingText]
  rw [octets?, whole, pieces_intercalate (by simp [noDot_octetText, mappingText]) (by simp)]
  simp [long]

theorem groups?_mapped (a b c d : UInt8) :
    groups? true (groupText 0xffff ++ ':' :: octetsText a b c d) =
      some [0xffff, joinOctets a b, joinOctets c d] := by
  have whole : groupText 0xffff ++ ':' :: octetsText a b c d =
      [':'].intercalate [groupText 0xffff, octetsText a b c d] := by
    simp
  have cut : pieces ':' (groupText 0xffff ++ ':' :: octetsText a b c d) =
      [groupText 0xffff, octetsText a b c d] := by
    rw [whole, pieces_intercalate _ (by simp)]
    simp [noColon_groupText, octetsText_eq, noColon_octetText]
  have last : lastGroups? (octetsText a b c d) = some [joinOctets a b, joinOctets c d] := by
    simp [lastGroups?, octets?_octetsText]
  have some : (groupText 0xffff ++ ':' :: octetsText a b c d).isEmpty = false := by simp
  simp [groups?, some, cut, groupsOfPieces?, group?_groupText, last]

theorem ofText?_mapped (x y : UInt16) :
    ofText? (String.ofList (v6Text [0, 0, 0, 0, 0, 0xffff, x, y])) =
      some (.v6 [0, 0, 0, 0, 0, 0xffff, x, y] rfl) := by
  have text : v6Text [0, 0, 0, 0, 0, 0xffff, x, y] =
      groupsText [] ++ ':' :: ':' :: (groupText 0xffff ++ ':' ::
        octetsText (octetsOf x).1 (octetsOf x).2 (octetsOf y).1 (octetsOf y).2) := rfl
  have noOctets : octets? (v6Text [0, 0, 0, 0, 0, 0xffff, x, y]) = none := octets?_mapping ..
  have gap := groups?_mapped (octetsOf x).1 (octetsOf x).2 (octetsOf y).1 (octetsOf y).2
  rw [joinOctets_octetsOf, joinOctets_octetsOf] at gap
  rw [ofText?, String.toList_ofList, noOctets, text]
  exact v6?_gap gap (n := 5) (by decide) rfl rfl

/-- Every address is read back from its text. -/
theorem ofText?_text (a : Address) : ofText? a.text = some a := by
  cases a with
  | v4 a b c d => simp [ofText?, text, octets?_octetsText]
  | v6 gs h =>
    show ofText? (String.ofList (v6Text gs)) = some (.v6 gs h)
    unfold v6Text
    split
    · exact ofText?_mapped _ _
    · rw [ofText?, String.toList_ofList, octets?_of_noDot (noDot_shortened gs)]
      exact v6?_shortened h

example : ofText? (text (.v6 [0x2001, 0, 0, 1, 0, 0, 0, 1] rfl)) = ofText? "2001:0:0:1::1" := by
  decide

theorem text_inj {a b : Address} : a.text = b.text ↔ a = b := by
  constructor
  · intro h
    have same := congrArg ofText? h
    rw [ofText?_text, ofText?_text] at same
    exact Option.some.inj same
  · intro h
    rw [h]

end Address

theorem Identity.descriptor_ip {i : Identity} {a : Address} (hi : i.address = some a) (h : Host) :
    (i.descriptor h).ip = a.text := by
  simp [Identity.descriptor, hi]

/-- The text that is reported for an address is read as that address, and every address has such a
text. Two texts are reported alike exactly if they are read as the same address. So reporting what
was reported changes nothing, and a text of version 4 is reported for one of version 4 only. -/
theorem reported_address_is_canonical {s t : String} {a b : Address}
    (hs : Address.ofText? s = some a) (ht : Address.ofText? t = some b) {i j : Identity}
    (hi : i.address = some a) (hj : j.address = some b) (h g : Host) :
    Address.ofText? (i.descriptor h).ip = some a ∧
    (∀ x : Address, Address.ofText? x.text = some x) ∧
    ((i.descriptor h).ip = (j.descriptor g).ip ↔ Address.ofText? s = Address.ofText? t) ∧
    (∀ k : Identity, k.address = Address.ofText? (i.descriptor h).ip → ∀ h' : Host,
      (k.descriptor h').ip = (i.descriptor h).ip) ∧
    ((∃ w x y z, Address.ofText? (i.descriptor h).ip = some (.v4 w x y z)) ↔
      ∃ w x y z, Address.ofText? s = some (.v4 w x y z)) := by
  rw [Identity.descriptor_ip hi, Identity.descriptor_ip hj, hs, ht, Address.ofText?_text]
  refine ⟨rfl, Address.ofText?_text, ?_, ?_, Iff.rfl⟩
  · rw [Address.text_inj, Option.some.injEq]
  · intro k hk h'
    exact Identity.descriptor_ip hk h'

/-- Capitals, zeros ahead and groups in place of octets all give the text that an address of
version 4 mapped into version 6 has. -/
theorem mapped_address_is_canonical :
    let mapped : Address := .v6 [0, 0, 0, 0, 0, 0xffff, 0x102, 0x304] rfl
    let i : Identity :=
      { applicationName := "app", address := Address.ofText? "0:0::0:FFFF:0102:0304" }
    let j : Identity := { applicationName := "app", address := Address.ofText? "::ffff:1.2.3.4" }
    let h : Host := ⟨"host", .v4 127 0 0 1, 1, 0, "fresh"⟩
    i.address = some mapped ∧ j.address = some mapped ∧
      Address.ofText? (i.descriptor h).ip = some mapped ∧
      (i.descriptor h).ip = (j.descriptor h).ip := by
  intro mapped i j h
  have hs : Address.ofText? "0:0::0:FFFF:0102:0304" = some mapped := by decide
  have ht : Address.ofText? "::ffff:1.2.3.4" = some mapped := by decide
  obtain ⟨read, -, alike, -, -⟩ :=
    reported_address_is_canonical hs ht (i := i) (j := j) hs ht h h
  exact ⟨hs, ht, read, alike.mpr (hs.trans ht.symm)⟩

end Heartbeat
