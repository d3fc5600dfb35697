import SatWire.Octets.Hex
import SatWire.Proofs.Text.Lines

/-!
# Hexadecimal texts and their octets

`Hex.Spells` says which texts spell octets: two digits for each, the high half first, a digit above
nine in either letter case.  These texts, and no others, are read, as the octets that they spell
(`decode_eq_ok_iff`); the text that is written for octets is one of them (`spells_encode`), and no
character of it is blank.
-/

namespace SatWire

/-- A character of seven bits takes one octet. -/
theorem Utf8.flatMap_ascii {chars : List Char} (h : ∀ c ∈ chars, c.toNat ≤ 0x7F) :
    chars.flatMap String.utf8EncodeChar = chars.map fun c => UInt8.ofNat c.toNat := by
  induction chars with
  | nil => rfl
  | cons c chars ih =>
      obtain ⟨hfirst, hothers⟩ := List.forall_mem_cons.mp h
      rw [List.flatMap_cons, utf8EncodeChar_one hfirst, ih hothers, List.map_cons,
        List.singleton_append]

namespace Hex

/-- The character is the digit of a number below sixteen, in either letter case. -/
def IsDigit (n : Nat) (c : Char) : Prop :=
  c = digit n ∨ c = capital n

/-- The characters spell the octets, two digits each. -/
inductive Spells : List Char → Bytes → Prop
  | nil : Spells [] []
  | cons {octet : UInt8} {high low : Char} {chars : List Char} {octets : Bytes}
      (hhigh : IsDigit (octet.toNat / 16) high) (hlow : IsDigit (octet.toNat % 16) low)
      (hrest : Spells chars octets) : Spells (high :: low :: chars) (octet :: octets)

/-- What is written spells what it is written for. -/
theorem spells_encode (octets : Bytes) : Spells (encode octets).toList octets := by
  rw [encode, String.toList_ofList]
  induction octets with
  | nil => exact .nil
  | cons octet octets ih => exact .cons (.inl rfl) (.inl rfl) ih

section Digits

variable {n : Nat} {c : Char}

/-- A digit takes one octet, which has its value, and is not blank. -/
theorem IsDigit.facts (hsmall : n < 16) (h : IsDigit n c) :
    0x30 ≤ c.toNat ∧ c.toNat ≤ 0x7F ∧ value? (UInt8.ofNat c.toNat) = some (UInt8.ofNat n)
      ∧ Text.isBlank c = false := by
  have hlower : ∀ n < 16, 0x30 ≤ (digit n).toNat ∧ (digit n).toNat ≤ 0x7F
      ∧ value? (UInt8.ofNat (digit n).toNat) = some (UInt8.ofNat n)
      ∧ Text.isBlank (digit n) = false := by
    decide
  have hcapital : ∀ n < 16, 0x30 ≤ (capital n).toNat ∧ (capital n).toNat ≤ 0x7F
      ∧ value? (UInt8.ofNat (capital n).toNat) = some (UInt8.ofNat n)
      ∧ Text.isBlank (capital n) = false := by
    decide
  rcases h with rfl | rfl
  · exact hlower n hsmall
  · exact hcapital n hsmall

/-- A character of seven bits that has a value is the digit of this value. -/
theorem isDigit_of_value? {v : UInt8} (hsmall : c.toNat ≤ 0x7F)
    (hvalue : value? (UInt8.ofNat c.toNat) = some v) : v.toNat < 16 ∧ IsDigit v.toNat c := by
  have hall : ∀ n < 128, ∀ v ∈ value? (UInt8.ofNat n),
      v.toNat < 16 ∧ (Char.ofNat n = digit v.toNat ∨ Char.ofNat n = capital v.toNat) := by
    decide +kernel
  have hdigit := hall c.toNat (Nat.lt_succ_of_le hsmall) v hvalue
  rwa [Char.ofNat_toNat] at hdigit

/-- The halves of an octet are what it was put together from. -/
theorem halves_join {high low : UInt8} (hhigh : high.toNat < 16) (hlow : low.toNat < 16) :
    (high <<< 4 ||| low).toNat / 16 = high.toNat ∧ (high <<< 4 ||| low).toNat % 16 = low.toNat := by
  have hall : ∀ h < 16, ∀ l < 16, (UInt8.ofNat h <<< 4 ||| UInt8.ofNat l).toNat = 16 * h + l := by
    decide +kernel
  have hjoin := hall high.toNat hhigh low.toNat hlow
  rw [UInt8.ofNat_toNat, UInt8.ofNat_toNat] at hjoin
  omega

/-- An octet is put together from its halves. -/
theorem join_halves (octet : UInt8) :
    UInt8.ofNat (octet.toNat / 16) <<< 4 ||| UInt8.ofNat (octet.toNat % 16) = octet := by
  have hall : ∀ n < 256, UInt8.ofNat (n / 16) <<< 4 ||| UInt8.ofNat (n % 16) = UInt8.ofNat n := by
    decide +kernel
  rw [hall octet.toNat octet.toNat_lt, UInt8.ofNat_toNat]

end Digits

namespace Spells

variable {chars : List Char} {octets : Bytes}

/-- Two digits spell an octet. -/
theorem length (h : Spells chars octets) : chars.length = 2 * octets.length := by
  induction h with
  | nil => rfl
  | cons _ _ _ ih =>
      rw [List.length_cons, List.length_cons, List.length_cons, ih]
      omega

/-- Digits are characters of seven bits; none is blank, or a control. -/
theorem clean (h : Spells chars octets) :
    ∀ c ∈ chars, 0x30 ≤ c.toNat ∧ c.toNat ≤ 0x7F ∧ Text.isBlank c = false := by
  induction h with
  | nil => exact fun c hmem => absurd hmem List.not_mem_nil
  | @cons octet high low chars octets hhigh hlow _ ih =>
      have hoctet := octet.toNat_lt
      obtain ⟨hfirst, hfirstLast, -, hfirstBlank⟩ := hhigh.facts (by omega)
      obtain ⟨hsecond, hsecondLast, -, hsecondBlank⟩ := hlow.facts (by omega)
      exact List.forall_mem_cons.mpr ⟨⟨hfirst, hfirstLast, hfirstBlank⟩,
        List.forall_mem_cons.mpr ⟨⟨hsecond, hsecondLast, hsecondBlank⟩, ih⟩⟩

/-- Reading the digits gives the octets behind those read before. -/
theorem decodePairs (h : Spells chars octets) (position : Nat) (read : Bytes) :
    Hex.decodePairs position read (chars.map fun c => UInt8.ofNat c.toNat)
      = .ok (read.reverse ++ octets) := by
  induction h generalizing position read with
  | nil => rw [List.map_nil, Hex.decodePairs, List.append_nil]
  | @cons octet high low chars octets hhigh hlow _ ih =>
      have hoctet := octet.toNat_lt
      obtain ⟨-, -, hfirst, -⟩ := hhigh.facts (by omega)
      obtain ⟨-, -, hsecond, -⟩ := hlow.facts (by omega)
      rw [List.map_cons, List.map_cons, Hex.decodePairs, hfirst, hsecond]
      dsimp only
      rw [join_halves, ih, List.reverse_cons, List.append_assoc, List.singleton_append]

/-- **A text that spells octets is read as these octets.** -/
theorem decode (h : Spells chars octets) :
    Hex.decode (Utf8.encode (String.ofList chars)) = .ok octets := by
  have hoctets : Utf8.encode (String.ofList chars) = chars.map fun c => UInt8.ofNat c.toNat := by
    rw [Utf8.encode, String.toList_ofList]
    exact Utf8.flatMap_ascii fun c hmem => (h.clean c hmem).2.1
  have heven : ¬ (chars.map fun c => UInt8.ofNat c.toNat).length % 2 = 1 := by
    rw [List.length_map, h.length]
    omega
  rw [hoctets, Hex.decode, if_neg heven, h.decodePairs 0 []]
  rfl

end Spells

section Sound

variable {chars : List Char}

/-- What is read from characters of seven bits is what they spell. -/
theorem spells_of_decodePairs : ∀ {chars : List Char} {position : Nat} {read result : Bytes},
    (∀ c ∈ chars, c.toNat ≤ 0x7F) →
    Hex.decodePairs position read (chars.map fun c => UInt8.ofNat c.toNat) = .ok result →
    ∃ octets, Spells chars octets ∧ result = read.reverse ++ octets
  | [], position, read, result, _, hread => by
      cases hread
      exact ⟨[], .nil, (List.append_nil _).symm⟩
  | [_], position, read, result, _, hread => nomatch hread
  | a :: b :: chars, position, read, result, hsmall, hread => by
      obtain ⟨ha, hothers⟩ := List.forall_mem_cons.mp hsmall
      obtain ⟨hb, hothers⟩ := List.forall_mem_cons.mp hothers
      rw [List.map_cons, List.map_cons, Hex.decodePairs] at hread
      split at hread
      · cases hread
      · cases hread
      · rename_i high low hhigh hlow
        obtain ⟨hhighSmall, hhighDigit⟩ := isDigit_of_value? ha hhigh
        obtain ⟨hlowSmall, hlowDigit⟩ := isDigit_of_value? hb hlow
        obtain ⟨htop, hbottom⟩ := halves_join hhighSmall hlowSmall
        obtain ⟨octets, hspells, hresult⟩ := spells_of_decodePairs hothers hread
        refine ⟨(high <<< 4 ||| low) :: octets, .cons ?_ ?_ hspells, ?_⟩
        · rwa [htop]
        · rwa [hbottom]
        · rw [hresult, List.reverse_cons, List.append_assoc, List.singleton_append]

/-- Only octets of seven bits are read. -/
theorem small_of_decodePairs : ∀ {text : Bytes} {position : Nat} {read result : Bytes},
    Hex.decodePairs position read text = .ok result → ∀ octet ∈ text, octet.toNat < 0x80
  | [], position, read, result, _ => fun _ hmem => absurd hmem List.not_mem_nil
  | [_], position, read, result, hread => nomatch hread
  | a :: b :: text, position, read, result, hread => by
      have hsmall : ∀ {octet v : UInt8}, value? octet = some v → octet.toNat < 0x80 := by
        have hall : ∀ n < 256, (value? (UInt8.ofNat n)).isSome = true → n < 0x80 := by
          decide +kernel
        intro octet v hvalue
        apply hall octet.toNat octet.toNat_lt
        rw [UInt8.ofNat_toNat, hvalue]
        rfl
      rw [Hex.decodePairs] at hread
      split at hread
      · cases hread
      · cases hread
      · rename_i high low hhigh hlow
        exact List.forall_mem_cons.mpr ⟨hsmall hhigh,
          List.forall_mem_cons.mpr ⟨hsmall hlow, small_of_decodePairs hread⟩⟩

/-- **What is read is what the text spells.** -/
theorem decode_eq_ok_iff {octets : Bytes} :
    Hex.decode (Utf8.encode (String.ofList chars)) = .ok octets ↔ Spells chars octets := by
  refine ⟨fun hread => ?_, Spells.decode⟩
  rw [Hex.decode, Utf8.encode, String.toList_ofList] at hread
  split at hread
  · cases hread
  · have hsmall : ∀ c ∈ chars, c.toNat ≤ 0x7F := by
      intro c hmem
      by_contra hlarge
      obtain ⟨lead, _, -, hoctets⟩ := Utf8.exists_leads (Nat.lt_of_not_le hlarge)
      have hlead : lead ∈ String.utf8EncodeChar c := hoctets ▸ List.mem_cons_self
      have hhigh := Text.le_of_mem_utf8EncodeChar (Nat.lt_of_not_le hlarge) lead hlead
      have hlow := small_of_decodePairs hread lead (List.mem_flatMap.mpr ⟨c, hmem, hlead⟩)
      omega
    rw [Utf8.flatMap_ascii hsmall] at hread
    obtain ⟨spelled, hspells, rfl⟩ := spells_of_decodePairs hsmall hread
    exact hspells

end Sound

end Hex

end SatWire
