import Mathlib.Tactic.Common
import SatWire.Frame.Scalar
import SatWire.Proofs.Octets.Words
import SatWire.Proofs.Outcome
import SatWire.Proofs.Text.Utf8

/-!
# How values without fields are spelled

`SpellsScalar` lists the spellings of every value that a type without fields may have.  A truth
value alone has more than one: false is a zero octet, true any other.  The relation therefore keeps
the octet a truth value was read from; `Canonical` picks the spelling that is used in writing.

* `SpellsScalar.decode` and `spells_of_decode` — what is read are exactly the spellings;
* `SpellsScalar.encode` and `spells_of_encode` — what is written is the canonical one.
-/

namespace SatWire

/-- Octets behind their 16-bit length. -/
def block (body : Bytes) : Bytes :=
  BigEndian.ofNat 2 body.length ++ body

/-- A block is two octets longer than its body. -/
@[simp] theorem length_block (body : Bytes) : (block body).length = 2 + body.length := by
  simp [block]

/-- Blocks of one size are equal only if their bodies are. -/
theorem block_inj {a b : Bytes} (hlength : a.length = b.length) : block a = block b ↔ a = b := by
  rw [block, block, hlength, List.append_right_inj]

/-- A block is written exactly if its length can tell how long the body is. -/
theorem encodeBlock_eq_ok_iff {part : Part} {body octets : Bytes} :
    encodeBlock part body = .ok octets ↔ body.length ≤ maxLength ∧ octets = block body := by
  unfold encodeBlock block
  by_cases hshort : body.length ≤ maxLength
  · simp [hshort, eq_comm]
  · simp [hshort, refuse]

/-- What a length can tell is a number of two octets. -/
theorem lt_wordCount_of_le {n : Nat} (h : n ≤ maxLength) : n < BigEndian.wordCount 2 :=
  Nat.lt_succ_of_le h

namespace Cursor

/-- A written number is taken off in as many octets as it was written in. -/
theorem take_ofNat {part : Part} (offset width n : Nat) (rest : Bytes) :
    (Cursor.mk offset (BigEndian.ofNat width n ++ rest)).take width part
      = .ok (BigEndian.ofNat width n, ⟨offset + width, rest⟩) := by
  simpa only [BigEndian.length_ofNat]
    using take_append offset (BigEndian.ofNat width n) rest

/-- A written number is read back in front of anything. -/
theorem takeNat_ofNat {width n : Nat} {part : Part} (offset : Nat) (rest : Bytes)
    (h : n < BigEndian.wordCount width) :
    (Cursor.mk offset (BigEndian.ofNat width n ++ rest)).takeNat width part
      = .ok (n, ⟨offset + width, rest⟩) := by
  rw [takeNat, take_ofNat]
  simp [Except.map, BigEndian.toNat_ofNat h]

/-- A block that is there is taken, whatever stands behind it. -/
theorem takeBlock_block {length body : Part} (offset : Nat) {octets : Bytes} (rest : Bytes)
    (h : octets.length ≤ maxLength) :
    (Cursor.mk offset (block octets ++ rest)).takeBlock length body
      = .ok (octets, ⟨offset + (block octets).length, rest⟩) := by
  rw [takeBlock, block, List.append_assoc,
    takeNat_ofNat offset (octets ++ rest) (lt_wordCount_of_le h)]
  change (Cursor.mk (offset + 2) (octets ++ rest)).take octets.length body = _
  rw [take_append, List.length_append, BigEndian.length_ofNat, Nat.add_assoc]

/-- A number that is taken stood in front of what is left. -/
theorem ofNat_of_takeNat {c next : Cursor} {width n : Nat} {part : Part}
    (h : c.takeNat width part = .ok (n, next)) :
    n < BigEndian.wordCount width ∧ c.rest = BigEndian.ofNat width n ++ next.rest
      ∧ next.offset = c.offset + width := by
  obtain ⟨⟨octets, place⟩, htake, heq⟩ := map_eq_ok_iff.mp h
  obtain ⟨rfl, rfl⟩ := Prod.mk.inj heq
  obtain ⟨rfl, hrest, hoffset⟩ := rest_of_take htake
  exact ⟨BigEndian.toNat_lt octets, by rw [BigEndian.ofNat_toNat, hrest], hoffset⟩

/-- A block that is taken stood in front of what is left. -/
theorem block_of_takeBlock {c next : Cursor} {length body : Part} {octets : Bytes}
    (h : c.takeBlock length body = .ok (octets, next)) :
    octets.length ≤ maxLength ∧ c.rest = block octets ++ next.rest
      ∧ next.offset = c.offset + (block octets).length := by
  obtain ⟨⟨size, place⟩, hlength, hbody⟩ := bind_eq_ok_iff.mp h
  obtain ⟨hsize, hfirst, hplace⟩ := ofNat_of_takeNat hlength
  obtain ⟨rfl, hsecond, hoffset⟩ := rest_of_take hbody
  refine ⟨Nat.le_of_lt_succ hsize, ?_, ?_⟩
  · rw [hfirst, hsecond, block, List.append_assoc]
  · rw [hoffset, hplace, length_block]
    omega

end Cursor

/-- Octets spell a value of a type without fields.  The last argument holds the octet of a truth
value, and is empty otherwise. -/
inductive SpellsScalar : Bytes → FieldType → Value → Bytes → Prop
  | uint (width : Width) (n : UInt64) (hfits : n.toNat < BigEndian.wordCount width.octets) :
      SpellsScalar (BigEndian.ofNat width.octets n.toNat) (.uint width) (.uint n) []
  | int (width : Width) (n : Int64) (hlow : -(BigEndian.wordCount width.octets : Int) ≤ 2 * n.toInt)
      (hhigh : 2 * n.toInt < (BigEndian.wordCount width.octets : Int)) :
      SpellsScalar (BigEndian.ofInt width.octets n.toInt) (.int width) (.int n) []
  | bool (octet : UInt8) : SpellsScalar [octet] .bool (.bool (octet != 0)) [octet]
  | enum (n : UInt8) : SpellsScalar [n] .enum (.enum n) []
  | text (s : String) (hshort : (Utf8.encode s).length ≤ maxLength) :
      SpellsScalar (block (Utf8.encode s)) .text (.text s) []
  | bytes (octets : Bytes) (hshort : octets.length ≤ maxLength) :
      SpellsScalar (block octets) .bytes (.bytes octets) []

/-- Every octet of a truth value is the one that is written. -/
def Canonical (truths : Bytes) : Prop :=
  ∀ octet ∈ truths, octet = 0 ∨ octet = 1

theorem Canonical.nil : Canonical [] :=
  fun _ h => absurd h List.not_mem_nil

@[simp] theorem canonical_append {s t : Bytes} :
    Canonical (s ++ t) ↔ Canonical s ∧ Canonical t :=
  List.forall_mem_append

/-- A truth value is canonical as 0 or 1. -/
theorem canonical_singleton {octet : UInt8} : Canonical [octet] ↔ octet = 0 ∨ octet = 1 :=
  List.forall_mem_singleton

/-- The octet written for a truth value is the one it was read from, if that is canonical. -/
theorem truth_eq_iff (octet : UInt8) :
    (if octet != 0 then (1 : UInt8) else 0) = octet ↔ octet = 0 ∨ octet = 1 := by
  by_cases hzero : octet = 0
  · subst hzero
    decide
  · have hread : (octet != 0) = true := bne_iff_ne.mpr hzero
    rw [if_pos hread]
    exact ⟨fun h => Or.inr h.symm, fun h => (h.resolve_left hzero).symm⟩

/-- A width holds the numbers that its octets can write. -/
theorem Width.holdsNat_iff {width : Width} {n : UInt64} :
    width.holdsNat n = true ↔ n.toNat < BigEndian.wordCount width.octets := by
  simp [Width.holdsNat]

/-- A width holds the signed numbers that its octets can write, half of them below zero. -/
theorem Width.holdsInt_iff {width : Width} {n : Int64} :
    width.holdsInt n = true ↔ -(BigEndian.wordCount width.octets : Int) ≤ 2 * n.toInt
      ∧ 2 * n.toInt < (BigEndian.wordCount width.octets : Int) := by
  simp [Width.holdsInt]

/-- No width has more words than the widest. -/
theorem Width.wordCount_le (width : Width) :
    BigEndian.wordCount width.octets ≤ BigEndian.wordCount 8 := by
  cases width <;> decide

namespace SpellsScalar

variable {octets truths : Bytes} {type : FieldType} {value : Value}

/-- What is spelled fits its type. -/
theorem holds (h : SpellsScalar octets type value truths) : type.holds value = true := by
  cases h with
  | uint width n hfits => exact Width.holdsNat_iff.mpr hfits
  | int width n hlow hhigh => exact Width.holdsInt_iff.mpr ⟨hlow, hhigh⟩
  | bool | enum | text | bytes => rfl

/-- Only types without fields of their own spell a value at once. -/
theorem not_composite (h : SpellsScalar octets type value truths) : type.isComposite = false := by
  cases h <;> rfl

/-- Every spelling takes room. -/
theorem length_pos (h : SpellsScalar octets type value truths) : 0 < octets.length := by
  cases h with
  | uint width | int width => cases width <;> simp [BigEndian.ofInt, Width.octets]
  | bool | enum => exact Nat.one_pos
  | text s | bytes octets =>
      rw [length_block]
      omega

/-- **What is spelled can be written**, in as many octets, and in the same octets exactly if the
spelling is canonical. -/
theorem encode (h : SpellsScalar octets type value truths) :
    ∃ written, Scalar.encode type value = .ok written ∧ written.length = octets.length
      ∧ (written = octets ↔ Canonical truths) := by
  have hholds := h.holds
  have hplain := h.not_composite
  cases h with
  | uint width n hfits =>
      refine ⟨_, ?_, rfl, by simp [Canonical.nil]⟩
      simp [Scalar.encode, hplain, hholds]
  | int width n hlow hhigh =>
      refine ⟨_, ?_, rfl, by simp [Canonical.nil]⟩
      simp [Scalar.encode, hplain, hholds]
  | bool octet =>
      refine ⟨[if octet != 0 then 1 else 0], ?_, rfl, ?_⟩
      · simp [Scalar.encode, hplain, hholds]
      · rw [canonical_singleton, List.singleton_inj, truth_eq_iff]
  | enum n =>
      refine ⟨_, ?_, rfl, by simp [Canonical.nil]⟩
      simp [Scalar.encode, hplain, hholds]
  | text s hshort =>
      refine ⟨_, ?_, rfl, by simp [Canonical.nil]⟩
      simpa [Scalar.encode, hplain, hholds] using encodeBlock_eq_ok_iff.mpr ⟨hshort, rfl⟩
  | bytes octets hshort =>
      refine ⟨_, ?_, rfl, by simp [Canonical.nil]⟩
      simpa [Scalar.encode, hplain, hholds] using encodeBlock_eq_ok_iff.mpr ⟨hshort, rfl⟩

/-- **What is spelled is read**, whatever stands behind it. -/
theorem decode (h : SpellsScalar octets type value truths) (offset : Nat) (rest : Bytes) :
    Scalar.decode ⟨offset, octets ++ rest⟩ type = .ok (value, ⟨offset + octets.length, rest⟩) := by
  cases h with
  | uint width n hfits =>
      rw [Scalar.decode, Cursor.take_ofNat, BigEndian.length_ofNat]
      simp [Except.map, BigEndian.toNat_ofNat hfits]
  | int width n hlow hhigh =>
      rw [Scalar.decode, BigEndian.ofInt, Cursor.take_ofNat, BigEndian.length_ofNat]
      have hread := BigEndian.toInt_ofInt hlow hhigh
      rw [BigEndian.ofInt] at hread
      simp [Except.map, hread]
  | bool octet => rfl
  | enum n => rfl
  | text s hshort =>
      rw [Scalar.decode, Cursor.takeBlock_block offset rest hshort]
      simp [Except.bind, Utf8.decode_encode]
  | bytes octets hshort =>
      rw [Scalar.decode, Cursor.takeBlock_block offset rest hshort]
      rfl

end SpellsScalar

/-- **What is written is spelled canonically.** -/
theorem spells_of_encode {type : FieldType} {value : Value} {octets : Bytes}
    (h : Scalar.encode type value = .ok octets) :
    ∃ truths, SpellsScalar octets type value truths ∧ Canonical truths := by
  unfold Scalar.encode at h
  split at h
  · exact absurd h refuse_ne_ok
  split at h
  · rename_i hholds
    split at h
    · cases h
      exact ⟨[], .uint _ _ (Width.holdsNat_iff.mp hholds), .nil⟩
    · cases h
      obtain ⟨hlow, hhigh⟩ := Width.holdsInt_iff.mp hholds
      exact ⟨[], .int _ _ hlow hhigh, .nil⟩
    · rename_i b
      obtain rfl : type = .bool := by cases type <;> simp [FieldType.holds] at hholds ⊢
      cases h
      cases b with
      | false => exact ⟨[0], .bool 0, canonical_singleton.mpr (Or.inl rfl)⟩
      | true => exact ⟨[1], .bool 1, canonical_singleton.mpr (Or.inr rfl)⟩
    · obtain rfl : type = .enum := by cases type <;> simp [FieldType.holds] at hholds ⊢
      cases h
      exact ⟨[], .enum _, .nil⟩
    · obtain rfl : type = .text := by cases type <;> simp [FieldType.holds] at hholds ⊢
      obtain ⟨hshort, rfl⟩ := encodeBlock_eq_ok_iff.mp h
      exact ⟨[], .text _ hshort, .nil⟩
    · obtain rfl : type = .bytes := by cases type <;> simp [FieldType.holds] at hholds ⊢
      obtain ⟨hshort, rfl⟩ := encodeBlock_eq_ok_iff.mp h
      exact ⟨[], .bytes _ hshort, .nil⟩
    · exact absurd h refuse_ne_ok
  · exact absurd h refuse_ne_ok

/-- **What is read is spelled** by the octets that were taken. -/
theorem spells_of_decode {c next : Cursor} {type : FieldType} {value : Value}
    (h : Scalar.decode c type = .ok (value, next)) :
    ∃ octets truths, SpellsScalar octets type value truths ∧ c.rest = octets ++ next.rest
      ∧ next.offset = c.offset + octets.length := by
  cases type with
  | uint width =>
      obtain ⟨⟨octets, place⟩, htake, heq⟩ := map_eq_ok_iff.mp h
      obtain ⟨rfl, rfl⟩ := Prod.mk.inj heq
      obtain ⟨hsize, hrest, hoffset⟩ := Cursor.rest_of_take htake
      have hlow := BigEndian.toNat_lt octets
      rw [hsize] at hlow
      have hnat : (UInt64.ofNat (BigEndian.toNat octets)).toNat = BigEndian.toNat octets :=
        UInt64.toNat_ofNat_of_lt' (Nat.lt_of_lt_of_le hlow width.wordCount_le)
      have hspells := SpellsScalar.uint width (.ofNat (BigEndian.toNat octets)) (by rwa [hnat])
      rw [hnat, ← hsize, BigEndian.ofNat_toNat] at hspells
      exact ⟨octets, [], hspells, hrest, by rw [hoffset, hsize]⟩
  | int width =>
      obtain ⟨⟨octets, place⟩, htake, heq⟩ := map_eq_ok_iff.mp h
      obtain ⟨rfl, rfl⟩ := Prod.mk.inj heq
      obtain ⟨hsize, hrest, hoffset⟩ := Cursor.rest_of_take htake
      obtain ⟨hlow, hhigh⟩ := BigEndian.toInt_range octets
      rw [hsize] at hlow hhigh
      have hwidth : (BigEndian.wordCount width.octets : Int) ≤ BigEndian.wordCount 8 :=
        Int.ofNat_le.mpr width.wordCount_le
      have hwidest : BigEndian.wordCount 8 = 18446744073709551616 := rfl
      have hint : (Int64.ofInt (BigEndian.toInt octets)).toInt = BigEndian.toInt octets :=
        Int64.toInt_ofInt_of_le (by omega) (by omega)
      have hspells := SpellsScalar.int width (.ofInt (BigEndian.toInt octets))
        (by rwa [hint]) (by rwa [hint])
      rw [hint, ← hsize, BigEndian.ofInt_toInt] at hspells
      exact ⟨octets, [], hspells, hrest, by rw [hoffset, hsize]⟩
  | bool =>
      obtain ⟨⟨octet, place⟩, htake, heq⟩ := map_eq_ok_iff.mp h
      obtain ⟨rfl, rfl⟩ := Prod.mk.inj heq
      obtain ⟨hrest, hoffset⟩ := Cursor.rest_of_takeOctet htake
      exact ⟨[octet], [octet], .bool octet, hrest, hoffset⟩
  | enum =>
      obtain ⟨⟨octet, place⟩, htake, heq⟩ := map_eq_ok_iff.mp h
      obtain ⟨rfl, rfl⟩ := Prod.mk.inj heq
      obtain ⟨hrest, hoffset⟩ := Cursor.rest_of_takeOctet htake
      exact ⟨[octet], [], .enum octet, hrest, hoffset⟩
  | text =>
      obtain ⟨⟨octets, place⟩, htake, hread⟩ := bind_eq_ok_iff.mp h
      obtain ⟨hshort, hrest, hoffset⟩ := Cursor.block_of_takeBlock htake
      simp only at hread
      split at hread
      · rename_i s hdecode
        cases hread
        have hencode := Utf8.encode_of_decode hdecode
        rw [← hencode] at hshort hrest hoffset
        exact ⟨_, [], .text s hshort, hrest, hoffset⟩
      · exact absurd hread refuse_ne_ok
  | bytes =>
      obtain ⟨⟨octets, place⟩, htake, heq⟩ := map_eq_ok_iff.mp h
      obtain ⟨rfl, rfl⟩ := Prod.mk.inj heq
      obtain ⟨hshort, hrest, hoffset⟩ := Cursor.block_of_takeBlock htake
      exact ⟨_, [], .bytes octets hshort, hrest, hoffset⟩
  | array | message => exact absurd h refuse_ne_ok

end SatWire
