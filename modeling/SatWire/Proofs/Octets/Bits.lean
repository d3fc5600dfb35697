import Mathlib.Tactic.Common
import SatWire.Octets.BigEndian

/-!
# Octet strings bit by bit

The bits of an octet string are those of its octets in turn, the most significant of each first.
`differing` counts the bits in which two strings of one length differ, and `flipBit` is the change
that alters one of them.

A count of bits matters here only up to its parity, which is the sum of the bits without carry.  So
the parity of the bits in which two strings differ is told by the parities of the two strings alone
(`odd_differing_iff`).
-/

namespace SatWire

/-- Whether an odd number of the bits is set. -/
def parity (bs : List Bool) : Bool :=
  bs.foldr xor false

/-- The bits of a word, the most significant first. -/
def wordBits {width : Nat} (word : BitVec width) : List Bool :=
  (List.range width).map word.getMsbD

/-- The bits of an octet string, the most significant of each octet first. -/
def bits (octets : Bytes) : List Bool :=
  octets.flatMap fun octet => wordBits octet.toBitVec

/-- In how many bits two octet strings of one length differ. -/
def differing (a b : Bytes) : Nat :=
  (List.zipWith xor (bits a) (bits b)).count true

/-- The octet string with one bit of the octet at `place` flipped; bit 0 is the lowest. -/
def flipBit (octets : Bytes) (place : Nat) (bit : Fin 8) : Bytes :=
  octets.modify place (· ^^^ (1 <<< UInt8.ofNat bit))

section Parity

variable {as bs : List Bool}

theorem parity_cons (b : Bool) : parity (b :: bs) = xor b (parity bs) :=
  rfl

/-- The parity of two strings is the sum of theirs. -/
theorem parity_append : parity (as ++ bs) = xor (parity as) (parity bs) := by
  induction as with
  | nil => exact (Bool.false_xor _).symm
  | cons a as ih => rw [List.cons_append, parity_cons, parity_cons, ih, Bool.xor_assoc]

/-- The parity of a sum without carry is the sum of the parities. -/
theorem parity_zipWith_xor (hlength : as.length = bs.length) :
    parity (List.zipWith xor as bs) = xor (parity as) (parity bs) := by
  induction as generalizing bs with
  | nil =>
      obtain rfl := List.length_eq_zero_iff.mp hlength.symm
      rfl
  | cons a as ih =>
      cases bs with
      | nil => cases hlength
      | cons b bs =>
          have hrest := ih (Nat.succ.inj hlength)
          rw [List.zipWith_cons_cons, parity_cons, parity_cons, parity_cons, hrest, Bool.xor_assoc,
            Bool.xor_assoc, Bool.xor_left_comm b]

/-- The parity tells whether the count of set bits is odd. -/
theorem parity_eq_true_iff : parity bs = true ↔ bs.count true % 2 = 1 := by
  induction bs with
  | nil => decide
  | cons b bs ih =>
      rw [parity_cons]
      cases b with
      | false => simpa using ih
      | true =>
          rw [Bool.true_xor, Bool.not_eq_true', ← Bool.not_eq_true, ih, List.count_cons_self]
          omega

end Parity

/-- Lists of one length that differ nowhere are the same. -/
theorem eq_of_zipWith_xor {as bs : List Bool} (hlength : as.length = bs.length)
    (hnone : ∀ b ∈ List.zipWith xor as bs, b = false) : as = bs := by
  induction as generalizing bs with
  | nil => exact (List.length_eq_zero_iff.mp hlength.symm).symm
  | cons a as ih =>
      cases bs with
      | nil => cases hlength
      | cons b bs =>
          rw [List.zipWith_cons_cons, List.forall_mem_cons] at hnone
          obtain ⟨hfirst, hothers⟩ := hnone
          rw [bne_eq_false_iff_eq.mp hfirst, ih (Nat.succ.inj hlength) hothers]

section Words

variable {width : Nat}

@[simp] theorem length_wordBits (x : BitVec width) : (wordBits x).length = width := by
  rw [wordBits, List.length_map, List.length_range]

theorem length_wordBits_eq (x y : BitVec width) : (wordBits x).length = (wordBits y).length := by
  rw [length_wordBits, length_wordBits]

/-- The bits tell the word. -/
theorem wordBits_inj {x y : BitVec width} : wordBits x = wordBits y ↔ x = y := by
  constructor
  · intro hsame
    apply BitVec.eq_of_getMsbD_eq
    intro i hi
    exact List.map_inj_left.mp hsame i (List.mem_range.mpr hi)
  · rintro rfl
    rfl

/-- Words are added without carry bit by bit. -/
theorem wordBits_xor (x y : BitVec width) :
    wordBits (x ^^^ y) = List.zipWith xor (wordBits x) (wordBits y) := by
  unfold wordBits
  rw [List.zipWith_map, List.zipWith_self]
  exact List.map_congr_left fun _ _ => BitVec.getMsbD_xor

/-- The bits of a word stand in front of those of the word joined to it. -/
theorem wordBits_append {low : Nat} (x : BitVec width) (y : BitVec low) :
    wordBits (x ++ y) = wordBits x ++ wordBits y := by
  unfold wordBits
  rw [List.range_add, List.map_append, List.map_map]
  congr 1
  · apply List.map_congr_left
    intro i hi
    have hhigh : ¬ width ≤ i := Nat.not_le.mpr (List.mem_range.mp hi)
    rw [BitVec.getMsbD_append, if_neg hhigh]
  · apply List.map_congr_left
    intro i _
    rw [Function.comp_apply, BitVec.getMsbD_append, if_pos (Nat.le_add_right _ _),
      Nat.add_sub_cancel_left]

/-- Shifting drops the first bit and puts a zero behind the last. -/
theorem wordBits_shiftLeft_one (x : BitVec (width + 1)) :
    ∃ others, wordBits x = x.msb :: others ∧ wordBits (x <<< 1) = others ++ [false] := by
  refine ⟨(List.range width).map fun i => x.getMsbD (i + 1), ?_, ?_⟩
  · unfold wordBits
    rw [List.range_succ_eq_map, List.map_cons, List.map_map, BitVec.msb_eq_getMsbD_zero]
    rfl
  · unfold wordBits
    rw [List.range_succ, List.map_append, List.map_singleton, BitVec.getMsbD_shiftLeft,
      BitVec.getMsbD_of_ge _ _ (Nat.le_refl _)]
    congr 1
    exact List.map_congr_left fun i _ => BitVec.getMsbD_shiftLeft x 1

/-- The parity of a sum of words is the sum of their parities. -/
theorem parity_wordBits_xor (x y : BitVec width) :
    parity (wordBits (x ^^^ y)) = xor (parity (wordBits x)) (parity (wordBits y)) := by
  rw [wordBits_xor, parity_zipWith_xor (length_wordBits_eq x y)]

/-- Shifting changes the parity by the bit that falls out. -/
theorem parity_wordBits_shiftLeft_one (x : BitVec (width + 1)) :
    parity (wordBits (x <<< 1)) = xor x.msb (parity (wordBits x)) := by
  obtain ⟨others, hbefore, hafter⟩ := wordBits_shiftLeft_one x
  calc parity (wordBits (x <<< 1))
      = xor (parity others) (parity [false]) := by rw [hafter, parity_append]
    _ = parity others := Bool.xor_false _
    _ = xor x.msb (xor x.msb (parity others)) := by
        rw [← Bool.xor_assoc, Bool.xor_self, Bool.false_xor]
    _ = xor x.msb (parity (wordBits x)) := by rw [hbefore, parity_cons]

end Words

section Strings

variable {a b : Bytes}

/-- The bits of the first octet stand in front. -/
theorem bits_cons (octet : UInt8) :
    bits (octet :: a) = wordBits octet.toBitVec ++ bits a :=
  List.flatMap_cons

/-- The bits of two strings stand one behind the other. -/
theorem bits_append : bits (a ++ b) = bits a ++ bits b :=
  List.flatMap_append

/-- Each octet has eight bits. -/
theorem length_bits : (bits a).length = 8 * a.length := by
  induction a with
  | nil => rfl
  | cons octet a ih =>
      rw [bits_cons, List.length_append, length_wordBits, ih, List.length_cons]
      omega

theorem length_bits_eq (hlength : a.length = b.length) : (bits a).length = (bits b).length := by
  rw [length_bits, length_bits, hlength]

/-- The bits tell the octets. -/
theorem bits_inj (hlength : a.length = b.length) : bits a = bits b ↔ a = b := by
  constructor
  · intro hsame
    induction a generalizing b with
    | nil => exact (List.length_eq_zero_iff.mp hlength.symm).symm
    | cons octet a ih =>
        cases b with
        | nil => cases hlength
        | cons other b =>
            rw [bits_cons, bits_cons] at hsame
            obtain ⟨hfirst, hothers⟩ := List.append_inj hsame (length_wordBits_eq _ _)
            rw [UInt8.toBitVec_inj.mp (wordBits_inj.mp hfirst),
              ih (Nat.succ.inj hlength) hothers]
  · rintro rfl
    rfl

/-- **Differences and parities.**  Strings of one length differ in an odd number of bits exactly if
one has an odd number of bits set and the other has not. -/
theorem odd_differing_iff (hlength : a.length = b.length) :
    differing a b % 2 = 1 ↔ parity (bits a) ≠ parity (bits b) := by
  unfold differing
  rw [← parity_eq_true_iff, parity_zipWith_xor (length_bits_eq hlength)]
  exact bne_iff_ne

/-- The bits that differ are counted octet by octet. -/
theorem differing_cons (octet other : UInt8) :
    differing (octet :: a) (other :: b)
      = (wordBits (octet ^^^ other).toBitVec).count true + differing a b := by
  unfold differing
  rw [bits_cons, bits_cons, List.zipWith_append (length_wordBits_eq _ _), List.count_append,
    UInt8.toBitVec_xor, wordBits_xor]

/-- The bits that differ are counted part by part. -/
theorem differing_append {c d : Bytes} (hlength : a.length = b.length) :
    differing (a ++ c) (b ++ d) = differing a b + differing c d := by
  unfold differing
  rw [bits_append, bits_append, List.zipWith_append (length_bits_eq hlength), List.count_append]

theorem differing_self : differing a a = 0 := by
  induction a with
  | nil => rfl
  | cons octet a ih =>
      rw [differing_cons, ih, UInt8.xor_self]
      rfl

/-- One bit of an octet is set in it alone. -/
theorem count_wordBits_bit (bit : Fin 8) :
    (wordBits ((1 : UInt8) <<< UInt8.ofNat bit).toBitVec).count true = 1 := by
  decide +revert

/-- Flipping a bit keeps the length. -/
theorem length_flipBit (place : Nat) (bit : Fin 8) : (flipBit a place bit).length = a.length :=
  List.length_modify ..

/-- Flipping a bit leaves all other octets as they are. -/
theorem getElem?_flipBit_of_ne {place i : Nat} (bit : Fin 8) (hother : place ≠ i) :
    (flipBit a place bit)[i]? = a[i]? :=
  List.getElem?_modify_ne _ a hother

/-- Flipping a bit changes its octet. -/
theorem getElem?_flipBit_ne {place : Nat} (bit : Fin 8) (hplace : place < a.length) :
    (flipBit a place bit)[place]? ≠ a[place]? := by
  have hmask : (1 : UInt8) <<< UInt8.ofNat bit ≠ 0 := by decide +revert
  intro hsame
  unfold flipBit at hsame
  rw [List.getElem?_modify_eq, List.getElem?_eq_getElem hplace] at hsame
  have hoctet : a[place] ^^^ (1 <<< UInt8.ofNat bit) = a[place] := Option.some.inj hsame
  have hzero := congrArg (a[place] ^^^ ·) hoctet
  rw [← UInt8.xor_assoc, UInt8.xor_self, UInt8.zero_xor] at hzero
  exact hmask hzero

/-- **Flipping a bit changes that bit only.** -/
theorem differing_flipBit {place : Nat} (hplace : place < a.length) (bit : Fin 8) :
    differing a (flipBit a place bit) = 1 := by
  induction a generalizing place with
  | nil => cases hplace
  | cons octet a ih =>
      cases place with
      | zero =>
          have hhead : octet ^^^ (octet ^^^ (1 <<< UInt8.ofNat bit)) = 1 <<< UInt8.ofNat bit := by
            rw [← UInt8.xor_assoc, UInt8.xor_self, UInt8.zero_xor]
          unfold flipBit
          rw [List.modify_zero_cons, differing_cons, hhead, differing_self, count_wordBits_bit]
      | succ place =>
          have hrest := ih (Nat.lt_of_succ_lt_succ hplace)
          unfold flipBit at hrest ⊢
          rw [List.modify_succ_cons, differing_cons, hrest, UInt8.xor_self]
          rfl

end Strings

end SatWire
