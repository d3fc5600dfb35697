import SatWire.Octets.Checksum
import SatWire.Proofs.Octets.Bits

/-!
# What the checksum keeps

The generator has an even number of terms, so a shift of the register does not change the register's
parity: either nothing falls out at the top, or a one falls out and the generator brings three bits
in.  What changes the parity is the octets alone, and `parity_crc` says how: a checksum has the
parity of what it was computed from.
-/

namespace SatWire.Checksum

/-- The top bit decides whether the generator comes in. -/
theorem shift_eq (register : UInt16) :
    shift register
      = if register.toBitVec.msb then (register <<< 1) ^^^ polynomial else register <<< 1 := by
  have hmask : (0x8000 : UInt16).toBitVec = BitVec.twoPow 16 15 := by decide
  have htop : register &&& 0x8000 = 0 ↔ register.toBitVec.msb = false := by
    rw [← UInt16.toBitVec_inj, UInt16.toBitVec_and, hmask, BitVec.and_twoPow,
      BitVec.msb_eq_getLsbD_last]
    cases register.toBitVec.getLsbD (16 - 1) <;> decide
  unfold shift
  by_cases hzero : register &&& 0x8000 = 0
  · rw [if_pos hzero, htop.mp hzero, if_neg Bool.false_ne_true]
  · have hset : register.toBitVec.msb = true := by
      simpa using mt htop.mpr hzero
    rw [if_neg hzero, hset, if_pos rfl]

/-- Registers are shifted as words of bits are. -/
theorem toBitVec_shiftLeft_one (register : UInt16) :
    (register <<< 1).toBitVec = register.toBitVec <<< 1 := by
  rw [UInt16.toBitVec_shiftLeft]
  rfl

/-- **A shift keeps the parity of the register.** -/
theorem parity_shift (register : UInt16) :
    parity (wordBits (shift register).toBitVec) = parity (wordBits register.toBitVec) := by
  have hone := toBitVec_shiftLeft_one register
  have hshifted := parity_wordBits_shiftLeft_one register.toBitVec
  have hgenerator : parity (wordBits polynomial.toBitVec) = true := by decide
  rw [shift_eq]
  cases hmsb : register.toBitVec.msb with
  | false => rw [if_neg Bool.false_ne_true, hone, hshifted, hmsb, Bool.false_xor]
  | true =>
      -- One bit is lost at the top, and the generator's three come in.
      rw [if_pos rfl, UInt16.toBitVec_xor, parity_wordBits_xor, hone, hshifted, hmsb, hgenerator,
        Bool.xor_true, Bool.true_xor, Bool.not_not]

/-- Any number of shifts keeps the parity of the register. -/
theorem parity_shifts (count : Nat) (register : UInt16) :
    parity (wordBits (Nat.repeat shift count register).toBitVec)
      = parity (wordBits register.toBitVec) := by
  induction count with
  | zero => rfl
  | succ count ih => rw [Nat.repeat, parity_shift, ih]

/-- An octet in the high half of a register stands in front of eight zeros. -/
theorem toBitVec_high (octet : UInt8) :
    (octet.toUInt16 <<< 8).toBitVec = octet.toBitVec ++ (0 : BitVec 8) := by
  have hoctet := octet.toNat_lt
  apply BitVec.eq_of_toNat_eq
  rw [BitVec.toNat_append, ← Nat.shiftLeft_add_eq_or_of_lt (BitVec.isLt _), Nat.shiftLeft_eq]
  simp [Nat.shiftLeft_eq]
  omega

/-- An octet in the high half of a register has its own parity. -/
theorem parity_high (octet : UInt8) :
    parity (wordBits (octet.toUInt16 <<< 8).toBitVec) = parity (wordBits octet.toBitVec) := by
  have hzero : parity (wordBits (0 : BitVec 8)) = false := by decide
  rw [toBitVec_high, wordBits_append, parity_append, hzero, Bool.xor_false]

/-- **An octet changes the parity of the register by its own.** -/
theorem parity_absorb (register : UInt16) (octet : UInt8) :
    parity (wordBits (absorb register octet).toBitVec)
      = xor (parity (wordBits register.toBitVec)) (parity (wordBits octet.toBitVec)) := by
  unfold absorb
  rw [parity_shifts, UInt16.toBitVec_xor, parity_wordBits_xor, parity_high]

/-- Octets change the parity of the register by that of all their bits. -/
theorem parity_run (register : UInt16) (octets : Bytes) :
    parity (wordBits (run register octets).toBitVec)
      = xor (parity (wordBits register.toBitVec)) (parity (bits octets)) := by
  induction octets generalizing register with
  | nil => exact (Bool.xor_false _).symm
  | cons octet octets ih =>
      have hrest := ih (absorb register octet)
      rw [bits_cons, parity_append, ← Bool.xor_assoc, ← parity_absorb]
      exact hrest

/-- **A checksum has the parity of what it was computed from.** -/
theorem parity_crc (octets : Bytes) :
    parity (wordBits (crc octets).toBitVec) = parity (bits octets) := by
  have hinitial : parity (wordBits initial.toBitVec) = false := by decide
  unfold crc
  rw [parity_run, hinitial, Bool.false_xor]

/-- A word written as two octets keeps its bits. -/
theorem bits_ofNat_two (word : UInt16) :
    bits (BigEndian.ofNat 2 word.toNat) = wordBits word.toBitVec := by
  have hwritten : BigEndian.ofNat 2 word.toNat
      = [UInt8.ofNat (word.toNat / 256), UInt8.ofNat word.toNat] := by
    simp [BigEndian.ofNat, BigEndian.wordCount]
  have hword : (UInt8.ofNat (word.toNat / 256)).toBitVec ++ (UInt8.ofNat word.toNat).toBitVec
      = word.toBitVec := by
    have hlt := word.toNat_lt
    apply BitVec.eq_of_toNat_eq
    rw [BitVec.toNat_append, ← Nat.shiftLeft_add_eq_or_of_lt (BitVec.isLt _), Nat.shiftLeft_eq]
    simp
    omega
  rw [hwritten, ← hword, wordBits_append, bits_cons, bits_cons]
  exact congrArg _ (List.append_nil _)

/-- Two words differ in as many bits as the octets they are written in. -/
theorem differing_ofNat_two (a b : UInt16) :
    differing (BigEndian.ofNat 2 a.toNat) (BigEndian.ofNat 2 b.toNat)
      = (wordBits (a ^^^ b).toBitVec).count true := by
  rw [differing, bits_ofNat_two, bits_ofNat_two, UInt16.toBitVec_xor, wordBits_xor]

/-- Octets with their checksum behind them. -/
def withChecksum (octets : Bytes) : Bytes :=
  octets ++ BigEndian.ofNat 2 (crc octets).toNat

/-- A checksum adds two octets. -/
theorem length_withChecksum (octets : Bytes) :
    (withChecksum octets).length = octets.length + 2 := by
  rw [withChecksum, List.length_append, BigEndian.length_ofNat]

/-- Octets and their checksum have an even number of bits set. -/
theorem parity_withChecksum (octets : Bytes) : parity (bits (withChecksum octets)) = false := by
  rw [withChecksum, bits_append, parity_append, bits_ofNat_two, parity_crc, Bool.xor_self]

end SatWire.Checksum
