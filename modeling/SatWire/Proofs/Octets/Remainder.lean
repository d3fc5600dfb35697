import Mathlib.GroupTheory.OrderOfElement
import Mathlib.RingTheory.AdjoinRoot
import Mathlib.Tactic.ComputeDegree
import Mathlib.Tactic.NormNum.Prime
import SatWire.Proofs.Octets.Checksum
import SatWire.Proofs.Octets.Polynomial

/-!
# The register as a remainder

A shift of the register multiplies its polynomial by `x`, up to a multiple of the generator: the bit
that falls out at the top is the `x^16` that the generator's other terms are put for (`residue_shift`).
So a register is what division by the generator leaves of the octets that went into it, with the first
register in front of them (`residue_run`), and registers that are left alike are the same
(`residue_register_inj`).

A register misses a change of the octets exactly if division leaves nothing of the change
(`run_eq_iff`).  Two facts about the generator decide which changes these can be.  Powers of `x` have
inverses beside it, so that shifting a change does not hide it (`isUnit_residue_X`), and no power of
`x` below the 32767th leaves one (`residue_X_pow_ne_one`).
-/

namespace SatWire.Checksum

open Polynomial

/-- The generator of the checksum. -/
noncomputable def generator : (ZMod 2)[X] :=
  X ^ 16 + X ^ 12 + X ^ 5 + 1

/-- What division by the generator leaves of a polynomial. -/
noncomputable abbrev residue : (ZMod 2)[X] →+* AdjoinRoot generator :=
  AdjoinRoot.mk generator

/-- The polynomial of a register. -/
noncomputable def ofRegister (register : UInt16) : (ZMod 2)[X] :=
  asPolynomial (wordBits register.toBitVec)

/-- The generator has the degree that a register has bits. -/
theorem degree_generator : generator.degree = 16 := by
  unfold generator
  compute_degree!

/-- Polynomials leave the same exactly if their sum leaves nothing. -/
theorem residue_eq_iff {p q : (ZMod 2)[X]} : residue p = residue q ↔ residue (p + q) = 0 := by
  rw [AdjoinRoot.mk_eq_mk, AdjoinRoot.mk_eq_zero, CharTwo.sub_eq_add]

/-- The register's constant holds the generator's terms below the highest. -/
theorem ofRegister_polynomial : ofRegister polynomial = X ^ 12 + X ^ 5 + 1 := by
  have hbits : wordBits polynomial.toBitVec
      = [false, false, false, true, false, false, false, false, false, false, true, false, false,
        false, false, true] := by
    decide
  rw [ofRegister, hbits]
  simp [asPolynomial, add_assoc]

/-- Registers are added as polynomials, without carry. -/
theorem ofRegister_xor (a b : UInt16) : ofRegister (a ^^^ b) = ofRegister a + ofRegister b := by
  rw [ofRegister, UInt16.toBitVec_xor, asPolynomial_wordBits_xor, ofRegister, ofRegister]

/-- **A shift multiplies by `x`**, up to a multiple of the generator. -/
theorem residue_shift (register : UInt16) :
    residue (ofRegister (shift register)) = residue X * residue (ofRegister register) := by
  obtain ⟨others, hbefore, hafter⟩ := wordBits_shiftLeft_one register.toBitVec
  have hothers : others.length = 15 := by
    have hlength := congrArg List.length hbefore
    rw [length_wordBits, List.length_cons] at hlength
    omega
  have hshifted : ofRegister (register <<< 1) = asPolynomial others * X := by
    rw [ofRegister, toBitVec_shiftLeft_one, hafter, asPolynomial_append]
    simp [asPolynomial]
  have hregister : ofRegister register
      = (if register.toBitVec.msb then X ^ 15 else 0) + asPolynomial others := by
    rw [ofRegister, hbefore, asPolynomial, hothers]
  rw [shift_eq, ← map_mul, hregister]
  cases register.toBitVec.msb with
  | false =>
      simp only [Bool.false_eq_true, if_false, hshifted, zero_add]
      rw [mul_comm]
  | true =>
      -- The two sides differ by the generator.
      rw [if_pos rfl, if_pos rfl, ofRegister_xor, hshifted, ofRegister_polynomial,
        AdjoinRoot.mk_eq_mk]
      refine ⟨1, ?_⟩
      have htwice : X ^ 16 + X ^ 16 = (0 : (ZMod 2)[X]) := CharTwo.add_self_eq_zero _
      unfold generator
      linear_combination -htwice

/-- Shifts in turn multiply by a power of `x`. -/
theorem residue_shifts (count : Nat) (register : UInt16) :
    residue (ofRegister (Nat.repeat shift count register))
      = residue X ^ count * residue (ofRegister register) := by
  induction count with
  | zero => rw [Nat.repeat, pow_zero, one_mul]
  | succ count ih =>
      rw [Nat.repeat, residue_shift, ih, pow_succ]
      ring

/-- **An octet** goes in behind what the register stands for. -/
theorem residue_absorb (register : UInt16) (octet : UInt8) :
    residue (ofRegister (absorb register octet))
      = residue (ofRegister register * X ^ 8 + asPolynomial (wordBits octet.toBitVec) * X ^ 16) := by
  have hzero : asPolynomial (wordBits (0 : BitVec 8)) = 0 :=
    asPolynomial_eq_zero_iff.mpr (by decide)
  have hhigh : ofRegister (octet.toUInt16 <<< 8) = asPolynomial (wordBits octet.toBitVec) * X ^ 8 := by
    rw [ofRegister, toBitVec_high, wordBits_append, asPolynomial_append, hzero, add_zero,
      length_wordBits]
  rw [absorb, residue_shifts, ofRegister_xor, hhigh, ← map_pow, ← map_mul]
  congr 1
  ring

/-- **Octets** go in behind what the register stands for. -/
theorem residue_run (register : UInt16) (octets : Bytes) :
    residue (ofRegister (run register octets))
      = residue (ofRegister register * X ^ (8 * octets.length)
        + asPolynomial (bits octets) * X ^ 16) := by
  induction octets generalizing register with
  | nil => simp [run, bits, asPolynomial]
  | cons octet octets ih =>
      have hrun : run register (octet :: octets) = run (absorb register octet) octets := rfl
      rw [hrun, ih, bits_cons, asPolynomial_append, length_bits, List.length_cons]
      simp only [map_add, map_mul, residue_absorb]
      rw [Nat.mul_add, pow_add, map_mul]
      ring

/-- Few bits that leave nothing are not set. -/
theorem not_set_of_residue {bs : List Bool} (hfew : bs.length ≤ 16)
    (hnone : residue (asPolynomial bs) = 0) : ∀ b ∈ bs, b = false := by
  have hdivides := AdjoinRoot.mk_eq_zero.mp hnone
  have hdegree : (asPolynomial bs).degree < generator.degree := by
    rw [degree_generator]
    exact lt_of_lt_of_le (degree_asPolynomial_lt bs) (WithBot.coe_le_coe.mpr hfew)
  exact asPolynomial_eq_zero_iff.mp (eq_zero_of_dvd_of_degree_lt hdivides hdegree)

/-- **Registers that are left alike are the same.** -/
theorem residue_register_inj {a b : UInt16} :
    residue (ofRegister a) = residue (ofRegister b) ↔ a = b := by
  constructor
  · intro hsame
    have hnone := residue_eq_iff.mp hsame
    rw [← ofRegister_xor, ofRegister, UInt16.toBitVec_xor, wordBits_xor] at hnone
    have hclear := not_set_of_residue (by simp) hnone
    have hbits := eq_of_zipWith_xor (length_wordBits_eq _ _) hclear
    exact UInt16.toBitVec_inj.mp (wordBits_inj.mp hbits)
  · rintro rfl
    rfl

/-- `x` has an inverse beside the generator. -/
theorem isUnit_residue_X : IsUnit (residue X) := by
  have hinverse : residue (X * (X ^ 15 + X ^ 11 + X ^ 4)) = residue 1 := by
    rw [AdjoinRoot.mk_eq_mk]
    refine ⟨1, ?_⟩
    have htwice : (1 : (ZMod 2)[X]) + 1 = 0 := CharTwo.add_self_eq_zero _
    unfold generator
    linear_combination -htwice
  rw [map_mul, map_one] at hinverse
  exact IsUnit.of_mul_eq_one _ hinverse

section Powers

/-- The product of two registers, up to a multiple of the generator. -/
def times (a b : UInt16) : UInt16 :=
  (wordBits b.toBitVec).foldl (fun product bit => shift product ^^^ if bit then a else 0) 0

/-- The register that a power of `x` leaves, by squaring; the exponent has so many binary digits. -/
def power : (digits : Nat) → Nat → UInt16
  | 0, _ => 1
  | digits + 1, n =>
    let half := power digits (n / 2)
    if n % 2 = 1 then shift (times half half) else times half half

theorem ofRegister_zero : ofRegister 0 = 0 :=
  asPolynomial_eq_zero_iff.mpr (by decide)

/-- The register's lowest bit stands for one. -/
theorem ofRegister_one : ofRegister 1 = 1 := by
  have hbits : wordBits (1 : UInt16).toBitVec
      = [false, false, false, false, false, false, false, false, false, false, false, false, false,
        false, false, true] := by
    decide
  rw [ofRegister, hbits]
  simp [asPolynomial]

/-- A product taken bit by bit goes on from the product so far. -/
theorem residue_foldl_times (a product : UInt16) (bs : List Bool) :
    residue (ofRegister
        (bs.foldl (fun product bit => shift product ^^^ if bit then a else 0) product))
      = residue (ofRegister product * X ^ bs.length + ofRegister a * asPolynomial bs) := by
  induction bs generalizing product with
  | nil => simp [asPolynomial]
  | cons b bs ih =>
      have hbit : ofRegister (if b then a else 0) * X ^ bs.length
          = ofRegister a * if b then X ^ bs.length else 0 := by
        cases b with
        | false => simp [ofRegister_zero]
        | true => rfl
      rw [List.foldl_cons, ih, ofRegister_xor, asPolynomial, List.length_cons, add_mul, mul_add,
        hbit, pow_succ']
      simp only [map_add, map_mul, residue_shift]
      ring

/-- **Registers multiply** as what they leave does. -/
theorem residue_times (a b : UInt16) :
    residue (ofRegister (times a b)) = residue (ofRegister a) * residue (ofRegister b) := by
  rw [times, residue_foldl_times, ofRegister_zero, zero_mul, zero_add, map_mul]
  rfl

/-- **Powers by squaring.** -/
theorem residue_power {digits n : Nat} (hn : n < 2 ^ digits) :
    residue (ofRegister (power digits n)) = residue X ^ n := by
  induction digits generalizing n with
  | zero =>
      obtain rfl : n = 0 := by omega
      rw [power, ofRegister_one, map_one, pow_zero]
  | succ digits ih =>
      have hhalf := ih (n := n / 2) (by omega)
      have hsquare : residue (ofRegister (times (power digits (n / 2)) (power digits (n / 2))))
          = residue X ^ (2 * (n / 2)) := by
        rw [residue_times, hhalf, ← pow_add, Nat.two_mul]
      rw [power]
      by_cases hodd : n % 2 = 1
      · rw [if_pos hodd, residue_shift, hsquare, ← pow_succ']
        congr 1
        omega
      · rw [if_neg hodd, hsquare]
        congr 1
        omega

/-- A power of `x` leaves one exactly if its register is one. -/
theorem residue_X_pow_eq_one_iff {n : Nat} (hn : n < 2 ^ 15) :
    residue X ^ n = 1 ↔ power 15 n = 1 := by
  rw [← residue_power hn, ← residue_register_inj, ofRegister_one, map_one]

/-- The least power of `x` that leaves one is the 32767th. -/
theorem orderOf_residue_X : orderOf (residue X) = 32767 := by
  apply orderOf_eq_of_pow_and_pow_div_prime (by decide)
  · exact (residue_X_pow_eq_one_iff (by decide)).mpr (by decide +kernel)
  · intro p hp hdivides
    have hfactors : 32767 = 7 * 31 * 151 := by decide
    rw [hfactors, hp.dvd_mul, hp.dvd_mul] at hdivides
    have hthree : p = 7 ∨ p = 31 ∨ p = 151 := by
      rcases hdivides with (h | h) | h
      · exact .inl ((Nat.prime_dvd_prime_iff_eq hp (by norm_num)).mp h)
      · exact .inr (.inl ((Nat.prime_dvd_prime_iff_eq hp (by norm_num)).mp h))
      · exact .inr (.inr ((Nat.prime_dvd_prime_iff_eq hp (by norm_num)).mp h))
    rcases hthree with rfl | rfl | rfl
    all_goals
      rw [Ne, residue_X_pow_eq_one_iff (by decide)]
      decide +kernel

/-- **No smaller power of `x` leaves one.** -/
theorem residue_X_pow_ne_one {n : Nat} (hpos : 0 < n) (hn : n < 32767) : residue X ^ n ≠ 1 :=
  pow_ne_one_of_lt_orderOf (Nat.ne_of_gt hpos) (by rw [orderOf_residue_X]; exact hn)

end Powers

section Changes

variable {octets others : Bytes} {bs : List Bool}

/-- **Registers after other octets** are the same exactly if the change of the octets leaves nothing. -/
theorem run_eq_iff (register : UInt16) (hlength : octets.length = others.length) :
    run register octets = run register others
      ↔ residue (asPolynomial (List.zipWith xor (bits octets) (bits others))) = 0 := by
  have hsixteen : IsUnit (residue X ^ 16) := isUnit_residue_X.pow 16
  have hsum : ofRegister register * X ^ (8 * others.length) + asPolynomial (bits octets) * X ^ 16
        + (ofRegister register * X ^ (8 * others.length) + asPolynomial (bits others) * X ^ 16)
      = asPolynomial (List.zipWith xor (bits octets) (bits others)) * X ^ 16 := by
    have htwice : ofRegister register * X ^ (8 * others.length)
        + ofRegister register * X ^ (8 * others.length) = 0 := CharTwo.add_self_eq_zero _
    rw [asPolynomial_zipWith_xor (length_bits_eq hlength)]
    linear_combination htwice
  rw [← residue_register_inj, residue_run, residue_run, residue_eq_iff, hlength, hsum, map_mul,
    map_pow, hsixteen.mul_left_eq_zero]

/-- A register that takes in its own octets is cleared. -/
theorem run_own (register : UInt16) :
    run register (BigEndian.ofNat 2 register.toNat) = 0 := by
  rw [← residue_register_inj, residue_run, bits_ofNat_two, BigEndian.length_ofNat, ofRegister_zero,
    map_zero]
  have htwice : ofRegister register * X ^ 16 + ofRegister register * X ^ 16 = 0 :=
    CharTwo.add_self_eq_zero _
  exact (congrArg residue htwice).trans (map_zero _)

/-- Octets with their checksum behind them have the checksum zero. -/
theorem crc_withChecksum (octets : Bytes) : crc (withChecksum octets) = 0 := by
  unfold crc withChecksum
  rw [run_append]
  exact run_own _

/-- **Bursts.**  Bits that leave nothing are not set, if all that are set are among sixteen in a row. -/
theorem not_set_of_burst {start : Nat}
    (hwindow : ∀ i, bs[i]? = some true → start ≤ i ∧ i < start + 16)
    (hnone : residue (asPolynomial bs) = 0) : ∀ b ∈ bs, b = false := by
  obtain ⟨low, hburst⟩ := asPolynomial_of_window hwindow
  rw [hburst, map_mul, map_pow, (isUnit_residue_X.pow low).mul_left_eq_zero] at hnone
  have hclear := not_set_of_residue (List.length_take_le ..) hnone
  rw [← asPolynomial_eq_zero_iff] at hclear ⊢
  rw [hburst, hclear, zero_mul]

/-- **Two bits** leave something, unless the strings are longer than the order of `x`. -/
theorem residue_ne_zero_of_count_two (hshort : bs.length ≤ 32767) (htwo : bs.count true = 2) :
    residue (asPolynomial bs) ≠ 0 := by
  obtain ⟨low, gap, hgap, hwithin, hpair⟩ := asPolynomial_of_count_two htwo
  intro hnone
  rw [hpair, map_mul, map_pow, (isUnit_residue_X.pow low).mul_right_eq_zero] at hnone
  have hone := residue_eq_iff.mpr hnone
  rw [map_pow, map_one] at hone
  exact residue_X_pow_ne_one hgap (by omega) hone

/-- **Two bits 32767 apart** leave nothing: the first bit of so many octets, and the last bit of the
register. -/
theorem run_flipped_ends (register : UInt16) (octet : UInt8) (hlength : octets.length = 4093) :
    run register ((octet ^^^ 0x80) :: octets) = run register (octet :: octets) ^^^ 1 := by
  have htop : asPolynomial (wordBits (0x80 : UInt8).toBitVec) = X ^ 7 := by
    have hbits : wordBits (0x80 : UInt8).toBitVec
        = [true, false, false, false, false, false, false, false] := by
      decide
    rw [hbits]
    simp [asPolynomial]
  have hcircle : residue (X ^ (8 * octets.length + 23)) = residue 1 := by
    have horder : 8 * octets.length + 23 = orderOf (residue X) := by
      rw [hlength, orderOf_residue_X]
    rw [map_pow, map_one, horder, pow_orderOf_eq_one]
  have hflipped : asPolynomial (bits ((octet ^^^ 0x80) :: octets)) * X ^ 16
      = asPolynomial (bits (octet :: octets)) * X ^ 16 + X ^ (8 * octets.length + 23) := by
    rw [bits_cons, bits_cons, asPolynomial_append, asPolynomial_append, UInt8.toBitVec_xor,
      asPolynomial_wordBits_xor, htop, length_bits]
    ring
  rw [← residue_register_inj, ofRegister_xor, ofRegister_one, map_add, residue_run, residue_run,
    hflipped, ← add_assoc, map_add, hcircle, List.length_cons, List.length_cons]

end Changes

end SatWire.Checksum
