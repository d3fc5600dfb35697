import Mathlib.Algebra.Polynomial.Div
import SatWire.Proofs.Octets.Remainder

/-!
# The checksum as what a division leaves

Of all polynomials that stand for the same beside the generator, a register is the one of degree below
sixteen, and so the remainder of each of them (`ofRegister_eq_mod`).  Octets fed to a register come in
behind what the register stands for (`ofRegister_run`), in pieces as well as at once (`foldl_run`,
`trace_eq`).

* `crc_remainder` — the checksum is the remainder that the division of the octets leaves, with sixteen
  ones put in front of them as the seed asks.
-/

namespace SatWire

open Polynomial

/-- **The coefficients are the bits**, the constant being the last one. -/
theorem coeff_asPolynomial (bs : List Bool) (i : Nat) :
    (asPolynomial bs).coeff i = if bs.reverse[i]? = some true then 1 else 0 := by
  induction bs with
  | nil => simp [asPolynomial]
  | cons b bs ih =>
      have hfirst : (if b then X ^ bs.length else 0 : (ZMod 2)[X]).coeff i
          = if i = bs.length ∧ b = true then 1 else 0 := by
        cases b <;> simp [coeff_X_pow]
      rw [asPolynomial, coeff_add, hfirst, ih, List.reverse_cons]
      rcases Nat.lt_trichotomy i bs.length with hbefore | rfl | hafter
      · rw [List.getElem?_append_left (by simpa using hbefore), if_neg (by omega), zero_add]
      · have hnone : bs.reverse[bs.length]? = none := List.getElem?_eq_none (by simp)
        rw [hnone, List.getElem?_append_right (by simp)]
        cases b <;> simp
      · have hnone : bs.reverse[i]? = none := List.getElem?_eq_none (by simp; omega)
        have hout : (bs.reverse ++ [b])[i]? = none := List.getElem?_eq_none (by simp; omega)
        rw [hnone, hout, if_neg (by omega), zero_add]

/-- Bits that are all set are the sum of the powers. -/
theorem asPolynomial_replicate_true (count : Nat) :
    asPolynomial (List.replicate count true) = ∑ i ∈ Finset.range count, X ^ i := by
  induction count with
  | zero => rfl
  | succ count ih =>
      rw [List.replicate_succ, asPolynomial, ih, List.length_replicate, if_pos rfl,
        Finset.sum_range_succ, add_comm]

/-- The last bit of a word is its lowest. -/
theorem getElem?_reverse_wordBits {width : Nat} (word : BitVec width) (i : Nat) :
    (wordBits word).reverse[i]? = some true ↔ word.getLsbD i = true := by
  by_cases hi : i < width
  · have hplace : width - 1 - (width - 1 - i) = i := by omega
    have hwithin : decide (width - 1 - i < width) = true := decide_eq_true (by omega)
    rw [List.getElem?_reverse (by simpa using hi), length_wordBits, wordBits, List.getElem?_map,
      List.getElem?_range (by omega), Option.map_some, BitVec.getMsbD_eq_getLsbD, hplace, hwithin,
      Bool.true_and, Option.some_inj]
  · have hnone : (wordBits word).reverse[i]? = none := List.getElem?_eq_none (by simp; omega)
    rw [hnone, BitVec.getLsbD_of_ge word i (by omega)]
    simp

namespace Checksum

/-- The bits of a register are its coefficients, the lowest bit being the constant. -/
theorem coeff_ofRegister (register : UInt16) (i : Nat) :
    (ofRegister register).coeff i = if register.toBitVec.getLsbD i then 1 else 0 := by
  simp only [ofRegister, coeff_asPolynomial, getElem?_reverse_wordBits]

/-- The generator begins with a whole power. -/
theorem monic_generator : generator.Monic := by
  unfold generator
  monicity!

/-- A register is of a smaller degree than the generator. -/
theorem degree_ofRegister_lt (register : UInt16) :
    (ofRegister register).degree < generator.degree := by
  have hbits := degree_asPolynomial_lt (wordBits register.toBitVec)
  rw [length_wordBits] at hbits
  rw [degree_generator]
  exact hbits

/-- **A register is the remainder** of whatever it stands for. -/
theorem ofRegister_eq_mod {register : UInt16} {p : (ZMod 2)[X]}
    (h : residue (ofRegister register) = residue p) : ofRegister register = p %ₘ generator := by
  have hsmall := (modByMonic_eq_self_iff monic_generator).mpr (degree_ofRegister_lt register)
  have hmultiple : generator ∣ ofRegister register - p := AdjoinRoot.mk_eq_mk.mp h
  calc ofRegister register
      = ofRegister register %ₘ generator := hsmall.symm
    _ = p %ₘ generator := modByMonic_eq_of_dvd_sub monic_generator hmultiple

/-- **Octets** are divided behind what the register stands for. -/
theorem ofRegister_run (register : UInt16) (octets : Bytes) :
    ofRegister (run register octets)
      = (asPolynomial (bits octets) * X ^ 16 + ofRegister register * X ^ (8 * octets.length))
        %ₘ generator := by
  apply ofRegister_eq_mod
  rw [residue_run, add_comm]

/-- The first register has all its coefficients. -/
theorem ofRegister_initial : ofRegister initial = ∑ i ∈ Finset.range 16, X ^ i := by
  have hbits : wordBits initial.toBitVec = List.replicate 16 true := by decide
  rw [ofRegister, hbits, asPolynomial_replicate_true]

/-- Pieces are fed as their concatenation is. -/
theorem foldl_run (register : UInt16) (pieces : List Bytes) :
    pieces.foldl run register = run register pieces.flatten := by
  induction pieces generalizing register with
  | nil => rfl
  | cons piece pieces ih => rw [List.foldl_cons, ih, List.flatten_cons, run_append]

/-- Registers that are passed between the pieces. -/
theorem trace_go_eq (register : UInt16) (pieces : List Bytes) :
    trace.go register pieces = pieces.inits.map fun fed => run register fed.flatten := by
  induction pieces generalizing register with
  | nil => rfl
  | cons piece pieces ih =>
      rw [trace.go, ih, List.inits_cons, List.map_cons, List.map_map]
      simp only [Function.comp_def, List.flatten_cons, run_append]
      rfl

/-- What is passed between the pieces are the checksums of what was fed so far. -/
theorem trace_eq (pieces : List Bytes) :
    trace pieces = pieces.inits.map fun fed => crc fed.flatten :=
  trace_go_eq initial pieces

/-- **The checksum is the remainder.**  Octets that are fed in pieces give the checksum of all of
them, and on the way the checksums of what was fed so far.  The bits of a checksum are the
coefficients of what the division by the generator leaves of the octets, moved up by sixteen, and of
sixteen ones in front of them.  Octets with their checksum behind them have the checksum zero. -/
theorem crc_remainder (pieces : List Bytes) :
    let octets := pieces.flatten
    pieces.foldl run initial = crc octets
      ∧ trace pieces = pieces.inits.map (fun fed => crc fed.flatten)
      ∧ (∀ i, (ofRegister (crc octets)).coeff i = if (crc octets).toBitVec.getLsbD i then 1 else 0)
      ∧ (ofRegister (crc octets)).degree < 16
      ∧ ofRegister (crc octets)
          = (asPolynomial (bits octets) * X ^ 16
              + (∑ i ∈ Finset.range 16, X ^ i) * X ^ (8 * octets.length))
            %ₘ (X ^ 16 + X ^ 12 + X ^ 5 + 1)
      ∧ crc (octets ++ BigEndian.ofNat 2 (crc octets).toNat) = 0 := by
  intro octets
  have hdegree := degree_ofRegister_lt (crc octets)
  have hremainder := ofRegister_run initial octets
  rw [degree_generator] at hdegree
  rw [ofRegister_initial] at hremainder
  exact ⟨foldl_run initial pieces, trace_eq pieces, coeff_ofRegister _, hdegree, hremainder,
    crc_withChecksum octets⟩

end Checksum

end SatWire
