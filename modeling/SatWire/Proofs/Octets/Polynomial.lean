import Mathlib.Algebra.CharP.Two
import Mathlib.Algebra.Field.ZMod
import Mathlib.Algebra.Polynomial.Degree.Operations
import Mathlib.Algebra.Polynomial.Monic
import Mathlib.Tactic.LinearCombination
import Mathlib.Tactic.Ring
import SatWire.Proofs.Octets.Bits

/-!
# Bits as coefficients

A list of bits is read as a polynomial over the field of two elements, the first bit in front of the
highest power.  Lists behind one another are a sum of shifted polynomials (`asPolynomial_append`), and
the sum of two lists without carry is the sum of their polynomials (`asPolynomial_zipWith_xor`).  No
list but one without a bit set is read as zero (`asPolynomial_eq_zero_iff`).
-/

namespace SatWire

open Polynomial

/-- Bits as the coefficients of a polynomial, the last one in front of the constant. -/
noncomputable def asPolynomial : List Bool → (ZMod 2)[X]
  | [] => 0
  | b :: bs => (if b then X ^ bs.length else 0) + asPolynomial bs

variable {as bs : List Bool}

/-- Bits in front stand for higher powers, by as many as there are bits behind them. -/
theorem asPolynomial_append :
    asPolynomial (as ++ bs) = asPolynomial as * X ^ bs.length + asPolynomial bs := by
  induction as with
  | nil => rw [List.nil_append, asPolynomial, zero_mul, zero_add]
  | cons a as ih =>
      rw [List.cons_append, asPolynomial, asPolynomial, ih, List.length_append]
      cases a with
      | false => simp only [Bool.false_eq_true, if_false, zero_add]
      | true =>
          rw [if_pos rfl, if_pos rfl, pow_add]
          ring

/-- **The sum without carry is the sum.** -/
theorem asPolynomial_zipWith_xor (hlength : as.length = bs.length) :
    asPolynomial (List.zipWith xor as bs) = asPolynomial as + asPolynomial bs := by
  induction as generalizing bs with
  | nil =>
      obtain rfl := List.length_eq_zero_iff.mp hlength.symm
      rw [List.zipWith_nil_left, asPolynomial, add_zero]
  | cons a as ih =>
      cases bs with
      | nil => cases hlength
      | cons b bs =>
          have hothers := Nat.succ.inj hlength
          have hbit : (if xor a b then X ^ bs.length else 0 : (ZMod 2)[X])
              = (if a then X ^ bs.length else 0) + if b then X ^ bs.length else 0 := by
            have htwice : X ^ bs.length + X ^ bs.length = (0 : (ZMod 2)[X]) :=
              CharTwo.add_self_eq_zero _
            cases a <;> cases b <;> simp [htwice]
          rw [List.zipWith_cons_cons, asPolynomial, asPolynomial, asPolynomial, ih hothers,
            List.length_zipWith, hothers, Nat.min_self, hbit]
          ring

/-- Words added without carry are polynomials added. -/
theorem asPolynomial_wordBits_xor {width : Nat} (x y : BitVec width) :
    asPolynomial (wordBits (x ^^^ y)) = asPolynomial (wordBits x) + asPolynomial (wordBits y) := by
  rw [wordBits_xor, asPolynomial_zipWith_xor (length_wordBits_eq x y)]

/-- The degree is below the number of bits. -/
theorem degree_asPolynomial_lt (bs : List Bool) : (asPolynomial bs).degree < bs.length := by
  induction bs with
  | nil =>
      rw [asPolynomial, degree_zero]
      exact WithBot.bot_lt_coe _
  | cons b bs ih =>
      have hsmaller : (bs.length : WithBot ℕ) < (b :: bs).length :=
        WithBot.coe_lt_coe.mpr (Nat.lt_succ_self _)
      have hfirst : (if b then X ^ bs.length else 0 : (ZMod 2)[X]).degree ≤ bs.length := by
        cases b with
        | false => simp
        | true => simp
      rw [asPolynomial]
      exact lt_of_le_of_lt (degree_add_le_of_le hfirst (le_of_lt ih)) (by simpa using hsmaller)

/-- Only where no bit is set the polynomial is zero. -/
theorem asPolynomial_eq_zero_iff : asPolynomial bs = 0 ↔ ∀ b ∈ bs, b = false := by
  induction bs with
  | nil => simp [asPolynomial]
  | cons b bs ih =>
      rw [asPolynomial, List.forall_mem_cons, ← ih]
      cases b with
      | false => simp
      | true =>
          have hmonic := (monic_X_pow_add (degree_asPolynomial_lt bs)).ne_zero
          simpa using hmonic

/-- Bits that are all in one window are those of the window, times a power. -/
theorem asPolynomial_of_window {start width : Nat}
    (hwindow : ∀ i, bs[i]? = some true → start ≤ i ∧ i < start + width) :
    ∃ low, asPolynomial bs = asPolynomial ((bs.drop start).take width) * X ^ low := by
  have hfront : ∀ b ∈ bs.take start, b = false := by
    intro b hb
    obtain ⟨i, hi⟩ := List.mem_iff_getElem?.mp hb
    have hbefore := (List.getElem?_eq_some_iff.mp hi).1
    rw [List.length_take] at hbefore
    rw [List.getElem?_take_of_lt (by omega)] at hi
    cases b with
    | false => rfl
    | true => exact absurd (hwindow i hi).1 (by omega)
  have hback : ∀ b ∈ (bs.drop start).drop width, b = false := by
    intro b hb
    obtain ⟨i, hi⟩ := List.mem_iff_getElem?.mp hb
    rw [List.getElem?_drop, List.getElem?_drop] at hi
    cases b with
    | false => rfl
    | true => exact absurd (hwindow _ hi).2 (by omega)
  refine ⟨((bs.drop start).drop width).length, ?_⟩
  calc asPolynomial bs
      = asPolynomial (bs.take start ++ ((bs.drop start).take width ++ (bs.drop start).drop width)) :=
        by rw [List.take_append_drop, List.take_append_drop]
    _ = asPolynomial ((bs.drop start).take width) * X ^ ((bs.drop start).drop width).length := by
        rw [asPolynomial_append, asPolynomial_append, asPolynomial_eq_zero_iff.mpr hfront,
          asPolynomial_eq_zero_iff.mpr hback, zero_mul, zero_add, add_zero]

/-- A single bit set is a power. -/
theorem asPolynomial_of_count_one (hone : bs.count true = 1) :
    ∃ i < bs.length, asPolynomial bs = X ^ i := by
  induction bs with
  | nil => cases hone
  | cons b bs ih =>
      rw [asPolynomial]
      cases b with
      | false =>
          obtain ⟨i, hi, hrest⟩ := ih (by simpa using hone)
          exact ⟨i, Nat.lt_succ_of_lt hi, by simpa using hrest⟩
      | true =>
          have hothers : ∀ b ∈ bs, b = false := by
            have hnone : bs.count true = 0 := by simpa using hone
            intro b hb
            cases b with
            | false => rfl
            | true => exact absurd hb (List.count_eq_zero.mp hnone)
          refine ⟨bs.length, Nat.lt_succ_self _, ?_⟩
          rw [asPolynomial_eq_zero_iff.mpr hothers, if_pos rfl, add_zero]

/-- Two bits set are a power times a power and one. -/
theorem asPolynomial_of_count_two (htwo : bs.count true = 2) :
    ∃ i gap, 0 < gap ∧ i + gap < bs.length ∧ asPolynomial bs = X ^ i * (X ^ gap + 1) := by
  induction bs with
  | nil => cases htwo
  | cons b bs ih =>
      rw [asPolynomial]
      cases b with
      | false =>
          obtain ⟨i, gap, hgap, hi, hrest⟩ := ih (by simpa using htwo)
          exact ⟨i, gap, hgap, Nat.lt_succ_of_lt hi, by simpa using hrest⟩
      | true =>
          have hone : bs.count true = 1 := by simpa using htwo
          obtain ⟨i, hi, hrest⟩ := asPolynomial_of_count_one hone
          obtain ⟨gap, hgap⟩ : ∃ gap, bs.length = i + gap := ⟨bs.length - i, by omega⟩
          refine ⟨i, gap, by omega, ?_, ?_⟩
          · rw [List.length_cons, hgap]
            exact Nat.lt_succ_self _
          · rw [if_pos rfl, hrest, hgap, pow_add]
            ring

end SatWire
