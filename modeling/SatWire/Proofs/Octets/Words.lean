import Mathlib.Tactic.Ring
import SatWire.Octets.BigEndian

/-!
# Words read and written

Between octet strings of a given length and the numbers below `wordCount` of that length, writing
and reading are inverse to each other; the same holds of signed numbers in two's complement.

The key fact is `ofNat_add_mul`: what stands above the written octets leaves no trace in them.
-/

namespace SatWire.BigEndian

/-- However narrow, some word can be written. -/
theorem wordCount_pos (width : Nat) : 0 < wordCount width := by
  induction width with
  | zero => exact Nat.one_pos
  | succ width ih => exact Nat.mul_pos (by decide) ih

/-- Multiples of the number of words are not seen in a word. -/
theorem ofNat_add_mul (width high n : Nat) :
    ofNat width (high * wordCount width + n) = ofNat width n := by
  induction width generalizing high with
  | zero => rfl
  | succ width ih =>
      have hsplit : high * wordCount (width + 1) + n
          = 256 * high * wordCount width + n := by
        rw [wordCount]
        ring
      have hdiv : (256 * high * wordCount width + n) / wordCount width
          = 256 * high + n / wordCount width := by
        rw [Nat.add_comm, Nat.add_mul_div_right _ _ (wordCount_pos width), Nat.add_comm]
      have hhead : UInt8.ofNat (256 * high + n / wordCount width)
          = UInt8.ofNat (n / wordCount width) := by
        apply UInt8.toNat_inj.mp
        simp [UInt8.toNat_ofNat']
      rw [hsplit, ofNat, ofNat, hdiv, hhead, ih]

/-- Octets spell their first one above the rest. -/
theorem toNat_cons (octet : UInt8) (octets : Bytes) :
    toNat (octet :: octets) = octet.toNat * wordCount octets.length + toNat octets := by
  have hfold : ∀ (rest : Bytes) (high : Nat),
      rest.foldl (fun high octet => 256 * high + octet.toNat) high
        = high * wordCount rest.length + toNat rest := by
    intro rest
    induction rest with
    | nil => intro high; simp [toNat, wordCount]
    | cons first rest ih =>
        intro high
        have hfirst := ih (256 * 0 + first.toNat)
        have hboth := ih (256 * high + first.toNat)
        simp only [toNat, List.foldl_cons, List.length_cons, wordCount] at hfirst hboth ⊢
        rw [hboth, hfirst]
        ring
  have hone := hfold octets (256 * 0 + octet.toNat)
  simpa [toNat] using hone

/-- No octets tell a number that a word of their width could not hold. -/
theorem toNat_lt (octets : Bytes) : toNat octets < wordCount octets.length := by
  induction octets with
  | nil => exact Nat.one_pos
  | cons octet octets ih =>
      have hoctet : octet.toNat + 1 ≤ 256 := octet.toNat_lt
      have hbelow := Nat.mul_le_mul_right (wordCount octets.length) hoctet
      rw [toNat_cons, List.length_cons, wordCount]
      rw [Nat.add_mul, Nat.one_mul] at hbelow
      omega

/-- **Reading, then writing.**  Octets are what is written for the number they spell. -/
theorem ofNat_toNat (octets : Bytes) : ofNat octets.length (toNat octets) = octets := by
  induction octets with
  | nil => rfl
  | cons octet octets ih =>
      have hlow := toNat_lt octets
      have hdiv : (octet.toNat * wordCount octets.length + toNat octets) / wordCount octets.length
          = octet.toNat := by
        rw [Nat.add_comm, Nat.add_mul_div_right _ _ (wordCount_pos _), Nat.div_eq_of_lt hlow,
          Nat.zero_add]
      rw [toNat_cons, List.length_cons, ofNat, hdiv, ofNat_add_mul, ih, UInt8.ofNat_toNat]

section Signed

variable {width : Nat}

/-- **Two's complement, written then read.**  A number in the signed range of a width reads back as
itself. -/
theorem toInt_ofInt {i : Int} (hlow : -(wordCount width : Int) ≤ 2 * i)
    (hhigh : 2 * i < (wordCount width : Int)) : toInt (ofInt width i) = i := by
  have hpos := wordCount_pos width
  have hmod : 0 ≤ i % (wordCount width : Int) := Int.emod_nonneg _ (by omega)
  have hbelow : i % (wordCount width : Int) < wordCount width := Int.emod_lt_of_pos _ (by omega)
  have hread : toNat (ofInt width i) = (i % (wordCount width : Int)).toNat :=
    toNat_ofNat (by omega)
  have hlength : (ofInt width i).length = width := length_ofNat _ _
  rw [toInt, hread, hlength]
  by_cases hsign : 0 ≤ i
  · have hsame : i % (wordCount width : Int) = i := Int.emod_eq_of_lt hsign (by omega)
    rw [hsame, if_pos (by omega)]
    omega
  · have hwrap : i % (wordCount width : Int) = i + wordCount width := by
      rw [← Int.add_emod_right, Int.emod_eq_of_lt (by omega) (by omega)]
    rw [hwrap, if_neg (by omega)]
    omega

/-- **Two's complement, read then written.** -/
theorem ofInt_toInt (octets : Bytes) : ofInt octets.length (toInt octets) = octets := by
  have hlow := toNat_lt octets
  have hmod : toInt octets % (wordCount octets.length : Int) = toNat octets := by
    rw [toInt]
    by_cases hsign : 2 * toNat octets < wordCount octets.length
    · rw [if_pos hsign]
      exact Int.emod_eq_of_lt (by omega) (by omega)
    · rw [if_neg hsign, Int.sub_emod_right]
      exact Int.emod_eq_of_lt (by omega) (by omega)
  rw [ofInt, hmod, Int.toNat_natCast, ofNat_toNat]

/-- Octets read as a signed number are in the signed range of their width. -/
theorem toInt_range (octets : Bytes) :
    -(wordCount octets.length : Int) ≤ 2 * toInt octets
      ∧ 2 * toInt octets < (wordCount octets.length : Int) := by
  have hlow := toNat_lt octets
  rw [toInt]
  split <;> omega

end Signed

end SatWire.BigEndian
