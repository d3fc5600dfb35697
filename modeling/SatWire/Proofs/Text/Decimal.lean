/-!
# Numbers in decimal

A natural number is written in decimal digits, a negative one behind a minus sign.  Read from the left
the digits give the number back, and a zero leads them only if the number is zero.
-/

namespace SatWire.Decimal

variable {n : Nat} {c : Char}

/-- A natural number is written in its digits. -/
theorem toList_toString (n : Nat) : (toString n).toList = Nat.toDigits 10 n := by
  rw [Nat.toString_eq_ofList_toDigits, String.toList_ofList]

/-- A number that is not negative is written in its digits. -/
theorem toList_toString_of_nonneg {i : Int} (hsign : 0 ≤ i) :
    (toString i).toList = Nat.toDigits 10 i.toNat := by
  change i.repr.toList = _
  rw [Int.repr_eq_if, if_pos hsign, Nat.repr_eq_ofList_toDigits, String.toList_ofList]

/-- A negative number is written in its digits behind a sign. -/
theorem toList_toString_of_neg {i : Int} (hsign : i < 0) :
    (toString i).toList = '-' :: Nat.toDigits 10 (-i).toNat := by
  change i.repr.toList = _
  rw [Int.repr_eq_if, if_neg (Int.not_le.mpr hsign), Nat.repr_eq_ofList_toDigits,
    String.toList_append, String.toList_ofList, String.toList_ofList]
  rfl

/-- **The digits give the number back.** -/
theorem foldl_toDigits (n : Nat) :
    (Nat.toDigits 10 n).foldl (fun n c => 10 * n + (c.toNat - 48)) 0 = n := by
  have hread := Nat.ofDigitChars_ten_toDigits (n := n)
  rwa [Nat.ofDigitChars_eq_foldl] at hread

/-- Nothing but digits stands in a written number. -/
theorem isDigit_of_mem (hmem : c ∈ Nat.toDigits 10 n) : c.isDigit = true :=
  Nat.isDigit_of_mem_toDigits (by decide) (by decide) hmem

/-- The digits of a number that is not zero start with another digit than zero. -/
theorem head?_toDigits (hpos : 0 < n) : (Nat.toDigits 10 n).head? ≠ some '0' := by
  induction n using Nat.strongRecOn with
  | ind n ih =>
      rw [Nat.toDigits_eq_if (by decide)]
      split
      · rename_i hsmall
        intro hzero
        have hdigit : n.digitChar = '0' := Option.some.inj hzero
        exact absurd (Nat.digitChar_eq_zero.mp hdigit) (Nat.ne_of_gt hpos)
      · rename_i hlarge
        have hsome : Nat.toDigits 10 (n / 10) ≠ [] := Nat.toDigits_ne_nil
        have hhead := ih (n / 10) (by omega) (by omega)
        obtain ⟨first, more, hdigits⟩ := List.exists_cons_of_ne_nil hsome
        rw [hdigits] at hhead ⊢
        exact hhead

/-- A zero is the first of several digits of no number. -/
theorem ne_zero_of_toDigits {first second : Char} {more : List Char}
    (hdigits : Nat.toDigits 10 n = first :: second :: more) : first ≠ '0' := by
  intro hzero
  have hpos : 0 < n := by
    apply Nat.pos_of_ne_zero
    intro hn
    rw [hn, Nat.toDigits_zero] at hdigits
    cases hdigits
  apply head?_toDigits hpos
  rw [hdigits, hzero]
  rfl

end SatWire.Decimal
