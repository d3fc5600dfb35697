/-!
# Words as octets

Every number on the wire is written most significant octet first.  `ofNat` writes the low octets of
a number, `toNat` reads octets back as a number; signed numbers are their two's complement.

`wordCount` is the number of words of a width, and so the first number that does not fit it.

* `length_ofNat` — a word of a given width has exactly that many octets;
* `toNat_ofNat` — a number that fits the width reads back as itself.
-/

namespace SatWire

/-- A string of octets, in the order they travel. -/
abbrev Bytes := List UInt8

namespace BigEndian

/-- How many words of `width` octets there are. -/
def wordCount : (width : Nat) → Nat
  | 0 => 1
  | width + 1 => 256 * wordCount width

/-- The low `width` octets of `n`, the most significant first. -/
def ofNat : (width : Nat) → Nat → Bytes
  | 0, _ => []
  | width + 1, n => UInt8.ofNat (n / wordCount width) :: ofNat width n

/-- The number that octets spell, the most significant first. -/
def toNat (octets : Bytes) : Nat :=
  octets.foldl (fun high octet => 256 * high + octet.toNat) 0

/-- The low `width` octets of the two's complement of `i`. -/
def ofInt (width : Nat) (i : Int) : Bytes :=
  ofNat width (i % (wordCount width : Int)).toNat

/-- The number whose two's complement the octets are: the upper half of the range is negative. -/
def toInt (octets : Bytes) : Int :=
  if 2 * toNat octets < wordCount octets.length then toNat octets
  else (toNat octets : Int) - (wordCount octets.length : Int)

@[simp] theorem length_ofNat (width n : Nat) : (ofNat width n).length = width := by
  induction width with
  | zero => rfl
  | succ width ih => simp [ofNat, ih]

/-- Reading on from a number `high` puts it in front of what the octets spell. -/
theorem foldl_ofNat (width n high : Nat) :
    (ofNat width n).foldl (fun high octet => 256 * high + octet.toNat) high
      = high * wordCount width + n % wordCount width := by
  induction width generalizing high with
  | zero => simp [ofNat, wordCount, Nat.mod_one]
  | succ width ih =>
    have split : n % (256 * wordCount width)
        = wordCount width * (n / wordCount width % 256) + n % wordCount width := by
      rw [Nat.mul_comm, Nat.mod_mul, Nat.add_comm]
    have octet : (UInt8.ofNat (n / wordCount width)).toNat = n / wordCount width % 256 :=
      UInt8.toNat_ofNat'
    rw [ofNat, List.foldl_cons, ih, octet, wordCount, split, Nat.add_mul,
      Nat.mul_comm (n / wordCount width % 256), ← Nat.add_assoc, Nat.mul_comm 256 high,
      Nat.mul_assoc]

/-- A number that its width has room for is read back. -/
theorem toNat_ofNat {width n : Nat} (h : n < wordCount width) : toNat (ofNat width n) = n := by
  simpa [toNat, Nat.mod_eq_of_lt h] using foldl_ofNat width n 0

end BigEndian

end SatWire
