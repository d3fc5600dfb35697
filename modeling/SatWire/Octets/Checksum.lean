import SatWire.Octets.BigEndian
/-!
# The frame checksum

A 16-bit cyclic redundancy check: the register starts full of ones, takes each octet into its high
half, and is then shifted eight times, most significant bit first; a one that falls out at the top
brings the generator `x^16 + x^12 + x^5 + 1` back in.  Nothing is reflected and nothing is added at
the end, so octets fed in pieces give the register of the whole.

* `run_append` — feeding two pieces in turn is feeding their concatenation.
-/

namespace SatWire.Checksum

/-- The generator without its leading term. -/
def polynomial : UInt16 := 0x1021

/-- The register before any octet. -/
def initial : UInt16 := 0xFFFF

/-- One shift of the register: a bit that leaves at the top brings the generator in. -/
def shift (register : UInt16) : UInt16 :=
  if register &&& 0x8000 = 0 then register <<< 1 else (register <<< 1) ^^^ polynomial

/-- One octet: into the high half, then eight shifts. -/
def absorb (register : UInt16) (octet : UInt8) : UInt16 :=
  Nat.repeat shift 8 (register ^^^ (octet.toUInt16 <<< 8))

/-- The register after all octets of a piece. -/
def run (register : UInt16) (octets : Bytes) : UInt16 :=
  octets.foldl absorb register

/-- The checksum of a whole octet string. -/
def crc (octets : Bytes) : UInt16 :=
  run initial octets

/-- The registers passed when octets come in pieces: before the first piece, then after each. -/
def trace (pieces : List Bytes) : List UInt16 :=
  go initial pieces
where
  /-- The registers passed from a given one on. -/
  go (register : UInt16) : List Bytes → List UInt16
    | [] => [register]
    | piece :: rest => register :: go (run register piece) rest

/-- The register goes through octets in turn, wherever they are cut. -/
theorem run_append (register : UInt16) (a b : Bytes) :
    run register (a ++ b) = run (run register a) b := by
  simp [run]

/-- The catalogued check value of the nine ASCII digits. -/
example : crc [0x31, 0x32, 0x33, 0x34, 0x35, 0x36, 0x37, 0x38, 0x39] = 0x29B1 := by
  decide +kernel

end SatWire.Checksum
