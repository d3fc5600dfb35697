import SatWire.Octets.BigEndian
/-!
# Hexadecimal text

Octets are written as two lowercase digits each, the high half first.  Reading takes either letter
case; it refuses an odd number of characters before it looks at any of them, and otherwise names
the first octet of the text that is no digit.
-/

namespace SatWire.Hex

/-- Why a text is not hexadecimal. -/
inductive Fault where
  /-- The digits do not pair up. -/
  | oddLength
  /-- An octet of the text that is no digit, and where it stands. -/
  | badDigit (octet : UInt8) (position : Nat)
  deriving DecidableEq, Repr

/-- The lowercase digit of a number below sixteen. -/
def digit (n : Nat) : Char :=
  if n < 10 then Char.ofNat (48 + n) else Char.ofNat (87 + n)

/-- The capital digit of a number below sixteen. -/
def capital (n : Nat) : Char :=
  if n < 10 then Char.ofNat (48 + n) else Char.ofNat (55 + n)

/-- The value of a digit, given as the octet that writes it. -/
def value? (octet : UInt8) : Option UInt8 :=
  if 48 ≤ octet ∧ octet ≤ 57 then some (octet - 48)
  else if 97 ≤ octet ∧ octet ≤ 102 then some (octet - 87)
  else if 65 ≤ octet ∧ octet ≤ 70 then some (octet - 55)
  else none

/-- The two digits of an octet. -/
def pair (octet : UInt8) : List Char :=
  [digit (octet.toNat / 16), digit (octet.toNat % 16)]

/-- The hexadecimal text of an octet string. -/
def encode (octets : Bytes) : String :=
  String.ofList (octets.flatMap pair)

/-- Four capital digits. -/
def word (n : UInt16) : String :=
  String.ofList ([n.toNat / 4096, n.toNat / 256 % 16, n.toNat / 16 % 16, n.toNat % 16].map capital)

/-- The digits of a number without leading zeros, at most `width + 1` of them. -/
def digits : (width : Nat) → Nat → List Char
  | 0, n => [digit (n % 16)]
  | width + 1, n =>
    if n < 16 then [digit n] else digits width (n / 16) ++ [digit (n % 16)]

/-- Reads pairs of digits from position `position` on, behind the octets already read (last first). -/
def decodePairs (position : Nat) (read : Bytes) : Bytes → Except Fault Bytes
  | [] => .ok read.reverse
  | [_] => .error .oddLength
  | high :: low :: rest =>
    match value? high, value? low with
    | none, _ => .error (.badDigit high position)
    | some _, none => .error (.badDigit low (position + 1))
    | some h, some l => decodePairs (position + 2) ((h <<< 4 ||| l) :: read) rest

/-- Reads a hexadecimal text, given as its octets. -/
def decode (text : Bytes) : Except Fault Bytes :=
  if text.length % 2 = 1 then .error .oddLength else decodePairs 0 [] text

/-- An octet as a character between quotes.  Quotes, backslashes, controls, the no-break space and
the soft hyphen are escaped. -/
def quoted (octet : UInt8) : String :=
  let inner : List Char :=
    match octet.toNat with
    | 0 => ['\\', '0']
    | 9 => ['\\', 't']
    | 10 => ['\\', 'n']
    | 13 => ['\\', 'r']
    | 39 => ['\\', '\'']
    | 92 => ['\\', '\\']
    | n =>
      if n < 32 ∨ (127 ≤ n ∧ n ≤ 160) ∨ n = 173 then
        ['\\', 'u', '\x7b'] ++ digits 1 n ++ ['\x7d']
      else [Char.ofNat n]
  String.ofList ('\'' :: inner ++ ['\''])

namespace Fault

/-- The words for a fault. -/
def text : Fault → String
  | .oddLength => "Odd number of digits"
  | .badDigit octet position => s!"Invalid character {quoted octet} at position {position}"

end Fault

end SatWire.Hex
