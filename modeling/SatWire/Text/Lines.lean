import SatWire.Octets.BigEndian
/-!
# Lines and their blanks

A line ends with a line feed, which is not part of it; what follows the last line feed is a line of
its own unless it is empty.  Blanks are the characters with the Unicode property `White_Space`: a
line loses them at both ends, and is split at the first.
-/

namespace SatWire.Text

/-- Splits at line feeds, from inside a line whose octets so far are `line`, last first, behind the
lines `done`, last first. -/
def linesFrom (done : List Bytes) (line : Bytes) : Bytes → List Bytes
  | [] => (if line.isEmpty then done else line.reverse :: done).reverse
  | octet :: rest =>
    if octet = 0x0A then linesFrom (line.reverse :: done) [] rest
    else linesFrom done (octet :: line) rest

/-- The lines of an octet string. -/
def lines (octets : Bytes) : List Bytes :=
  linesFrom [] [] octets

/-- The Unicode property `White_Space`. -/
def isBlank (c : Char) : Bool :=
  let n := c.toNat
  (9 ≤ n && n ≤ 13) || n == 0x20 || n == 0x85 || n == 0xA0 || n == 0x1680
    || (0x2000 ≤ n && n ≤ 0x200A) || n == 0x2028 || n == 0x2029 || n == 0x202F || n == 0x205F
    || n == 0x3000

/-- A text without the blanks at its end. -/
def trimRight (chars : List Char) : List Char :=
  (chars.reverse.dropWhile isBlank).reverse

/-- A text without the blanks at either end. -/
def trim (chars : List Char) : List Char :=
  trimRight (chars.dropWhile isBlank)

/-- The parts of a text before and after its first blank, if it has one. -/
def splitBlank? (chars : List Char) : Option (List Char × List Char) :=
  match chars.dropWhile (fun c => !isBlank c) with
  | [] => none
  | _ :: rest => some (chars.takeWhile (fun c => !isBlank c), rest)

end SatWire.Text
