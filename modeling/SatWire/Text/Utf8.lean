import SatWire.Octets.BigEndian
/-!
# UTF-8

Reading UTF-8 as a machine over octets.  A lead octet fixes how many octets follow it and which
range the first of them must lie in (this rules out overlong forms, surrogates and values past
U+10FFFF); the others lie in `80..BF`.  Where a sequence breaks off, the fault names the index of
its lead octet and how many of its octets were still acceptable, or that the text ended inside it.
-/

namespace SatWire.Utf8

/-- Where a text stops being UTF-8. -/
structure Fault where
  /-- How many octets before the fault are well formed. -/
  index : Nat
  /-- The lead octet and the acceptable octets after it; nothing if the text ends inside the
  sequence. -/
  length : Option Nat
  deriving DecidableEq, Repr

/-- What a lead octet announces: its share of the code point, the range of the next octet, and how
many octets follow that one. -/
structure Lead where
  share : Nat
  low : UInt8
  high : UInt8
  more : Nat
  deriving DecidableEq, Repr

/-- The octets that may start a sequence of two or more. -/
def lead? (octet : UInt8) : Option Lead :=
  if 0xC2 ≤ octet ∧ octet ≤ 0xDF then some ⟨octet.toNat - 0xC0, 0x80, 0xBF, 0⟩
  else if octet = 0xE0 then some ⟨0, 0xA0, 0xBF, 1⟩
  else if octet = 0xED then some ⟨0xD, 0x80, 0x9F, 1⟩
  else if 0xE1 ≤ octet ∧ octet ≤ 0xEF then some ⟨octet.toNat - 0xE0, 0x80, 0xBF, 1⟩
  else if octet = 0xF0 then some ⟨0, 0x90, 0xBF, 2⟩
  else if 0xF1 ≤ octet ∧ octet ≤ 0xF3 then some ⟨octet.toNat - 0xF0, 0x80, 0xBF, 2⟩
  else if octet = 0xF4 then some ⟨4, 0x80, 0x8F, 2⟩
  else none

/-- The code point so far, with the six bits of one more octet. -/
def extend (share : Nat) (octet : UInt8) : Nat :=
  64 * share + (octet.toNat - 0x80)

/-- Inside a sequence: its code point so far, the range of the next octet, how many octets follow
that one, and how many octets of the sequence were taken. -/
structure Open where
  share : Nat
  low : UInt8
  high : UInt8
  more : Nat
  taken : Nat
  deriving DecidableEq, Repr

/-- Reads on.  `index` is where the current sequence starts, `chars` the characters read, last
first, and `inside` the sequence being read, if one is open. -/
def readFrom (index : Nat) (chars : List Char) (inside : Option Open) :
    Bytes → Except Fault (List Char)
  | [] =>
    match inside with
    | none => .ok chars.reverse
    | some _ => .error ⟨index, none⟩
  | octet :: rest =>
    match inside with
    | none =>
      if octet < 0x80 then readFrom (index + 1) (Char.ofNat octet.toNat :: chars) none rest
      else
        match lead? octet with
        | none => .error ⟨index, some 1⟩
        | some l => readFrom index chars (some ⟨l.share, l.low, l.high, l.more, 1⟩) rest
    | some o =>
      if o.low ≤ octet ∧ octet ≤ o.high then
        match o.more with
        | 0 =>
          readFrom (index + o.taken + 1) (Char.ofNat (extend o.share octet) :: chars) none rest
        | more + 1 =>
          readFrom index chars (some ⟨extend o.share octet, 0x80, 0xBF, more, o.taken + 1⟩) rest
      else .error ⟨index, some o.taken⟩

/-- The characters of a UTF-8 octet string. -/
def decode (octets : Bytes) : Except Fault String :=
  (readFrom 0 [] none octets).map String.ofList

/-- The UTF-8 octets of a text. -/
def encode (text : String) : Bytes :=
  text.toList.flatMap String.utf8EncodeChar

namespace Fault

/-- The words for a fault. -/
def text (f : Fault) : String :=
  match f.length with
  | some length => s!"invalid utf-8 sequence of {length} bytes from index {f.index}"
  | none => s!"incomplete utf-8 byte sequence from index {f.index}"

end Fault

end SatWire.Utf8
