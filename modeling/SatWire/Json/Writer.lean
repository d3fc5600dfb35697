import SatWire.Json.Basic
import SatWire.Octets.Hex
/-!
# Writing JSON

Values are written without blanks, members in their order.  In strings the quote, the backslash and
the controls below the space are escaped, five of them by a letter and the others by their number;
every other character stands for itself.

The writer works from the left and keeps what it wrote last character first.
-/

namespace SatWire.Json

/-- A character as it stands in a string. -/
def escape (c : Char) : List Char :=
  match c with
  | '"' => ['\\', '"']
  | '\\' => ['\\', '\\']
  | '\x08' => ['\\', 'b']
  | '\t' => ['\\', 't']
  | '\n' => ['\\', 'n']
  | '\x0c' => ['\\', 'f']
  | '\r' => ['\\', 'r']
  | c =>
    if c.toNat < 0x20 then
      ['\\', 'u', '0', '0', Hex.digit (c.toNat / 16), Hex.digit (c.toNat % 16)]
    else [c]

/-- A text between quotes. -/
def quote (s : String) : List Char :=
  '"' :: s.toList.flatMap escape ++ ['"']

/-- Characters behind those written before. -/
def onto (chars written : List Char) : List Char :=
  chars.reverseAux written

mutual

/-- Writes a value behind `written`, last character first. -/
def writeOnto (written : List Char) : Json → List Char
  | null => onto ['n', 'u', 'l', 'l'] written
  | bool true => onto ['t', 'r', 'u', 'e'] written
  | bool false => onto ['f', 'a', 'l', 's', 'e'] written
  | int n => onto (toString n).toList written
  | decimal digits => onto digits.toList written
  | str s => onto (quote s) written
  | arr [] => onto ['[', ']'] written
  | arr (item :: items) => writeItems (writeOnto ('[' :: written) item) items
  | obj [] => onto ['\x7b', '\x7d'] written
  | obj ((name, value) :: members) =>
    writeMembers (writeOnto (onto (quote name ++ [':']) ('\x7b' :: written)) value) members
  | unpaired | unnamed _ | buried _ | unreadable => written

/-- Writes the items after the first, and the end of the array. -/
def writeItems (written : List Char) : List Json → List Char
  | [] => ']' :: written
  | item :: items => writeItems (writeOnto (',' :: written) item) items

/-- Writes the members after the first, and the end of the object. -/
def writeMembers (written : List Char) : List (String × Json) → List Char
  | [] => '\x7d' :: written
  | (name, value) :: members =>
    writeMembers (writeOnto (onto (quote name ++ [':']) (',' :: written)) value) members

end

/-- The text of a value. -/
def render (value : Json) : String :=
  String.ofList (writeOnto [] value).reverse

end SatWire.Json
