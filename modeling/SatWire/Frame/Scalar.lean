import SatWire.Frame.Cursor
import SatWire.Message.Conform
/-!
# Values without fields of their own

Numbers take the octets of their width, signed ones as two's complement; a truth value and an
enumeration value take one octet; texts, in UTF-8, and octet strings stand behind a 16-bit length.
Any octet but zero reads as true, and true is written as one.

* `Scalar.encode` gives the octets of a value that fits its type;
* `Scalar.decode` reads a value of a type at a place in a buffer.
-/

namespace SatWire

/-- A block behind its 16-bit length. -/
def encodeBlock (part : Part) (body : Bytes) : Except ParseError Bytes :=
  if body.length ≤ maxLength then .ok (BigEndian.ofNat 2 body.length ++ body)
  else refuse (.tooLong part body.length)

namespace Scalar

/-- The octets of a value of a type, if the type has values without fields and the value fits. -/
def encode (type : FieldType) (value : Value) : Except ParseError Bytes :=
  if type.isComposite then refuse (.notScalar type)
  else if type.holds value then
    match type, value with
    | .uint width, .uint n => .ok (BigEndian.ofNat width.octets n.toNat)
    | .int width, .int n => .ok (BigEndian.ofInt width.octets n.toInt)
    | _, .bool b => .ok [if b then 1 else 0]
    | _, .enum n => .ok [n]
    | _, .text s => encodeBlock .text (Utf8.encode s)
    | _, .bytes octets => encodeBlock .bytes octets
    | _, _ => refuse (.misfit value type)
  else refuse (.misfit value type)

/-- Reads a value of a type, and tells the place behind it. -/
def decode (c : Cursor) (type : FieldType) : Except ParseError (Value × Cursor) :=
  match type with
  | .uint width =>
    (c.take width.octets (.fixed type)).map fun (octets, next) =>
      (.uint (UInt64.ofNat (BigEndian.toNat octets)), next)
  | .int width =>
    (c.take width.octets (.fixed type)).map fun (octets, next) =>
      (.int (Int64.ofInt (BigEndian.toInt octets)), next)
  | .bool => (c.takeOctet (.fixed type)).map fun (octet, next) => (.bool (octet != 0), next)
  | .enum => (c.takeOctet (.fixed type)).map fun (octet, next) => (.enum octet, next)
  | .text =>
    (c.takeBlock .text .text).bind fun (octets, next) =>
      match Utf8.decode octets with
      | .ok s => .ok (.text s, next)
      | .error fault => refuse (.notUtf8 (c.offset + 2) fault)
  | .bytes => (c.takeBlock .bytes .bytes).map fun (octets, next) => (.bytes octets, next)
  | .array _ | .message => refuse (.notScalar type)

end Scalar

end SatWire
