import SatWire.Frame.Header
import SatWire.Frame.Scalar
import SatWire.Schema.Conform
/-!
# Writing messages

What is written follows the values: an array value is a block of elements, each an index with a
block of fields, a message value is its whole frame, and any other value is written as its field's
type says.  A fault tells the way to it: message, field number, element.

Writing into a buffer appends.  A writer that fails leaves nothing behind, except that an element
whose fields take more octets than its length can tell leaves its index.
-/

namespace SatWire

mutual

/-- The octets of a field. -/
def Field.encode : Field → Except ParseError Bytes
  | ⟨type, value⟩ => Value.encode type value

/-- The octets of a value whose field has the given type. -/
def Value.encode (type : FieldType) : Value → Except ParseError Bytes
  | .array elements => (Element.encodeEach elements).bind (encodeBlock .array)
  | .message inner => Message.encode inner
  | .uint n => Scalar.encode type (.uint n)
  | .int n => Scalar.encode type (.int n)
  | .bool b => Scalar.encode type (.bool b)
  | .text s => Scalar.encode type (.text s)
  | .bytes octets => Scalar.encode type (.bytes octets)
  | .enum n => Scalar.encode type (.enum n)

/-- The octets of fields in order; `position` many stand before them. -/
def Field.encodeEach (position : Nat) : List Field → Except ParseError Bytes
  | [] => .ok []
  | f :: fs =>
    match located (.fieldAfter position) (Field.encode f) with
    | .error fault => .error fault
    | .ok octets => (Field.encodeEach (position + 1) fs).map (octets ++ ·)

/-- The octets of an element: its index and the block of its fields. -/
def Element.encode : Element → Except ParseError Bytes
  | ⟨index, fields⟩ =>
    (Field.encodeEach 0 fields).bind fun body => (encodeBlock .element body).map (index :: ·)

/-- The octets of elements in order, without the block around them. -/
def Element.encodeEach : List Element → Except ParseError Bytes
  | [] => .ok []
  | e :: es =>
    match located (.element e.index) (Element.encode e) with
    | .error fault => .error fault
    | .ok octets => (Element.encodeEach es).map (octets ++ ·)

/-- The frame of a message. -/
def Message.encode : Message → Except ParseError Bytes
  | ⟨serviceId, messageId, _, _, fields, _⟩ =>
    match located (.messageKey serviceId messageId) (Field.encodeEach 0 fields) with
    | .error fault => .error fault
    | .ok payload => Header.assemble serviceId messageId payload

end

/-- The octets of an array value. -/
def Element.encodeArray (elements : List Element) : Except ParseError Bytes :=
  (Element.encodeEach elements).bind (encodeBlock .array)

/-- The frame of a message that conforms to a registry. -/
def Message.encodeChecked (r : Registry) (m : Message) : Except ParseError Bytes :=
  (r.conform m).bind fun _ => m.encode

/-- A buffer after an attempt to write into it, and whether the attempt failed. -/
structure Written where
  buffer : Bytes
  outcome : Except ParseError Unit

/-- Appends what was encoded, and nothing if encoding failed. -/
def Written.append (buffer : Bytes) : Except ParseError Bytes → Written
  | .ok octets => ⟨buffer ++ octets, .ok ()⟩
  | .error fault => ⟨buffer, .error fault⟩

/-- Writes a value of a type without fields into a buffer. -/
def Scalar.write (type : FieldType) (value : Value) (buffer : Bytes) : Written :=
  .append buffer (Scalar.encode type value)

/-- Writes an element into a buffer.  The index goes in once the fields are encoded, so it stays
behind if their length cannot be told. -/
def Element.write (e : Element) (buffer : Bytes) : Written :=
  match Field.encodeEach 0 e.fields with
  | .error fault => ⟨buffer, .error fault⟩
  | .ok body => .append (buffer ++ [e.index]) (encodeBlock .element body)

/-- Writes an array value into a buffer. -/
def Element.writeArray (elements : List Element) (buffer : Bytes) : Written :=
  .append buffer (Element.encodeArray elements)

end SatWire
