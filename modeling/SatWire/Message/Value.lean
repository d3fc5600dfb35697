import SatWire.Octets.BigEndian
import SatWire.Message.Layout
/-!
# Values, fields and messages

A value belongs to one of eight families; the width of a number is told by the type beside it.  A
field is a type with a value, an array value holds indexed elements made of fields, and a message
is a key with fields and a few marks.

* `Message.same_iff` and its companions — the comparison of values is equality.
-/

namespace SatWire

/-- The part a message plays on a link. -/
inductive Category where
  | data
  | control
  | ack
  | nack
  deriving DecidableEq, Repr

mutual

/-- A value, whatever the width of its type. -/
inductive Value where
  | uint (n : UInt64)
  | int (n : Int64)
  | bool (b : Bool)
  | text (s : String)
  | bytes (octets : Bytes)
  | enum (n : UInt8)
  | array (elements : List Element)
  | message (inner : Message)

/-- A value with the type it is meant for. -/
structure Field where
  type : FieldType
  value : Value

/-- One entry of an array value. -/
structure Element where
  index : UInt8
  fields : List Field

/-- A message: the key of its schema entry, its marks, and its fields in layout order. -/
structure Message where
  serviceId : UInt8
  messageId : UInt8
  category : Category := .data
  isForward : Bool := false
  fields : List Field := []
  name : Option String := none

end

mutual

/-- Compares two values. -/
def Value.same : Value → Value → Bool
  | .uint a, .uint b => a == b
  | .int a, .int b => a == b
  | .bool a, .bool b => a == b
  | .text a, .text b => a == b
  | .bytes a, .bytes b => a == b
  | .enum a, .enum b => a == b
  | .array a, .array b => Element.sameAll a b
  | .message a, .message b => Message.same a b
  | _, _ => false

/-- Compares two fields. -/
def Field.same : Field → Field → Bool
  | ⟨t, v⟩, ⟨t', v'⟩ => decide (t = t') && Value.same v v'

/-- Compares two field lists. -/
def Field.sameAll : List Field → List Field → Bool
  | [], [] => true
  | f :: fs, g :: gs => Field.same f g && Field.sameAll fs gs
  | _, _ => false

/-- Compares two elements. -/
def Element.same : Element → Element → Bool
  | ⟨i, fs⟩, ⟨i', fs'⟩ => i == i' && Field.sameAll fs fs'

/-- Compares two element lists. -/
def Element.sameAll : List Element → List Element → Bool
  | [], [] => true
  | e :: es, e' :: es' => Element.same e e' && Element.sameAll es es'
  | _, _ => false

/-- Compares two messages. -/
def Message.same : Message → Message → Bool
  | ⟨s, m, c, d, fs, n⟩, ⟨s', m', c', d', fs', n'⟩ =>
    s == s' && m == m' && c == c' && d == d' && n == n' && Field.sameAll fs fs'

end

mutual

/-- Values are compared as they are, to any depth. -/
theorem Value.same_iff : ∀ a b : Value, Value.same a b = true ↔ a = b
  | .array a, b => by cases b <;> simp [Value.same, Element.sameAll_iff a]
  | .message a, b => by cases b <;> simp [Value.same, Message.same_iff a]
  | .uint _, b => by cases b <;> simp [Value.same]
  | .int _, b => by cases b <;> simp [Value.same]
  | .bool _, b => by cases b <;> simp [Value.same]
  | .text _, b => by cases b <;> simp [Value.same]
  | .bytes _, b => by cases b <;> simp [Value.same]
  | .enum _, b => by cases b <;> simp [Value.same]

theorem Field.same_iff : ∀ a b : Field, Field.same a b = true ↔ a = b
  | ⟨t, v⟩, ⟨t', v'⟩ => by simp [Field.same, Value.same_iff v]

theorem Field.sameAll_iff : ∀ a b : List Field, Field.sameAll a b = true ↔ a = b
  | [], b => by cases b <;> simp [Field.sameAll]
  | f :: fs, [] => by simp [Field.sameAll]
  | f :: fs, g :: gs => by simp [Field.sameAll, Field.same_iff f, Field.sameAll_iff fs]

theorem Element.same_iff : ∀ a b : Element, Element.same a b = true ↔ a = b
  | ⟨i, fs⟩, ⟨i', fs'⟩ => by simp [Element.same, Field.sameAll_iff fs]

theorem Element.sameAll_iff : ∀ a b : List Element, Element.sameAll a b = true ↔ a = b
  | [], b => by cases b <;> simp [Element.sameAll]
  | e :: es, [] => by simp [Element.sameAll]
  | e :: es, e' :: es' => by
    simp [Element.sameAll, Element.same_iff e, Element.sameAll_iff es]

/-- Messages are compared by all they hold. -/
theorem Message.same_iff : ∀ a b : Message, Message.same a b = true ↔ a = b
  | ⟨s, m, c, d, fs, n⟩, ⟨s', m', c', d', fs', n'⟩ => by
    simp [Message.same, Field.sameAll_iff fs, and_assoc, and_comm, and_left_comm]

end

instance : DecidableEq Value := fun a b => decidable_of_iff _ (Value.same_iff a b)

instance : DecidableEq Field := fun a b => decidable_of_iff _ (Field.same_iff a b)

instance : DecidableEq Element := fun a b => decidable_of_iff _ (Element.same_iff a b)

instance : DecidableEq Message := fun a b => decidable_of_iff _ (Message.same_iff a b)

/-- A value in words: its family and its content, of long content only the size. -/
def Value.describe : Value → String
  | .uint n => s!"uint value {n.toNat}"
  | .int n => s!"int value {n.toInt}"
  | .bool b => s!"bool value {b}"
  | .text s => s!"string value of {s.utf8ByteSize} bytes"
  | .bytes octets => s!"bytes value of {octets.length} bytes"
  | .enum n => s!"enum value {n.toNat}"
  | .array elements => s!"array of {elements.length} elements"
  | .message inner => s!"message {inner.serviceId.toNat}:{inner.messageId.toNat}"

/-- The key under which a schema holds the message. -/
def Message.key (m : Message) : UInt8 × UInt8 :=
  (m.serviceId, m.messageId)

end SatWire
