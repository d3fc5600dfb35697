/-!
# Field layouts

A schema lays a payload out as a list of named, typed fields.  Numbers come in four widths; texts
and octet strings carry their length; an array repeats a layout of its own; a message is a whole
frame inside the payload.

* `FieldType.same_iff`, `FieldDef.same_iff` — the comparison of types and definitions is equality.
-/

namespace SatWire

/-- The widths of a number on the wire. -/
inductive Width where
  | one
  | two
  | four
  | eight
  deriving DecidableEq, Repr

namespace Width

/-- How many octets a number of this width takes. -/
def octets : Width → Nat
  | one => 1
  | two => 2
  | four => 4
  | eight => 8

/-- The width in bits, as it stands in the names of types. -/
def bits : Width → String
  | one => "8"
  | two => "16"
  | four => "32"
  | eight => "64"

end Width

mutual

/-- The type a schema declares for a field. -/
inductive FieldType where
  | uint (width : Width)
  | int (width : Width)
  | bool
  | text
  | bytes
  | enum
  /-- Indexed elements, each laid out by the same definitions. -/
  | array (layout : List FieldDef)
  /-- A complete frame, laid out by its own schema entry. -/
  | message

/-- One declared field.  An optional field may be missing where the payload ends before it. -/
structure FieldDef where
  name : String
  type : FieldType
  optional : Bool := false

end

instance : Inhabited FieldType := ⟨.bool⟩

namespace FieldType

/-- The name of a type; an array does not tell its layout. -/
def name : FieldType → String
  | uint width => "uint" ++ width.bits
  | int width => "int" ++ width.bits
  | bool => "bool"
  | text => "utf8string"
  | bytes => "bytes"
  | enum => "enum"
  | array _ => "array"
  | message => "message"

/-- How many octets a value takes, where the type alone tells it. -/
def fixedWidth? : FieldType → Option Nat
  | uint width | int width => some width.octets
  | bool | enum => some 1
  | text | bytes | array _ | message => none

/-- Whether values of the type hold fields of their own. -/
def isComposite : FieldType → Bool
  | array _ | message => true
  | _ => false

end FieldType

mutual

/-- Compares two types, array layouts included. -/
def FieldType.same : FieldType → FieldType → Bool
  | .uint v, .uint w => v == w
  | .int v, .int w => v == w
  | .bool, .bool => true
  | .text, .text => true
  | .bytes, .bytes => true
  | .enum, .enum => true
  | .array a, .array b => FieldDef.sameAll a b
  | .message, .message => true
  | _, _ => false

/-- Compares two definitions. -/
def FieldDef.same : FieldDef → FieldDef → Bool
  | ⟨n, t, o⟩, ⟨n', t', o'⟩ => n == n' && o == o' && FieldType.same t t'

/-- Compares two layouts, definition by definition. -/
def FieldDef.sameAll : List FieldDef → List FieldDef → Bool
  | [], [] => true
  | d :: ds, e :: es => FieldDef.same d e && FieldDef.sameAll ds es
  | _, _ => false

end

mutual

/-- Two types are the same if they are equal, layouts included. -/
theorem FieldType.same_iff : ∀ a b : FieldType, FieldType.same a b = true ↔ a = b
  | .array a, b => by
    cases b <;> simp [FieldType.same, FieldDef.sameAll_iff a]
  | .uint _, b => by cases b <;> simp [FieldType.same]
  | .int _, b => by cases b <;> simp [FieldType.same]
  | .bool, b => by cases b <;> simp [FieldType.same]
  | .text, b => by cases b <;> simp [FieldType.same]
  | .bytes, b => by cases b <;> simp [FieldType.same]
  | .enum, b => by cases b <;> simp [FieldType.same]
  | .message, b => by cases b <;> simp [FieldType.same]

theorem FieldDef.same_iff : ∀ a b : FieldDef, FieldDef.same a b = true ↔ a = b
  | ⟨n, t, o⟩, ⟨n', t', o'⟩ => by
    simp [FieldDef.same, FieldType.same_iff t, and_assoc, and_comm, and_left_comm]

theorem FieldDef.sameAll_iff : ∀ a b : List FieldDef, FieldDef.sameAll a b = true ↔ a = b
  | [], b => by cases b <;> simp [FieldDef.sameAll]
  | d :: ds, [] => by simp [FieldDef.sameAll]
  | d :: ds, e :: es => by
    simp [FieldDef.sameAll, FieldDef.same_iff d, FieldDef.sameAll_iff ds]

end

instance : DecidableEq FieldType := fun a b => decidable_of_iff _ (FieldType.same_iff a b)

instance : DecidableEq FieldDef := fun a b => decidable_of_iff _ (FieldDef.same_iff a b)

/-- The direction a message is meant to travel. -/
inductive Direction where
  | forward
  | back
  | both
  deriving DecidableEq, Repr

/-- What a schema says of one kind of message: its key, its name, its direction and the layout of
its payload. -/
structure SchemaEntry where
  serviceId : UInt8
  messageId : UInt8
  name : String
  direction : Direction := .both
  fields : List FieldDef := []
  deriving DecidableEq

end SatWire
