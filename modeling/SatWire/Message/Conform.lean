import SatWire.Fault
/-!
# Which values fit a type, and which fields fit a layout

A value fits a type of its own family if it is in the type's range.  An array value fits if the
fields of each element follow the layout: each has the declared type, none is over, and only
optional definitions at the end go without a field.

`WellTyped` says that every field fits, at every level of nesting.
-/

namespace SatWire

/-- The numbers that an unsigned type of a width can hold. -/
def Width.holdsNat (width : Width) (n : UInt64) : Bool :=
  n.toNat < BigEndian.wordCount width.octets

/-- The numbers that a signed type of a width can hold. -/
def Width.holdsInt (width : Width) (n : Int64) : Bool :=
  -(BigEndian.wordCount width.octets : Int) ≤ 2 * n.toInt
    && 2 * n.toInt < (BigEndian.wordCount width.octets : Int)

/-- Checks fields against definitions, one by one. -/
def conformEach : List FieldDef → List Field → Except ParseError Unit
  | [], _ => .ok ()
  | d :: ds, [] => if d.optional then conformEach ds [] else refuse (.absent d.name)
  | d :: ds, f :: fs =>
    if f.type = d.type then conformEach ds fs else refuse (.otherType d.name d.type f.type)

/-- Checks fields against a layout: not too many, each of the declared type, none missing. -/
def conformFields (layout : List FieldDef) (fields : List Field) : Except ParseError Unit :=
  if layout.length < fields.length then refuse (.surplusFields fields.length layout.length)
  else conformEach layout fields

/-- Checks the elements of an array value against its layout. -/
def conformElements (layout : List FieldDef) : List Element → Except ParseError Unit
  | [] => .ok ()
  | e :: es =>
    match located (.element e.index) (conformFields layout e.fields) with
    | .error fault => .error fault
    | .ok () => conformElements layout es

namespace FieldType

/-- Whether a value outside arrays is of the type's family and in its range. -/
def holds : FieldType → Value → Bool
  | uint width, .uint n => width.holdsNat n
  | int width, .int n => width.holdsInt n
  | bool, .bool _ => true
  | text, .text _ => true
  | bytes, .bytes _ => true
  | enum, .enum _ => true
  | message, .message _ => true
  | _, _ => false

/-- Checks that a value fits the type. -/
def check (type : FieldType) (value : Value) : Except ParseError Unit :=
  match type, value with
  | .array layout, .array elements => conformElements layout elements
  | _, _ => if type.holds value then .ok () else refuse (.misfit value type)

end FieldType

namespace Field

/-- The field of a type and a value, if the value fits. -/
def ofValue (type : FieldType) (value : Value) : Except ParseError Field :=
  (type.check value).map fun () => ⟨type, value⟩

/-- An array field whose elements follow a layout. -/
def ofElements (layout : List FieldDef) (elements : List Element) : Except ParseError Field :=
  ofValue (.array layout) (.array elements)

/-- Fields of the single types, which need no check. -/
def uint8 (n : UInt8) : Field := ⟨.uint .one, .uint n.toUInt64⟩
@[inherit_doc uint8] def uint16 (n : UInt16) : Field := ⟨.uint .two, .uint n.toUInt64⟩
@[inherit_doc uint8] def uint32 (n : UInt32) : Field := ⟨.uint .four, .uint n.toUInt64⟩
@[inherit_doc uint8] def uint64 (n : UInt64) : Field := ⟨.uint .eight, .uint n⟩
@[inherit_doc uint8] def int8 (n : Int8) : Field := ⟨.int .one, .int n.toInt64⟩
@[inherit_doc uint8] def int16 (n : Int16) : Field := ⟨.int .two, .int n.toInt64⟩
@[inherit_doc uint8] def int32 (n : Int32) : Field := ⟨.int .four, .int n.toInt64⟩
@[inherit_doc uint8] def int64 (n : Int64) : Field := ⟨.int .eight, .int n⟩
@[inherit_doc uint8] def bool (b : Bool) : Field := ⟨.bool, .bool b⟩
@[inherit_doc uint8] def text (s : String) : Field := ⟨.text, .text s⟩
@[inherit_doc uint8] def bytes (octets : Bytes) : Field := ⟨.bytes, .bytes octets⟩
@[inherit_doc uint8] def enum (n : UInt8) : Field := ⟨.enum, .enum n⟩
@[inherit_doc uint8] def message (inner : Message) : Field := ⟨.message, .message inner⟩

end Field

mutual

/-- Every field inside the value fits its type. -/
def Value.WellTyped : Value → Prop
  | .array elements => Element.AllWellTyped elements
  | .message inner => Message.WellTyped inner
  | _ => True

/-- The field's value fits its type, and so does every field inside it. -/
def Field.WellTyped : Field → Prop
  | ⟨type, value⟩ => type.check value = .ok () ∧ Value.WellTyped value

/-- All fields of a list are well typed. -/
def Field.AllWellTyped : List Field → Prop
  | [] => True
  | f :: fs => Field.WellTyped f ∧ Field.AllWellTyped fs

/-- All fields of the element are well typed. -/
def Element.WellTyped : Element → Prop
  | ⟨_, fields⟩ => Field.AllWellTyped fields

/-- All elements of a list are well typed. -/
def Element.AllWellTyped : List Element → Prop
  | [] => True
  | e :: es => Element.WellTyped e ∧ Element.AllWellTyped es

/-- All fields of the message are well typed. -/
def Message.WellTyped : Message → Prop
  | ⟨_, _, _, _, fields, _⟩ => Field.AllWellTyped fields

end

end SatWire
