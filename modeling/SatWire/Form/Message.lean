import SatWire.Form.Layout
import SatWire.Message.Conform
/-!
# The forms of values, fields, elements and messages

A value is written as a variant named for its family; fields, elements and messages are records.
Reading a field checks its value against its type, so a field that was read always fits.
-/

namespace SatWire

/-- The slots of a field as far as they were read. -/
structure Field.Draft where
  type : Option FieldType := none
  value : Option Value := none

namespace Field

/-- The slots of a field. -/
def slots : List String := ["field_type", "value"]

/-- Fills a slot; values are read with `readValue`. -/
def Draft.put (readValue : Reader Value) (slot : String) (j : Json) (d : Draft) :
    Except Rejection Draft :=
  match slot with
  | "field_type" => (FieldType.ofJson j).map fun type => { d with type := some type }
  | _ => (readValue j).map fun value => { d with value := some value }

/-- The type and the value of a draft that lacks nothing. -/
def Draft.finish (d : Draft) : Option (FieldType × Value) := do
  return (← d.type, ← d.value)

/-- Reads a field and checks that its value fits. -/
def reader (readValue : Reader Value) : Reader Field := fun j =>
  match Reader.record .json slots (Draft.put readValue) {} Draft.finish j with
  | .error rejection => .error rejection
  | .ok (type, value) => (Field.ofValue type value).mapError .fault

end Field

/-- The slots of an element as far as they were read. -/
structure Element.Draft where
  index : Option UInt8 := none
  fields : Option (List Field) := none

namespace Element

/-- The slots of an element. -/
def slots : List String := ["index", "fields"]

/-- Fills a slot; fields are read with `readField`. -/
def Draft.put (readField : Reader Field) (slot : String) (j : Json) (d : Draft) :
    Except Rejection Draft :=
  match slot with
  | "index" => (Reader.uint8 j).map fun index => { d with index := some index }
  | _ => (Reader.list readField j).map fun fields => { d with fields := some fields }

/-- The element of a draft that lacks nothing. -/
def Draft.finish (d : Draft) : Option Element := do
  return ⟨← d.index, ← d.fields⟩

/-- Reads an element. -/
def reader (readField : Reader Field) : Reader Element :=
  .record .json slots (Draft.put readField) {} Draft.finish

end Element

namespace Category

/-- The category with a name. -/
def named? : String → Option Category
  | "data" => some .data
  | "control" => some .control
  | "ack" => some .ack
  | "nack" => some .nack
  | _ => none

/-- The name under which a category is written. -/
def word : Category → String
  | data => "data"
  | control => "control"
  | ack => "ack"
  | nack => "nack"

/-- Reads a category. -/
def ofJson : Reader Category := Reader.choice .json named?

/-- The form of a category. -/
def toJson (c : Category) : Json := .str c.word

end Category

/-- The slots of a message as far as they were read. -/
structure Message.Draft where
  serviceId : Option UInt8 := none
  messageId : Option UInt8 := none
  category : Category := .data
  isForward : Bool := false
  fields : List Field := []
  name : Option String := none

namespace Message

/-- The slots of a message. -/
def slots : List String :=
  ["service_id", "message_id", "category", "is_forward", "fields", "name"]

/-- Fills a slot; fields are read with `readField`. -/
def Draft.put (readField : Reader Field) (slot : String) (j : Json) (d : Draft) :
    Except Rejection Draft :=
  match slot with
  | "service_id" => (Reader.uint8 j).map fun id => { d with serviceId := some id }
  | "message_id" => (Reader.uint8 j).map fun id => { d with messageId := some id }
  | "category" => (Category.ofJson j).map fun category => { d with category }
  | "is_forward" => (Reader.bool j).map fun isForward => { d with isForward }
  | "fields" => (Reader.list readField j).map fun fields => { d with fields }
  | _ => (Reader.text? j).map fun name => { d with name }

/-- The message of a draft that lacks nothing. -/
def Draft.finish (d : Draft) : Option Message := do
  return ⟨← d.serviceId, ← d.messageId, d.category, d.isForward, d.fields, d.name⟩

/-- Reads a message. -/
def reader (readField : Reader Field) : Reader Message :=
  .record .json slots (Draft.put readField) {} Draft.finish

end Message

namespace Value

/-- Reads the payload of a value of a family; fields inside it are read with `readField`. -/
def payload (readField : Reader Field) (family : String) : Reader Value := fun j =>
  match family with
  | "uint" => (Reader.uint64 j).map .uint
  | "int" => (Reader.int64 j).map .int
  | "bool" => (Reader.bool j).map .bool
  | "utf8string" => (Reader.text j).map .text
  | "bytes" => (Reader.bytes j).map .bytes
  | "enum" => (Reader.uint8 j).map .enum
  | "array" => (Reader.list (Element.reader readField) j).map .array
  | "message" => (Message.reader readField j).map .message
  | _ => .error .shape

/-- Reads a value with less than `levels` levels of values inside each other. -/
def readWithin : (levels : Nat) → Reader Value
  | 0, _ => .error .shape
  | levels + 1, j => Reader.variant (payload (Field.reader (readWithin levels))) j

/-- Reads a value.  A value stands deeper than the one around it, so the depth of the whole is levels
enough. -/
def ofJson (j : Json) : Except Rejection Value :=
  readWithin (j.depth + 1) j

end Value

/-- Reads a field. -/
def Field.ofJson : Reader Field := fun j => Field.reader (Value.readWithin (j.depth + 1)) j

/-- Reads an element. -/
def Element.ofJson : Reader Element := fun j =>
  Element.reader (Field.reader (Value.readWithin (j.depth + 1))) j

/-- Reads a message. -/
def Message.ofJson : Reader Message := fun j =>
  Message.reader (Field.reader (Value.readWithin (j.depth + 1))) j

mutual

/-- The form of a value. -/
def Value.toJson : Value → Json
  | .uint n => .obj [("uint", .int n.toNat)]
  | .int n => .obj [("int", .int n.toInt)]
  | .bool b => .obj [("bool", .bool b)]
  | .text s => .obj [("utf8string", .str s)]
  | .bytes octets => .obj [("bytes", .arr (octets.map fun octet => .int octet.toNat))]
  | .enum n => .obj [("enum", .int n.toNat)]
  | .array elements => .obj [("array", .arr (Element.listToJson elements))]
  | .message inner => .obj [("message", Message.toJson inner)]

/-- The form of a field. -/
def Field.toJson : Field → Json
  | ⟨type, value⟩ => .obj [("field_type", type.toJson), ("value", Value.toJson value)]

/-- The forms of fields. -/
def Field.listToJson : List Field → List Json
  | [] => []
  | f :: fs => Field.toJson f :: Field.listToJson fs

/-- The form of an element. -/
def Element.toJson : Element → Json
  | ⟨index, fields⟩ =>
    .obj [("index", .int index.toNat), ("fields", .arr (Field.listToJson fields))]

/-- The forms of elements. -/
def Element.listToJson : List Element → List Json
  | [] => []
  | e :: es => Element.toJson e :: Element.listToJson es

/-- The form of a message.  A name that is absent is not written. -/
def Message.toJson : Message → Json
  | ⟨serviceId, messageId, category, isForward, fields, name⟩ =>
    .obj (("service_id", .int serviceId.toNat) :: ("message_id", .int messageId.toNat)
      :: ("category", category.toJson) :: ("is_forward", .bool isForward)
      :: ("fields", .arr (Field.listToJson fields))
      :: (name.map fun name => ("name", Json.str name)).toList)

end

end SatWire
