import SatWire.Form.Reader
/-!
# The forms of layouts and schema entries

A type is written as its name, an array type as the layout under `array`.  Definitions and schema
entries are records.
-/

namespace SatWire

namespace FieldType

/-- The type with a name; array types are not named. -/
def named? : String → Option FieldType
  | "uint8" => some (.uint .one)
  | "uint16" => some (.uint .two)
  | "uint32" => some (.uint .four)
  | "uint64" => some (.uint .eight)
  | "int8" => some (.int .one)
  | "int16" => some (.int .two)
  | "int32" => some (.int .four)
  | "int64" => some (.int .eight)
  | "bool" => some .bool
  | "utf8string" => some .text
  | "bytes" => some .bytes
  | "enum" => some .enum
  | "message" => some .message
  | _ => none

end FieldType

/-- The slots of a definition as far as they were read. -/
structure FieldDef.Draft where
  name : Option String := none
  type : Option FieldType := none
  optional : Bool := false

namespace FieldDef

/-- The slots of a definition. -/
def slots : List String := ["name", "type", "optional"]

/-- Fills a slot; types are read with `readType`. -/
def Draft.put (readType : Reader FieldType) (slot : String) (j : Json) (d : Draft) :
    Except Rejection Draft :=
  match slot with
  | "name" => (Reader.text j).map fun name => { d with name := some name }
  | "type" => (readType j).map fun type => { d with type := some type }
  | _ => (Reader.bool j).map fun optional => { d with optional }

/-- The definition of a draft that lacks nothing. -/
def Draft.finish (d : Draft) : Option FieldDef := do
  return ⟨← d.name, ← d.type, d.optional⟩

/-- Reads a definition; its type is read with `readType`. -/
def reader (dialect : Dialect) (readType : Reader FieldType) : Reader FieldDef :=
  .record dialect slots (Draft.put readType) {} Draft.finish

end FieldDef

namespace FieldType

/-- Reads a type whose layouts nest less than `levels` deep. -/
def readWithin (dialect : Dialect) : (levels : Nat) → Reader FieldType
  | 0, _ => .error .shape
  | levels + 1, j =>
    match j with
    | .obj (("array", _) :: _) =>
      Reader.variant (fun _ layout =>
        (Reader.list (FieldDef.reader dialect (readWithin dialect levels)) layout).map .array) j
    | _ => Reader.choice dialect named? j

/-- Reads a type in a document of any kind.  A layout stands deeper than the type it belongs to, so
the depth of the value is levels enough. -/
def read (dialect : Dialect) : Reader FieldType := fun j =>
  readWithin dialect (j.depth + 1) j

/-- Reads a type. -/
def ofJson : Reader FieldType := read .json

end FieldType

mutual

/-- The form of a type. -/
def FieldType.toJson : FieldType → Json
  | .array layout => .obj [("array", .arr (FieldDef.layoutToJson layout))]
  | .uint width => .str (FieldType.uint width).name
  | .int width => .str (FieldType.int width).name
  | .bool => .str FieldType.bool.name
  | .text => .str FieldType.text.name
  | .bytes => .str FieldType.bytes.name
  | .enum => .str FieldType.enum.name
  | .message => .str FieldType.message.name

/-- The form of a definition. -/
def FieldDef.toJson : FieldDef → Json
  | ⟨name, type, optional⟩ =>
    .obj [("name", .str name), ("type", FieldType.toJson type), ("optional", .bool optional)]

/-- The forms of the definitions of a layout. -/
def FieldDef.layoutToJson : List FieldDef → List Json
  | [] => []
  | d :: ds => FieldDef.toJson d :: FieldDef.layoutToJson ds

end

/-- Reads a definition in a document of any kind. -/
def FieldDef.read (dialect : Dialect) : Reader FieldDef :=
  FieldDef.reader dialect (FieldType.read dialect)

/-- Reads a definition. -/
def FieldDef.ofJson : Reader FieldDef := FieldDef.read .json

namespace Direction

/-- The direction with a name. -/
def named? : String → Option Direction
  | "forward" => some .forward
  | "return" => some .back
  | "both" => some .both
  | _ => none

/-- The name of a direction. -/
def name : Direction → String
  | forward => "forward"
  | back => "return"
  | both => "both"

/-- Reads a direction in a document of any kind. -/
def read (dialect : Dialect) : Reader Direction := Reader.choice dialect named?

/-- Reads a direction. -/
def ofJson : Reader Direction := read .json

/-- The form of a direction. -/
def toJson (d : Direction) : Json := .str d.name

end Direction

/-- The slots of a schema entry as far as they were read. -/
structure SchemaEntry.Draft where
  serviceId : Option UInt8 := none
  messageId : Option UInt8 := none
  name : Option String := none
  direction : Direction := .both
  fields : List FieldDef := []

namespace SchemaEntry

/-- The slots of a schema entry. -/
def slots : List String := ["service_id", "message_id", "name", "direction", "fields"]

/-- Fills a slot. -/
def Draft.put (dialect : Dialect) (slot : String) (j : Json) (d : Draft) :
    Except Rejection Draft :=
  match slot with
  | "service_id" => (Reader.uint8 j).map fun id => { d with serviceId := some id }
  | "message_id" => (Reader.uint8 j).map fun id => { d with messageId := some id }
  | "name" => (Reader.text j).map fun name => { d with name := some name }
  | "direction" => (Direction.read dialect j).map fun direction => { d with direction }
  | _ => (Reader.list (FieldDef.read dialect) j).map fun fields => { d with fields }

/-- The entry of a draft that lacks nothing. -/
def Draft.finish (d : Draft) : Option SchemaEntry := do
  return ⟨← d.serviceId, ← d.messageId, ← d.name, d.direction, d.fields⟩

/-- Reads a schema entry in a document of any kind. -/
def read (dialect : Dialect) : Reader SchemaEntry :=
  .record dialect slots (Draft.put dialect) {} Draft.finish

/-- Reads a schema entry. -/
def ofJson : Reader SchemaEntry := read .json

/-- The form of a schema entry. -/
def toJson (e : SchemaEntry) : Json :=
  .obj [("service_id", .int e.serviceId.toNat), ("message_id", .int e.messageId.toNat),
    ("name", .str e.name), ("direction", e.direction.toJson),
    ("fields", .arr (FieldDef.layoutToJson e.fields))]

end SchemaEntry

end SatWire
