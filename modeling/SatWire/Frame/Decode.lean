import SatWire.Frame.Header
import SatWire.Frame.Scalar
import SatWire.Schema.Registry
/-!
# Reading messages

A message is read along its schema entry: the definitions in order, each from where the one before
ended.  Where the payload ends, the definitions left must be optional.  An array value or a nested
message is read one level deeper, and only so many levels are allowed; the count of levels left is
what the recursion runs on, so any input is read in finitely many steps.

* `Decoder.decodePrefix` reads a frame off the front of an octet string;
* `Decoder.decode` reads an octet string that is one frame and nothing else.
-/

namespace SatWire

/-- Reads fields at the front of a buffer, and tells how many octets they took. -/
abbrev FieldReader := List FieldDef → Bytes → Except ParseError (List Field × Nat)

/-- Reads the definitions in order, each field with `read`. -/
def readEach (read : FieldType → Cursor → Except ParseError (Field × Cursor)) :
    List FieldDef → Cursor → Except ParseError (List Field × Cursor)
  | [], c => .ok ([], c)
  | d :: ds, c =>
    if c.rest.isEmpty then
      if d.optional then readEach read ds c else refuse (.payloadEnds d.name d.type c.offset)
    else
      match located (.field d.name) (read d.type c) with
      | .error fault => .error fault
      | .ok (f, next) => (readEach read ds next).map fun (fs, last) => (f :: fs, last)

/-- Reads an element: its index, and a block that its fields take up wholly. -/
def readElement (inner : FieldReader) (layout : List FieldDef) (c : Cursor) :
    Except ParseError (Element × Cursor) :=
  match c.takeOctet .elementIndex with
  | .error fault => .error fault
  | .ok (index, place) =>
    match place.takeBlock .elementLength .elementBody with
    | .error fault => .error fault
    | .ok (body, next) =>
      located (.element index) <|
        match inner layout body with
        | .error fault => .error fault
        | .ok (fields, taken) =>
          if taken = body.length then .ok (⟨index, fields⟩, next)
          else refuse (.elementSize body.length taken)

/-- An element takes up octets, so reading elements one by one ends. -/
theorem readElement_shorter {inner : FieldReader} {layout : List FieldDef} {c next : Cursor}
    {e : Element} (h : readElement inner layout c = .ok (e, next)) :
    next.rest.length < c.rest.length := by
  simp only [readElement] at h
  split at h
  · cases h
  · rename_i index place first
    obtain ⟨front, -⟩ := Cursor.rest_of_takeOctet first
    split at h
    · cases h
    · rename_i body last second
      obtain ⟨size, -⟩ := Cursor.rest_of_takeBlock second
      have same : next = last := by
        split at h
        · simp at h
        · split at h
          · simp only [located_ok, Except.ok.injEq, Prod.mk.injEq] at h
            exact h.2.symm
          · simp [refuse] at h
      rw [front, same, List.length_cons]
      omega

/-- Reads elements to the end of a block; `count` many were read before. -/
def readElements (inner : FieldReader) (layout : List FieldDef) (count : Nat) (c : Cursor) :
    Except ParseError (List Element) :=
  if c.rest.isEmpty then .ok []
  else
    match _h : readElement inner layout c with
    | .error fault => .error (fault.within (.elementAfter count))
    | .ok (e, next) => (readElements inner layout (count + 1) next).map (e :: ·)
termination_by c.rest.length
decreasing_by exact readElement_shorter _h

/-- Reads an array value: a block of elements. -/
def readArray (inner : FieldReader) (layout : List FieldDef) (c : Cursor) :
    Except ParseError (List Element × Cursor) :=
  match c.takeBlock .arrayLength .arrayBody with
  | .error fault => .error fault
  | .ok (body, next) => (readElements inner layout 0 (.start body)).map fun es => (es, next)

/-- Reads the frame at the front of an octet string, its fields with `inner`, and tells how many
octets the frame takes. -/
def readFrame (registry : Registry) (inner : FieldReader) (octets : Bytes) :
    Except ParseError (Message × Nat) :=
  match Header.parse octets with
  | .error fault => .error fault
  | .ok (header, payload, _) =>
    match registry.lookup header.serviceId header.messageId with
    | .error fault => .error fault
    | .ok entry =>
      located (.message entry.name) <|
        match inner entry.fields payload with
        | .error fault => .error fault
        | .ok (fields, taken) =>
          if taken = payload.length then
            .ok ({ serviceId := header.serviceId, messageId := header.messageId,
                   isForward := decide (entry.direction = .forward), fields,
                   name := some entry.name }, header.frameLength)
          else refuse (.payloadLeft (payload.length - taken))

/-- A registry and how many levels of arrays and messages may nest. -/
structure Decoder where
  registry : Registry
  limit : Nat := 8

namespace Decoder

/-- Reads one field.  The fields of an array or a nested message are read with `inner`; without it,
no further level is allowed. -/
def readField (d : Decoder) (inner : Option FieldReader) (type : FieldType) (c : Cursor) :
    Except ParseError (Field × Cursor) :=
  match type with
  | .array layout =>
    match inner with
    | none => refuse (.tooDeep d.limit)
    | some read => (readArray read layout c).map fun (es, next) => (⟨type, .array es⟩, next)
  | .message =>
    match inner with
    | none => refuse (.tooDeep d.limit)
    | some read =>
      (readFrame d.registry read c.rest).map fun (m, size) => (⟨type, .message m⟩, c.skip size)
  | _ => (Scalar.decode c type).map fun (value, next) => (⟨type, value⟩, next)

/-- Reads fields at the front of a buffer, with `levels` levels of nesting left. -/
def readFields (d : Decoder) : (levels : Nat) → FieldReader
  | 0, defs, buffer =>
    (readEach (d.readField none) defs (.start buffer)).map fun (fs, c) => (fs, c.offset)
  | levels + 1, defs, buffer =>
    (readEach (d.readField (some (d.readFields levels))) defs (.start buffer)).map
      fun (fs, c) => (fs, c.offset)

/-- Reads the frame at the front of an octet string, and tells how many octets it takes. -/
def decodePrefix (d : Decoder) (octets : Bytes) : Except ParseError (Message × Nat) :=
  readFrame d.registry (d.readFields d.limit) octets

/-- Reads an octet string that is one frame. -/
def decode (d : Decoder) (octets : Bytes) : Except ParseError Message :=
  match d.decodePrefix octets with
  | .error fault => .error fault
  | .ok (m, size) =>
    if size = octets.length then .ok m
    else refuse (.frameFollowed (octets.length - size) size)

end Decoder

end SatWire
