import SatWire.Message.Value
import SatWire.Octets.Hex
import SatWire.Text.Utf8
/-!
# What can be wrong with one message

A `ParseError` is a cause together with the places it was met in, outermost first.  The cause keeps
what was found; its kind, its numeric code and its words are read off it, so the wording stands in
one place.
-/

namespace SatWire

/-- The largest length that a 16-bit length can tell. -/
def maxLength : Nat := 65535

/-- The kinds of fault, in the order of their codes. -/
inductive ParseError.Kind where
  | invalidFormat
  | invalidSin
  | invalidMin
  | invalidFieldType
  | invalidFieldValue
  | missingField
  | invalidSize
  | invalidChecksum
  | unsupportedVersion
  | decodeFailed
  | invalidStructure
  | validationFailed
  | invalidSequence
  deriving DecidableEq, Repr

namespace ParseError.Kind

/-- The numeric code under which devices report the kind. -/
def code : Kind → Nat
  | invalidFormat => 3
  | invalidSin => 4
  | invalidMin => 5
  | invalidFieldType => 6
  | invalidFieldValue => 7
  | missingField => 8
  | invalidSize => 9
  | invalidChecksum => 10
  | unsupportedVersion => 11
  | decodeFailed => 12
  | invalidStructure => 13
  | validationFailed => 14
  | invalidSequence => 15

/-- The words that introduce the kind. -/
def heading : Kind → String
  | invalidFormat => "invalid message format"
  | invalidSin => "invalid SIN"
  | invalidMin => "invalid MIN"
  | invalidFieldType => "invalid field type"
  | invalidFieldValue => "invalid field value"
  | missingField => "missing required field"
  | invalidSize => "invalid size"
  | invalidChecksum => "invalid checksum"
  | unsupportedVersion => "unsupported message version"
  | decodeFailed => "message decoding failed"
  | invalidStructure => "invalid message structure"
  | validationFailed => "message validation failed"
  | invalidSequence => "invalid sequence number"

end ParseError.Kind

/-- The stretches of a buffer that are read or written as one piece. -/
inductive Part where
  /-- A number, a truth value or an enumeration value of the given type. -/
  | fixed (type : FieldType)
  | text
  | bytes
  | element
  | array
  | elementIndex
  | elementLength
  | elementBody
  | arrayLength
  | arrayBody
  deriving DecidableEq

/-- What a piece is called. -/
def Part.name : Part → String
  | fixed type => type.name
  | text => "string"
  | bytes => "bytes"
  | element => "element"
  | array => "array"
  | elementIndex => "element index"
  | elementLength => "element length"
  | elementBody => "element body"
  | arrayLength => "array length"
  | arrayBody => "array body"

/-- A device sends at full power, or saves it. -/
inductive PowerMode where
  | normal
  | lowPower
  deriving DecidableEq, Repr

/-- The name of a power mode in reports. -/
def PowerMode.name : PowerMode → String
  | normal => "Normal"
  | lowPower => "LowPower"

/-- A place that faults are met in. -/
inductive Scope where
  /-- The element with this index. -/
  | element (index : UInt8)
  /-- The element after this many others. -/
  | elementAfter (count : Nat)
  /-- The field after this many others. -/
  | fieldAfter (count : Nat)
  | field (name : String)
  | message (name : String)
  | messageKey (serviceId messageId : UInt8)
  /-- A place in the caller's own words. -/
  | named (words : String)
  deriving DecidableEq

/-- A place in words. -/
def Scope.text : Scope → String
  | element index => s!"element {index.toNat}"
  | elementAfter count => s!"array element #{count}"
  | fieldAfter count => s!"field #{count}"
  | field name => s!"field '{name}'"
  | message name => s!"message '{name}'"
  | messageKey serviceId messageId => s!"message {serviceId.toNat}:{messageId.toNat}"
  | named words => words

/-- What was found wrong. -/
inductive ParseError.Cause where
  /-- The frame has no room for a payload of this size. -/
  | payloadTooLong (size : Nat)
  /-- Fewer octets than a header has. -/
  | headerCut (size : Nat)
  /-- The header declares more payload than there is. -/
  | payloadCut (declared present : Nat)
  | checksumMismatch (serviceId messageId : UInt8) (carried computed : UInt16)
  | unknownService (serviceId : UInt8)
  | unknownMessage (serviceId messageId : UInt8)
  /-- The value is of another family than the type, or out of its range. -/
  | misfit (value : Value) (type : FieldType)
  /-- Only types without fields of their own are read and written alone. -/
  | notScalar (type : FieldType)
  /-- A piece is longer than its 16-bit length can tell. -/
  | tooLong (part : Part) (size : Nat)
  /-- The buffer ends inside a piece. -/
  | bufferEnds (part : Part) (needed offset available : Nat)
  | notUtf8 (offset : Nat) (fault : Utf8.Fault)
  | surplusFields (present declared : Nat)
  | otherType (name : String) (declared held : FieldType)
  | absent (name : String)
  /-- The payload ends before a field that must be there. -/
  | payloadEnds (name : String) (type : FieldType) (offset : Nat)
  /-- An element's length is not what its fields take. -/
  | elementSize (declared occupied : Nat)
  /-- Octets of the payload that no field took. -/
  | payloadLeft (count : Nat)
  /-- Octets behind a frame that should stand alone. -/
  | frameFollowed (count size : Nat)
  | tooDeep (limit : Nat)
  /-- The frame is over the ceiling of its power mode. -/
  | overCeiling (size ceiling : Nat) (mode : PowerMode)
  /-- A fault found elsewhere, in its own words. -/
  | reported (kind : ParseError.Kind) (words : String)
  deriving DecidableEq

namespace ParseError.Cause

/-- The kind a cause belongs to. -/
def kind : Cause → ParseError.Kind
  | payloadTooLong .. | headerCut .. | payloadCut .. | tooLong .. | bufferEnds ..
  | elementSize .. | payloadLeft .. | frameFollowed .. | overCeiling .. => .invalidSize
  | checksumMismatch .. => .invalidChecksum
  | unknownService .. => .invalidSin
  | unknownMessage .. => .invalidMin
  | misfit .. | otherType .. => .invalidFieldValue
  | notScalar .. => .invalidFieldType
  | notUtf8 .. => .decodeFailed
  | surplusFields .. | tooDeep .. => .invalidStructure
  | absent .. | payloadEnds .. => .missingField
  | reported kind _ => kind

/-- A cause in words, without its kind. -/
def text : Cause → String
  | payloadTooLong size => s!"payload of {size} bytes exceeds the {maxLength}-byte frame limit"
  | headerCut size => s!"frame header needs 6 bytes, got {size}"
  | payloadCut declared present =>
    s!"header declares {declared} payload bytes, {present} present"
  | checksumMismatch serviceId messageId carried computed =>
    s!"frame {serviceId.toNat}:{messageId.toNat} carries 0x{Hex.word carried}, computed 0x{Hex.word computed}"
  | unknownService serviceId => s!"service id {serviceId.toNat} is not defined"
  | unknownMessage serviceId messageId =>
    s!"message id {messageId.toNat} is not defined for service {serviceId.toNat}"
  | misfit value type => s!"{value.describe} does not fit field type {type.name}"
  | notScalar type => s!"{type.name} is not a scalar or variable-width type"
  | tooLong part size => s!"{part.name} of {size} bytes exceeds the {maxLength}-byte limit"
  | bufferEnds part needed offset available =>
    s!"{part.name}: need {needed} bytes at offset {offset}, {available} available"
  | notUtf8 offset fault => s!"invalid UTF-8 in string at offset {offset}: {fault.text}"
  | surplusFields present declared => s!"{present} fields present but only {declared} declared"
  | otherType name declared held =>
    s!"field '{name}' is declared {declared.name} but holds {held.name}"
  | absent name => s!"'{name}'"
  | payloadEnds name type offset =>
    s!"'{name}' ({type.name}) expected at offset {offset}, data ends"
  | elementSize declared occupied =>
    s!"declared length {declared} but fields occupy {occupied} bytes"
  | payloadLeft count => s!"{count} bytes left after the last declared field"
  | frameFollowed count size => s!"{count} bytes follow the {size}-byte frame"
  | tooDeep limit => s!"nesting exceeds {limit} levels"
  | overCeiling size ceiling mode =>
    s!"{size}-byte frame exceeds the {ceiling}-byte {mode.name} limit"
  | reported _ words => words

end ParseError.Cause

/-- A fault in one message: where it was met, outermost place first, and what it is. -/
structure ParseError where
  scopes : List Scope := []
  cause : ParseError.Cause
  deriving DecidableEq

namespace ParseError

/-- The fault as seen from a place around it. -/
def within (scope : Scope) (e : ParseError) : ParseError :=
  { e with scopes := scope :: e.scopes }

/-- The kind of the fault, wherever it was met. -/
def kind (e : ParseError) : Kind :=
  e.cause.kind

/-- The numeric code of the fault. -/
def code (e : ParseError) : Nat :=
  e.kind.code

/-- The places and the cause, in words that read like a path. -/
def context (e : ParseError) : String :=
  e.scopes.foldr (fun scope inner => s!"{scope.text}: {inner}") e.cause.text

/-- The whole fault in words. -/
def message (e : ParseError) : String :=
  s!"{e.kind.heading}: {e.context}"

/-- The places told around a fault do not change its kind. -/
@[simp] theorem kind_within (scope : Scope) (e : ParseError) : (e.within scope).kind = e.kind :=
  rfl

end ParseError

/-- A result that fails for one cause, no place told yet. -/
def refuse (cause : ParseError.Cause) : Except ParseError α :=
  .error ⟨[], cause⟩

/-- A result whose fault, if there is one, is met inside `scope`. -/
def located (scope : Scope) (r : Except ParseError α) : Except ParseError α :=
  r.mapError (ParseError.within scope)

@[simp] theorem located_ok (scope : Scope) (a : α) : located scope (.ok a) = .ok a :=
  rfl

@[simp] theorem located_error (scope : Scope) (e : ParseError) :
    located (α := α) scope (.error e) = .error (e.within scope) :=
  rfl

end SatWire
