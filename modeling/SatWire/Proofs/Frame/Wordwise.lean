import SatWire.Frame.Decode

/-!
# Reading with words

A device counts octets, places and levels in words of 64 bits, and cuts buffers out of buffers.  It
looks before it cuts a piece out, and relies on that for all the rest: sums of places, differences
of lengths and levels deeper down are taken without a further look.

Here the reader is spelled out operation by operation, each of them with the trap that it would fall
into if it were used where it must not be.  A loop that gets no further is a trap too, and so is a
recursion that needs more levels than its stack has; the stack is given as many levels as there are
octets, whatever limit the decoder is set to.
-/

namespace SatWire

/-- What an operation on words falls into where it must not be used. -/
inductive Trap where
  /-- A sum that no word holds. -/
  | overflow
  /-- A difference below zero. -/
  | underflow
  /-- A place outside the buffer. -/
  | outside
  /-- A piece of another size than the one that was made room for. -/
  | misfit
  /-- A round of a loop that gets no further. -/
  | stuck
  /-- More levels than the stack has. -/
  | exhausted
  deriving DecidableEq

/-- What comes of working on words: a trap, or a result as the decoder has them. -/
inductive Attempt (α : Type) where
  | trapped (trap : Trap)
  | ended (result : Except ParseError α)

namespace Attempt

variable {α : Type}

/-- Nothing follows a trap or a fault. -/
instance : Monad Attempt where
  pure a := .ended (.ok a)
  bind
    | .ended (.ok a), next => next a
    | .ended (.error fault), _ => .ended (.error fault)
    | .trapped trap, _ => .trapped trap

/-- An end with a fault, no place told yet. -/
def decline (cause : ParseError.Cause) : Attempt α :=
  .ended (refuse cause)

/-- Tells where a fault is met. -/
def within (scope : Scope) : Attempt α → Attempt α
  | .ended result => .ended (located scope result)
  | .trapped trap => .trapped trap

/-- Ends otherwise in place of a fault. -/
def unlessFault (other : Attempt α) : Attempt α → Attempt α
  | .ended (.error _) => other
  | attempt => attempt

end Attempt

namespace Wordwise

open Attempt

/-- A sum, taken without a look. -/
def add (a b : UInt64) : Attempt UInt64 :=
  if a.toNat + b.toNat < UInt64.size then pure (a + b) else .trapped .overflow

/-- A difference, taken without a look. -/
def sub (a b : UInt64) : Attempt UInt64 :=
  if b ≤ a then pure (a - b) else .trapped .underflow

/-- A sum, if a word holds it. -/
def add? (a b : UInt64) : Option UInt64 :=
  if a.toNat + b.toNat < UInt64.size then some (a + b) else none

/-- A difference that stops at zero. -/
def monus (a b : UInt64) : UInt64 :=
  if b ≤ a then a - b else 0

/-- The number of octets of a buffer. -/
def size (buffer : Bytes) : UInt64 :=
  UInt64.ofNat buffer.length

/-- The octet at a place, taken without a look. -/
def octetAt (buffer : Bytes) (place : UInt64) : Attempt UInt8 :=
  match buffer[place.toNat]? with
  | some octet => pure octet
  | none => .trapped .outside

/-- The octets between two places, cut out without a look. -/
def slice (buffer : Bytes) (first last : UInt64) : Attempt Bytes :=
  if first ≤ last ∧ last.toNat ≤ buffer.length then
    pure ((buffer.drop first.toNat).take (last.toNat - first.toNat))
  else .trapped .outside

/-- Cuts out `count` octets from a place on, if they are there. -/
def take (buffer : Bytes) (offset count : UInt64) (part : Part) : Attempt Bytes :=
  let short := .bufferEnds part count.toNat offset.toNat (monus (size buffer) offset).toNat
  match add? offset count with
  | some last => if last ≤ size buffer then slice buffer offset last else decline short
  | none => decline short

/-- Copies octets into room for just so many. -/
def takeFixed (buffer : Bytes) (offset : UInt64) (count : Nat) (part : Part) : Attempt Bytes := do
  let piece ← take buffer offset (UInt64.ofNat count) part
  if piece.length = count then pure piece else .trapped .misfit

def takeOctet (buffer : Bytes) (offset : UInt64) (part : Part) : Attempt UInt8 := do
  let piece ← takeFixed buffer offset 1 part
  octetAt piece 0

/-- A 16-bit length. -/
def takeLength (buffer : Bytes) (offset : UInt64) (part : Part) : Attempt UInt64 := do
  let piece ← takeFixed buffer offset 2 part
  return UInt64.ofNat (BigEndian.toNat piece)

/-- A block behind its length, and the place behind it. -/
def takeBlock (buffer : Bytes) (offset : UInt64) (length body : Part) :
    Attempt (Bytes × UInt64) := do
  let count ← takeLength buffer offset length
  let start ← add offset 2
  let piece ← take buffer start count body
  let next ← add start count
  return (piece, next)

/-- A value of a type without fields, and the place behind it. -/
def decodeScalar (buffer : Bytes) (offset : UInt64) (type : FieldType) :
    Attempt (Value × UInt64) :=
  match type with
  | .uint width => do
    let piece ← takeFixed buffer offset width.octets (.fixed type)
    behind (.uint (UInt64.ofNat (BigEndian.toNat piece)))
  | .int width => do
    let piece ← takeFixed buffer offset width.octets (.fixed type)
    behind (.int (Int64.ofInt (BigEndian.toInt piece)))
  | .bool => do
    let octet ← takeOctet buffer offset (.fixed type)
    behind (.bool (octet != 0))
  | .enum => do
    let octet ← takeOctet buffer offset (.fixed type)
    behind (.enum octet)
  | .text => do
    let (piece, next) ← takeBlock buffer offset .text .text
    match Utf8.decode piece with
    | .ok s => return (.text s, next)
    | .error fault =>
      let start ← add offset 2
      decline (.notUtf8 start.toNat fault)
  | .bytes => do
    let (piece, next) ← takeBlock buffer offset .bytes .bytes
    return (.bytes piece, next)
  | .array _ | .message => decline (.notScalar type)
where
  /-- The value with the place that many octets further on as values of the type take. -/
  behind (value : Value) : Attempt (Value × UInt64) := do
    let next ← add offset (UInt64.ofNat (type.fixedWidth?.getD 0))
    return (value, next)

/-- Reads fields at the front of a buffer, and tells how many octets they took. -/
abbrev Reader := List FieldDef → Bytes → Attempt (List Field × UInt64)

/-- Reads the definitions in order, each field with `one`, from a place on. -/
def readEach (one : FieldType → UInt64 → Attempt (Field × UInt64)) (buffer : Bytes) :
    List FieldDef → UInt64 → Attempt (List Field × UInt64)
  | [], offset => pure ([], offset)
  | d :: ds, offset =>
    if size buffer ≤ offset then
      if d.optional then readEach one buffer ds offset
      else decline (.payloadEnds d.name d.type offset.toNat)
    else do
      let (f, next) ← within (.field d.name) (one d.type offset)
      let (fs, last) ← readEach one buffer ds next
      return (f :: fs, last)

/-- Reads an element: its index, its length, and fields that take it up wholly. -/
def readElement (inner : Reader) (layout : List FieldDef) (buffer : Bytes) (offset : UInt64) :
    Attempt (Element × UInt64) := do
  let index ← takeOctet buffer offset .elementIndex
  let place ← add offset 1
  let count ← takeLength buffer place .elementLength
  let start ← add offset 3
  let body ← take buffer start count .elementBody
  let fields ← within (.element index) do
    let (fields, taken) ← inner layout body
    if taken = count then pure fields else decline (.elementSize count.toNat taken.toNat)
  let next ← add start count
  return (⟨index, fields⟩, next)

/-- Reads elements from a place on, up to the end of a block; `count` many were read before. -/
def readElements (inner : Reader) (layout : List FieldDef) (body : Bytes) (count : Nat)
    (place : UInt64) : Attempt (List Element) :=
  if _left : place < size body then do
    let (e, next) ← within (.elementAfter count) (readElement inner layout body place)
    if _ahead : place < next then
      let es ← readElements inner layout body (count + 1) next
      return e :: es
    else .trapped .stuck
  else pure []
termination_by body.length - place.toNat
decreasing_by
  have hsize : (size body).toNat ≤ body.length := Nat.mod_le _ _
  rw [UInt64.lt_iff_toNat_lt] at _left _ahead
  omega

/-- Reads an array value: its length, and elements to the end. -/
def readArray (inner : Reader) (layout : List FieldDef) (buffer : Bytes) (offset : UInt64) :
    Attempt (List Element × UInt64) := do
  let count ← takeLength buffer offset .arrayLength
  let start ← add offset 2
  let body ← take buffer start count .arrayBody
  let es ← readElements inner layout body 0 0
  let next ← add start count
  return (es, next)

/-- The header at the front of octets, and its payload. -/
def parse (octets : Bytes) : Attempt (Header × Bytes) :=
  if size octets < 6 then decline (.headerCut (size octets).toNat)
  else do
    let serviceId ← octetAt octets 0
    let messageId ← octetAt octets 1
    let l₁ ← octetAt octets 2
    let l₀ ← octetAt octets 3
    let c₁ ← octetAt octets 4
    let c₀ ← octetAt octets 5
    let length := UInt16.ofNat (BigEndian.toNat [l₁, l₀])
    let carried := UInt16.ofNat (BigEndian.toNat [c₁, c₀])
    let short := do
      let present ← sub (size octets) 6
      decline (.payloadCut length.toNat present.toNat)
    -- The fault of the piece is not told, so its name does not matter.
    let payload ← unlessFault short (take octets 6 length.toUInt64 .bytes)
    let computed := frameChecksum serviceId messageId length payload
    if computed = carried then return (⟨serviceId, messageId, length, carried⟩, payload)
    else decline (.checksumMismatch serviceId messageId carried computed)

/-- Reads the frame at the front of octets, its fields with `inner`, and tells how many octets the
frame takes. -/
def readFrame (registry : Registry) (inner : Reader) (octets : Bytes) :
    Attempt (Message × UInt64) := do
  let (header, payload) ← parse octets
  let entry ← Attempt.ended (registry.lookup header.serviceId header.messageId)
  let fields ← within (.message entry.name) do
    let (fields, taken) ← inner entry.fields payload
    if taken = size payload then pure fields
    else
      let left ← sub (size payload) taken
      decline (.payloadLeft left.toNat)
  let length ← add 6 header.payloadLength.toUInt64
  return ({ serviceId := header.serviceId, messageId := header.messageId,
            isForward := decide (entry.direction = .forward), fields,
            name := some entry.name }, length)

/-- Refuses a level that the limit does not allow. -/
def checkDepth (limit depth : UInt64) : Attempt Unit :=
  if limit ≤ depth then decline (.tooDeep limit.toNat) else pure ()

/-- Reads one field.  The fields of an array or a nested message are read with `inner`, one level
further down. -/
def readField (registry : Registry) (limit : UInt64) (inner : UInt64 → Reader) (depth : UInt64)
    (buffer : Bytes) (type : FieldType) (offset : UInt64) : Attempt (Field × UInt64) :=
  match type with
  | .array layout => do
    checkDepth limit depth
    let deeper ← add depth 1
    let (es, next) ← readArray (inner deeper) layout buffer offset
    return (⟨type, .array es⟩, next)
  | .message => do
    checkDepth limit depth
    let deeper ← add depth 1
    let (m, consumed) ← readFrame registry (inner deeper) (buffer.drop offset.toNat)
    let next ← add offset consumed
    return (⟨type, .message m⟩, next)
  | _ => do
    let (value, next) ← decodeScalar buffer offset type
    return (⟨type, value⟩, next)

/-- Reads fields at a depth, with `stack` levels of the stack left. -/
def readFields (registry : Registry) (limit : UInt64) : (stack : Nat) → (depth : UInt64) → Reader
  | 0, depth, ds, buffer =>
    readEach (readField registry limit (fun _ _ _ => .trapped .exhausted) depth buffer) buffer ds 0
  | stack + 1, depth, ds, buffer =>
    readEach (readField registry limit (readFields registry limit stack) depth buffer) buffer ds 0

/-- Reads the frame at the front of octets, with as many levels of stack as there are octets. -/
def decodePrefix (registry : Registry) (limit : UInt64) (octets : Bytes) :
    Attempt (Message × UInt64) :=
  readFrame registry (readFields registry limit octets.length 0) octets

/-- Reads octets that are one frame. -/
def decode (registry : Registry) (limit : UInt64) (octets : Bytes) : Attempt Message := do
  let (m, consumed) ← decodePrefix registry limit octets
  if consumed = size octets then return m
  else
    let extra ← sub (size octets) consumed
    decline (.frameFollowed extra.toNat consumed.toNat)

end Wordwise

end SatWire
