import SatWire.Frame.Decode
import SatWire.Proofs.Outcome

/-!
# Reading as a chain of steps

Every reader does one thing after the other and stops at the first fault.  Here each is written as
the chain that it is, so that a property which a chain has when its steps have it needs one lemma
for chains and one for each reader.
-/

namespace SatWire

section Readers

variable {inner : FieldReader} {layout : List FieldDef} {c : Cursor}

/-- Either nothing is left, or one field is read and then those behind it. -/
theorem readEach_cons_eq_bind {one : FieldType → Cursor → Except ParseError (Field × Cursor)}
    {d : FieldDef} {ds : List FieldDef} :
    readEach one (d :: ds) c
      = if c.rest = [] then
          if d.optional then readEach one ds c else refuse (.payloadEnds d.name d.type c.offset)
        else (located (.field d.name) (one d.type c)).bind fun (f, next) =>
          (readEach one ds next).map fun (fs, last) => (f :: fs, last) := by
  rw [readEach]
  simp only [List.isEmpty_iff]
  cases located (.field d.name) (one d.type c) <;> rfl

/-- An element is an index, a block, and the fields that take up the block. -/
theorem readElement_eq_bind :
    readElement inner layout c
      = (c.takeOctet .elementIndex).bind fun (index, place) =>
          (place.takeBlock .elementLength .elementBody).bind fun (body, next) =>
            located (.element index) <| (inner layout body).bind fun (fields, taken) =>
              if taken = body.length then .ok (⟨index, fields⟩, next)
              else refuse (.elementSize body.length taken) := by
  rw [readElement]
  cases c.takeOctet .elementIndex with
  | error fault => rfl
  | ok first =>
      obtain ⟨index, place⟩ := first
      simp only [Except.bind]
      cases place.takeBlock .elementLength .elementBody with
      | error fault => rfl
      | ok second =>
          obtain ⟨body, next⟩ := second
          dsimp only
          cases inner layout body <;> rfl

/-- Either nothing is left, or one element is read and then those behind it. -/
theorem readElements_eq_bind {count : Nat} :
    readElements inner layout count c
      = if c.rest = [] then .ok []
        else (located (.elementAfter count) (readElement inner layout c)).bind fun (e, next) =>
          (readElements inner layout (count + 1) next).map (e :: ·) := by
  rw [readElements]
  simp only [List.isEmpty_iff]
  split
  · rfl
  · split
    · rename_i fault hfault
      rw [hfault]
      rfl
    · rename_i e next hread
      rw [hread]
      rfl

/-- An array is a block that is read as elements to its end. -/
theorem readArray_eq_bind :
    readArray inner layout c
      = (c.takeBlock .arrayLength .arrayBody).bind fun (body, next) =>
          (readElements inner layout 0 (.start body)).map fun es => (es, next) := by
  rw [readArray]
  cases c.takeBlock .arrayLength .arrayBody <;> rfl

/-- A frame is a header, a schema that knows it, and the fields that take up the payload. -/
theorem readFrame_eq_bind {registry : Registry} {octets : Bytes} :
    readFrame registry inner octets
      = (Header.parse octets).bind fun (header, payload, _) =>
          (registry.lookup header.serviceId header.messageId).bind fun entry =>
            located (.message entry.name) <| (inner entry.fields payload).bind
              fun (fields, taken) =>
                if taken = payload.length then
                  .ok ({ serviceId := header.serviceId, messageId := header.messageId,
                         isForward := decide (entry.direction = .forward), fields,
                         name := some entry.name }, header.frameLength)
                else refuse (.payloadLeft (payload.length - taken)) := by
  rw [readFrame]
  cases Header.parse octets with
  | error fault => rfl
  | ok parsed =>
      obtain ⟨header, payload, rest⟩ := parsed
      simp only [Except.bind]
      cases registry.lookup header.serviceId header.messageId with
      | error fault => rfl
      | ok entry =>
          dsimp only
          cases inner entry.fields payload <;> rfl

end Readers

/-- A decoded frame is one that is read off the front with nothing behind it. -/
theorem Decoder.decode_eq_bind {d : Decoder} {octets : Bytes} :
    d.decode octets
      = (d.decodePrefix octets).bind fun (m, size) =>
          if size = octets.length then .ok m
          else refuse (.frameFollowed (octets.length - size) size) := by
  rw [Decoder.decode]
  cases d.decodePrefix octets <;> rfl

end SatWire
