import SatWire.Proofs.Frame.Grammar

/-!
# How much room messages take

The octets that a field takes can be counted without writing it: a number takes those of its width,
everything else its content and the lengths and headers around it.  The count knows no bounds, so it
is also told for what is too long to be written.

Spellings of one field may differ in octets but not in their number, which is this one
(`SpellsField.length_eq`).
-/

namespace SatWire

mutual

/-- How many octets a value takes whose field has the given type. -/
def Value.size (type : FieldType) : Value → Nat
  | .array elements => 2 + Element.totalSize elements
  | .message inner => headerSize + Message.payloadSize inner
  | .text s => 2 + (Utf8.encode s).length
  | .bytes octets => 2 + octets.length
  | .uint _ | .int _ | .bool _ | .enum _ => type.fixedWidth?.getD 0

/-- How many octets a field takes. -/
def Field.size : Field → Nat
  | ⟨type, value⟩ => Value.size type value

/-- How many octets fields take, one behind the other. -/
def Field.totalSize : List Field → Nat
  | [] => 0
  | f :: fs => Field.size f + Field.totalSize fs

/-- How many octets an element takes: its index, a length, and its fields. -/
def Element.size : Element → Nat
  | ⟨_, fields⟩ => 3 + Field.totalSize fields

/-- How many octets elements take, one behind the other. -/
def Element.totalSize : List Element → Nat
  | [] => 0
  | e :: es => Element.size e + Element.totalSize es

/-- How many octets the fields of a message take, without the header in front of them. -/
def Message.payloadSize : Message → Nat
  | ⟨_, _, _, _, fields, _⟩ => Field.totalSize fields

end

/-- A value without fields is spelled in as many octets as its size counts. -/
theorem SpellsScalar.length_eq {octets truths : Bytes} {type : FieldType} {value : Value}
    (h : SpellsScalar octets type value truths) : octets.length = value.size type := by
  cases h with
  | uint width n hfits =>
      rw [BigEndian.length_ofNat, Value.size]
      rfl
  | int width n hlow hhigh =>
      rw [BigEndian.ofInt, BigEndian.length_ofNat, Value.size]
      rfl
  | bool octet | enum n =>
      rw [Value.size]
      rfl
  | text s hshort | bytes octets hshort => rw [length_block, Value.size]

variable {r : Registry}

mutual

/-- **A field takes as much room as is counted for it**, however it is spelled. -/
theorem SpellsField.length_eq {octets truths : Bytes} {type : FieldType} {f : Field} :
    SpellsField r octets type f truths → octets.length = f.size
  | .scalar hscalar => by rw [Field.size, hscalar.length_eq]
  | .array helements _ => by
      rw [Field.size, Value.size, length_block, SpellsElements.length_eq helements]
  | .message hmessage => by
      rw [Field.size, Value.size, SpellsMessage.length_eq hmessage]

/-- Fields are spelled in as many octets as their sizes count, one after the other. -/
theorem SpellsFields.length_eq {octets truths : Bytes} {ds : List FieldDef} {fs : List Field} :
    SpellsFields r octets ds fs truths → octets.length = Field.totalSize fs
  | .nil _ => by rw [Field.totalSize, List.length_nil]
  | .cons _ _ hfirst hrest => by
      rw [Field.totalSize, List.length_append, SpellsField.length_eq hfirst,
        SpellsFields.length_eq hrest]

/-- Elements are spelled in as many octets as their sizes count, one after the other. -/
theorem SpellsElements.length_eq {octets truths : Bytes} {layout : List FieldDef}
    {es : List Element} :
    SpellsElements r octets layout es truths → octets.length = Element.totalSize es
  | .nil => by rw [Element.totalSize, List.length_nil]
  | .cons _ _ _ hfields _ hrest => by
      rw [Element.totalSize, Element.size, List.length_cons, List.length_append, length_block,
        SpellsFields.length_eq hfields, SpellsElements.length_eq hrest]
      omega

/-- A message is spelled in a header and as many octets as its payload counts. -/
theorem SpellsMessage.length_eq {octets truths : Bytes} {m : Message} :
    SpellsMessage r octets m truths → octets.length = headerSize + m.payloadSize
  | .framed _ hfields _ => by
      rw [Message.payloadSize, Header.length_framed, SpellsFields.length_eq hfields, headerSize]

end

end SatWire
