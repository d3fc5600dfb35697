import SatWire.Frame.Encode
import SatWire.Proofs.Frame.Spelled

/-!
# Writing is spelling

A writer goes by the values and a reader by the schema.  The two agree on messages that are well
typed and conform: what is written for one is a spelling of the message as it comes back, and the
canonical one (`spells_of_encode`).

Conversely whatever is spelled can be written.  The spelling in use has the same length, because a
truth value takes one octet either way, so every length in it stays as it is and only checksums may
change; the two are the same exactly if the spelling was canonical (`SpellsMessage.encode`).
-/

namespace SatWire

/-- Fields are encoded exactly if the first is and those behind it are. -/
theorem Field.encodeEach_cons_eq_ok_iff {position : Nat} {f : Field} {fs : List Field}
    {octets : Bytes} :
    Field.encodeEach position (f :: fs) = .ok octets ↔
      ∃ first rest, Field.encode f = .ok first ∧ Field.encodeEach (position + 1) fs = .ok rest
        ∧ octets = first ++ rest := by
  rw [Field.encodeEach]
  cases Field.encode f with
  | error fault => simp
  | ok first =>
      simp only [located_ok, map_eq_ok_iff]
      constructor
      · rintro ⟨rest, hrest, rfl⟩
        exact ⟨first, rest, rfl, hrest, rfl⟩
      · rintro ⟨_, rest, ⟨⟩, hrest, rfl⟩
        exact ⟨rest, hrest, rfl⟩

/-- Elements are encoded exactly if the fields of the first have room behind its index and the
others are encoded. -/
theorem Element.encodeEach_cons_eq_ok_iff {e : Element} {es : List Element} {octets : Bytes} :
    Element.encodeEach (e :: es) = .ok octets ↔
      ∃ body rest, Field.encodeEach 0 e.fields = .ok body ∧ body.length ≤ maxLength
        ∧ Element.encodeEach es = .ok rest ∧ octets = e.index :: (block body ++ rest) := by
  obtain ⟨index, fields⟩ := e
  rw [Element.encodeEach, Element.encode]
  constructor
  · intro h
    split at h
    · cases h
    · rename_i written helement
      obtain ⟨body, hbody, hwhole⟩ := bind_eq_ok_iff.mp (located_eq_ok_iff.mp helement)
      obtain ⟨_, hblock, rfl⟩ := map_eq_ok_iff.mp hwhole
      obtain ⟨hshort, rfl⟩ := encodeBlock_eq_ok_iff.mp hblock
      obtain ⟨rest, hrest, rfl⟩ := map_eq_ok_iff.mp h
      exact ⟨body, rest, hbody, hshort, hrest, rfl⟩
  · rintro ⟨body, rest, hbody, hshort, hrest, rfl⟩
    have hblock : encodeBlock .element body = .ok (block body) :=
      encodeBlock_eq_ok_iff.mpr ⟨hshort, rfl⟩
    simp [hbody, hblock, hrest, Except.bind, Except.map]

/-- A message is encoded exactly if its fields are and fit in a frame. -/
theorem Message.encode_eq_ok_iff {m : Message} {frame : Bytes} :
    m.encode = .ok frame ↔ ∃ payload, Field.encodeEach 0 m.fields = .ok payload
      ∧ payload.length ≤ maxLength ∧ frame = Header.framed m.serviceId m.messageId payload := by
  obtain ⟨serviceId, messageId, category, isForward, fields, name⟩ := m
  rw [Message.encode]
  cases Field.encodeEach 0 fields with
  | error fault => simp
  | ok payload => simp [Header.assemble_eq_ok_iff]

/-- An array is encoded exactly if its elements are and have room in a block. -/
theorem Value.encode_array_eq_ok_iff {type : FieldType} {es : List Element} {octets : Bytes} :
    Value.encode type (.array es) = .ok octets ↔
      ∃ body, Element.encodeEach es = .ok body ∧ body.length ≤ maxLength ∧ octets = block body := by
  rw [Value.encode, bind_eq_ok_iff]
  simp only [encodeBlock_eq_ok_iff]

/-- **Checked writing** is the check and the writing. -/
theorem Message.encodeChecked_eq_ok_iff {r : Registry} {m : Message} {frame : Bytes} :
    m.encodeChecked r = .ok frame ↔ (∃ entry, r.conform m = .ok entry) ∧ m.encode = .ok frame := by
  rw [Message.encodeChecked, bind_eq_ok_iff, exists_and_right]

variable {r : Registry}

section Written

/-- Only arrays hold elements. -/
theorem FieldType.of_check_array {type : FieldType} {es : List Element}
    (hcheck : type.check (.array es) = .ok ()) : ∃ layout, type = .array layout := by
  cases type with
  | array layout => exact ⟨layout, rfl⟩
  | uint | int | bool | text | bytes | enum | message => exact absurd hcheck refuse_ne_ok

/-- Only messages hold a message. -/
theorem FieldType.of_check_message {type : FieldType} {inner : Message}
    (hcheck : type.check (.message inner) = .ok ()) : type = .message := by
  cases type with
  | message => rfl
  | uint | int | bool | text | bytes | enum | array => exact absurd hcheck refuse_ne_ok

/-- What is written for a value without fields is spelled, as a field. -/
theorem spellsField_of_encode {type : FieldType} {value : Value} {octets : Bytes}
    (h : Scalar.encode type value = .ok octets) :
    ∃ truths, SpellsField r octets type ⟨type, value⟩ truths ∧ Canonical truths := by
  obtain ⟨truths, hscalar, hcanonical⟩ := spells_of_encode h
  exact ⟨truths, .scalar hscalar, hcanonical⟩

mutual

/-- A value is spelled by what it is encoded in, once its marks are the registry's. -/
theorem spells_of_encodeValue : ∀ (value : Value) {type : FieldType} {octets : Bytes},
    type.check value = .ok () → value.WellTyped →
    Registry.conformNestedValue r type value = .ok () → Value.encode type value = .ok octets →
    ∃ truths, SpellsField r octets type ⟨type, Registry.restoreValue r value⟩ truths
      ∧ Canonical truths
  | .array es, type, octets, hcheck, htyped, hnested, hencode => by
      obtain ⟨layout, rfl⟩ := FieldType.of_check_array hcheck
      obtain ⟨body, hbody, hshort, rfl⟩ := Value.encode_array_eq_ok_iff.mp hencode
      rw [Value.WellTyped] at htyped
      rw [Registry.conformNestedValue] at hnested
      rw [Registry.restoreValue]
      obtain ⟨truths, hspells, hcanonical⟩ := spells_of_encodeElements es htyped hnested hbody
      exact ⟨truths, .array hspells hshort, hcanonical⟩
  | .message inner, type, octets, hcheck, htyped, hnested, hencode => by
      obtain rfl := FieldType.of_check_message hcheck
      rw [Value.WellTyped] at htyped
      rw [Value.encode] at hencode
      rw [Registry.restoreValue]
      obtain ⟨truths, hspells, hcanonical⟩ := spells_of_encodeMessage inner htyped
        (Registry.conformNestedValue_message_eq_ok_iff.mp hnested) hencode
      exact ⟨truths, .message hspells, hcanonical⟩
  | .uint _, _, _, _, _, _, hencode | .int _, _, _, _, _, _, hencode
  | .bool _, _, _, _, _, _, hencode | .text _, _, _, _, _, _, hencode
  | .bytes _, _, _, _, _, _, hencode | .enum _, _, _, _, _, _, hencode => by
      rw [Registry.restoreValue]
      exact spellsField_of_encode hencode

/-- Fields are spelled by what they are encoded in, passing over the optional ones at the end. -/
theorem spells_of_encodeEach : ∀ (fs : List Field) {ds : List FieldDef} {position : Nat}
    {octets : Bytes}, Field.AllWellTyped fs → Follows ds fs →
    Registry.conformNested r ds fs = .ok () → Field.encodeEach position fs = .ok octets →
    ∃ truths, SpellsFields r octets ds (Registry.restoreEach r fs) truths ∧ Canonical truths
  | [], ds, position, octets, _, hfollows, _, hencode => by
      rw [Follows] at hfollows
      rw [Field.encodeEach] at hencode
      cases hencode
      rw [Registry.restoreEach]
      exact ⟨[], .nil hfollows, .nil⟩
  | f :: fs, [], position, octets, _, hfollows, _, _ => by
      rw [Follows] at hfollows
      exact hfollows.elim
  | ⟨type, value⟩ :: fs, d :: ds, position, octets, htyped, hfollows, hnested, hencode => by
      rw [Field.AllWellTyped, Field.WellTyped] at htyped
      obtain ⟨⟨hcheck, hvalue⟩, hothers⟩ := htyped
      rw [Follows] at hfollows
      obtain ⟨rfl, hfollow⟩ := hfollows
      obtain ⟨hfirstNested, hrestNested⟩ := Registry.conformNested_cons_eq_ok_iff.mp hnested
      obtain ⟨first, rest, hfirst, hrest, rfl⟩ := Field.encodeEach_cons_eq_ok_iff.mp hencode
      rw [Field.encode] at hfirst
      obtain ⟨t, hfield, ht⟩ := spells_of_encodeValue value hcheck hvalue hfirstNested hfirst
      obtain ⟨u, hfields, hu⟩ := spells_of_encodeEach fs hothers hfollow hrestNested hrest
      rw [Registry.restoreEach, Registry.restoreField]
      exact ⟨t ++ u, .cons first rest hfield hfields, canonical_append.mpr ⟨ht, hu⟩⟩

/-- Elements are spelled by what they are encoded in. -/
theorem spells_of_encodeElements : ∀ (es : List Element) {layout : List FieldDef}
    {octets : Bytes}, Element.AllWellTyped es →
    Registry.conformNestedElements r layout es = .ok () → Element.encodeEach es = .ok octets →
    ∃ truths, SpellsElements r octets layout (Registry.restoreElements r es) truths
      ∧ Canonical truths
  | [], layout, octets, _, _, hencode => by
      rw [Element.encodeEach] at hencode
      cases hencode
      rw [Registry.restoreElements]
      exact ⟨[], .nil, .nil⟩
  | ⟨index, fields⟩ :: es, layout, octets, htyped, hnested, hencode => by
      rw [Element.AllWellTyped, Element.WellTyped] at htyped
      obtain ⟨hfollows, hfirstNested, hrestNested⟩ :=
        Registry.conformNestedElements_cons_eq_ok_iff.mp hnested
      obtain ⟨body, rest, hbody, hshort, hrest, rfl⟩ :=
        Element.encodeEach_cons_eq_ok_iff.mp hencode
      obtain ⟨t, hfields, ht⟩ := spells_of_encodeEach fields htyped.1 hfollows hfirstNested hbody
      obtain ⟨u, helements, hu⟩ := spells_of_encodeElements es htyped.2 hrestNested hrest
      rw [Registry.restoreElements, Registry.restoreElement]
      exact ⟨t ++ u, .cons index body rest hfields hshort helements,
        canonical_append.mpr ⟨ht, hu⟩⟩

/-- **What is written is spelled**, canonically, and spells the message as it comes back. -/
theorem spells_of_encodeMessage : ∀ (m : Message) {frame : Bytes}, m.WellTyped →
    (∃ entry, r.conform m = .ok entry) → m.encode = .ok frame →
    ∃ truths, SpellsMessage r frame (r.restore m) truths ∧ Canonical truths
  | ⟨serviceId, messageId, category, isForward, fields, name⟩, frame, htyped, hconforms,
      hencode => by
      obtain ⟨entry, hentry⟩ := hconforms
      obtain ⟨hlookup, hfollows, hnested⟩ := Registry.conform_eq_ok_iff.mp hentry
      obtain ⟨payload, hpayload, hshort, rfl⟩ := Message.encode_eq_ok_iff.mp hencode
      rw [Message.WellTyped] at htyped
      rw [Registry.restore_of_lookup hlookup]
      obtain ⟨truths, hspells, hcanonical⟩ :=
        spells_of_encodeEach fields htyped hfollows hnested hpayload
      exact ⟨truths, .framed hlookup hspells hshort, hcanonical⟩

end

/-- **What passes the check and is written is spelled.** -/
theorem spells_of_encodeChecked {m : Message} {frame : Bytes} (htyped : m.WellTyped)
    (hencode : m.encodeChecked r = .ok frame) :
    ∃ truths, SpellsMessage r frame (r.restore m) truths ∧ Canonical truths := by
  obtain ⟨hconforms, hwritten⟩ := Message.encodeChecked_eq_ok_iff.mp hencode
  exact spells_of_encodeMessage m htyped hconforms hwritten

end Written

section Rewritten

/-- Two pieces that are as long as two others, and equal to them under some conditions, make wholes
that are equal under both. -/
theorem append_eq_iff {a b first rest t u : Bytes} (hlength : a.length = first.length)
    (hfirst : a = first ↔ Canonical t) (hrest : b = rest ↔ Canonical u) :
    a ++ b = first ++ rest ↔ Canonical (t ++ u) := by
  rw [canonical_append, ← hfirst, ← hrest]
  exact ⟨fun h => List.append_inj h hlength, fun h => by rw [h.1, h.2]⟩

mutual

/-- A field that octets spell is written in as many octets, and in the same ones if they are
canonical. -/
theorem SpellsField.encode {octets truths : Bytes} {type : FieldType} {f : Field} :
    SpellsField r octets type f truths →
      ∃ written, Field.encode f = .ok written ∧ written.length = octets.length
        ∧ (written = octets ↔ Canonical truths)
  | .scalar hscalar => by
      obtain ⟨written, hencode, hlength, hsame⟩ := hscalar.encode
      refine ⟨written, ?_, hlength, hsame⟩
      rw [Field.encode]
      cases hscalar <;> exact hencode
  | .array helements hshort => by
      obtain ⟨written, hencode, hlength, hsame⟩ := SpellsElements.encode helements
      refine ⟨block written, ?_, ?_, ?_⟩
      · rw [Field.encode]
        exact Value.encode_array_eq_ok_iff.mpr ⟨written, hencode, hlength ▸ hshort, rfl⟩
      · rw [length_block, length_block, hlength]
      · rw [block_inj hlength]
        exact hsame
  | .message hmessage => by
      obtain ⟨written, hencode, hlength, hsame⟩ := SpellsMessage.encode hmessage
      refine ⟨written, ?_, hlength, hsame⟩
      rw [Field.encode, Value.encode]
      exact hencode

theorem SpellsFields.encode {octets truths : Bytes} {ds : List FieldDef} {fs : List Field} :
    SpellsFields r octets ds fs truths → ∀ position : Nat,
      ∃ written, Field.encodeEach position fs = .ok written ∧ written.length = octets.length
        ∧ (written = octets ↔ Canonical truths)
  | .nil _, position => by
      rw [Field.encodeEach]
      exact ⟨[], rfl, rfl, iff_of_true rfl .nil⟩
  | .cons first rest hfirst hrest, position => by
      obtain ⟨a, hencode, hlength, hsame⟩ := SpellsField.encode hfirst
      obtain ⟨b, hencodes, hlengths, hsames⟩ := SpellsFields.encode hrest (position + 1)
      refine ⟨a ++ b, ?_, ?_, append_eq_iff hlength hsame hsames⟩
      · exact Field.encodeEach_cons_eq_ok_iff.mpr ⟨a, b, hencode, hencodes, rfl⟩
      · rw [List.length_append, List.length_append, hlength, hlengths]

theorem SpellsElements.encode {octets truths : Bytes} {layout : List FieldDef}
    {es : List Element} :
    SpellsElements r octets layout es truths →
      ∃ written, Element.encodeEach es = .ok written ∧ written.length = octets.length
        ∧ (written = octets ↔ Canonical truths)
  | .nil => by
      rw [Element.encodeEach]
      exact ⟨[], rfl, rfl, iff_of_true rfl .nil⟩
  | .cons index body rest hfields hshort hrest => by
      obtain ⟨a, hencode, hlength, hsame⟩ := SpellsFields.encode hfields 0
      obtain ⟨b, hencodes, hlengths, hsames⟩ := SpellsElements.encode hrest
      have hblocks : (block a).length = (block body).length := by
        rw [length_block, length_block, hlength]
      refine ⟨index :: (block a ++ b), ?_, ?_, ?_⟩
      · exact Element.encodeEach_cons_eq_ok_iff.mpr
          ⟨a, b, hencode, hlength ▸ hshort, hencodes, rfl⟩
      · rw [List.length_cons, List.length_cons, List.length_append, List.length_append, hblocks,
          hlengths]
      · rw [List.cons_inj_right]
        exact append_eq_iff hblocks ((block_inj hlength).trans hsame) hsames

/-- **What is spelled is written again** in as many octets, and in the same ones exactly if the
spelling is canonical. -/
theorem SpellsMessage.encode {octets truths : Bytes} {m : Message} :
    SpellsMessage r octets m truths →
      ∃ written, m.encode = .ok written ∧ written.length = octets.length
        ∧ (written = octets ↔ Canonical truths)
  | .framed hlookup hfields hshort => by
      obtain ⟨written, hencode, hlength, hsame⟩ := SpellsFields.encode hfields 0
      refine ⟨_, Message.encode_eq_ok_iff.mpr ⟨written, hencode, hlength ▸ hshort, rfl⟩, ?_, ?_⟩
      · rw [Header.length_framed, Header.length_framed, hlength]
      · rw [Header.framed_inj]
        exact hsame

end

end Rewritten

end SatWire
