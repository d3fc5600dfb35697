import SatWire.Frame.Decode
import SatWire.Proofs.Frame.Grammar
import SatWire.Proofs.Schema.Restore

/-!
# Reading what is spelled

A decoder with a limit of levels accepts the spellings of messages that nest no deeper, and refuses
the others.

A decoder takes up a spelling piece by piece and looks at nothing behind a piece, so what is
spelled is read, by induction on the spelling.  A spelling that nests too deep is refused as such
and not for any other reason, since everything in front of the field that goes too deep is read.

* `SpellsMessage.read` — what nests no deeper than allowed is read;
* `SpellsMessage.too_deep` — what nests deeper is refused.
-/

namespace SatWire

namespace Decoder

/-- How fields are read one level further down, if a level is left. -/
def inner (d : Decoder) : Nat → Option FieldReader
  | 0 => none
  | levels + 1 => some (d.readFields levels)

/-- Fields are read by one rule at every level; the levels only tell what stands inside. -/
theorem readFields_eq (d : Decoder) (levels : Nat) (ds : List FieldDef) (buffer : Bytes) :
    d.readFields levels ds buffer
      = (readEach (d.readField (d.inner levels)) ds (.start buffer)).map
          fun (fs, c) => (fs, c.offset) := by
  cases levels <;> rfl

/-- A type without fields of its own is read as a value, whatever may nest. -/
theorem readField_scalar {d : Decoder} {read : Option FieldReader} {type : FieldType} {c : Cursor}
    (hplain : type.isComposite = false) :
    d.readField read type c
      = (Scalar.decode c type).map fun (value, next) => (⟨type, value⟩, next) := by
  cases type with
  | uint | int | bool | text | bytes | enum => rfl
  | array | message => cases hplain

end Decoder

/-- A definition that octets are left for is read, and then the others. -/
theorem readEach_cons {read : FieldType → Cursor → Except ParseError (Field × Cursor)}
    {d : FieldDef} {ds : List FieldDef} {c next : Cursor} {f : Field} (hleft : c.rest ≠ [])
    (hread : read d.type c = .ok (f, next)) :
    readEach read (d :: ds) c = (readEach read ds next).map fun (fs, last) => (f :: fs, last) := by
  rw [readEach, hread, List.isEmpty_eq_false_iff.mpr hleft]
  rfl

/-- Where nothing is left, optional definitions are passed over. -/
theorem readEach_nil {read : FieldType → Cursor → Except ParseError (Field × Cursor)}
    {ds : List FieldDef} {offset : Nat} (hoptional : ∀ d ∈ ds, d.optional = true) :
    readEach read ds ⟨offset, []⟩ = .ok ([], ⟨offset, []⟩) := by
  induction ds with
  | nil => rfl
  | cons d ds ih =>
      obtain ⟨hfirst, hrest⟩ := List.forall_mem_cons.mp hoptional
      rw [readEach, hfirst]
      exact ih hrest

section Elements

variable {read : FieldReader} {layout : List FieldDef}

/-- The index and the body of an element are taken, whatever stands behind it. -/
theorem take_element {body : Bytes} (index : UInt8) (offset : Nat) (rest : Bytes)
    (hshort : body.length ≤ maxLength) :
    (Cursor.mk offset (index :: (block body ++ rest))).takeOctet .elementIndex
        = .ok (index, ⟨offset + 1, block body ++ rest⟩)
      ∧ (Cursor.mk (offset + 1) (block body ++ rest)).takeBlock .elementLength .elementBody
        = .ok (body, ⟨offset + 1 + (block body).length, rest⟩) :=
  ⟨rfl, Cursor.takeBlock_block (offset + 1) rest hshort⟩

/-- An element is read if its fields take up its body wholly. -/
theorem readElement_block {body : Bytes} {fs : List Field} (index : UInt8) (offset : Nat)
    (rest : Bytes) (hshort : body.length ≤ maxLength)
    (hread : read layout body = .ok (fs, body.length)) :
    readElement read layout ⟨offset, index :: (block body ++ rest)⟩
      = .ok (⟨index, fs⟩, ⟨offset + 1 + (block body).length, rest⟩) := by
  obtain ⟨hindex, hbody⟩ := take_element index offset rest hshort
  simp [readElement, hindex, hbody, hread]

/-- An element is not read if its fields are not. -/
theorem readElement_error {body : Bytes} {fault : ParseError} (index : UInt8) (offset : Nat)
    (rest : Bytes) (hshort : body.length ≤ maxLength) (hread : read layout body = .error fault) :
    readElement read layout ⟨offset, index :: (block body ++ rest)⟩
      = .error (fault.within (.element index)) := by
  obtain ⟨hindex, hbody⟩ := take_element index offset rest hshort
  simp [readElement, hindex, hbody, hread]

/-- Elements are read one by one, and one that is read leaves less than there was. -/
theorem readElements_cons {count : Nat} {c next : Cursor} {e : Element}
    (hread : readElement read layout c = .ok (e, next)) :
    readElements read layout count c
      = (readElements read layout (count + 1) next).map (e :: ·) := by
  have hleft : c.rest ≠ [] :=
    List.length_pos_iff.mp (Nat.zero_lt_of_lt (readElement_shorter hread))
  rw [readElements, List.isEmpty_eq_false_iff.mpr hleft]
  simp only [Bool.false_eq_true, if_false]
  split
  · rename_i fault hfault
    rw [hread] at hfault
    cases hfault
  · rename_i found behind hsame
    rw [hread] at hsame
    cases hsame
    rfl

/-- The first element that is not read ends the reading. -/
theorem readElements_error {count : Nat} {c : Cursor} {fault : ParseError} (hleft : c.rest ≠ [])
    (hread : readElement read layout c = .error fault) :
    readElements read layout count c = .error (fault.within (.elementAfter count)) := by
  rw [readElements, List.isEmpty_eq_false_iff.mpr hleft]
  simp only [Bool.false_eq_true, if_false]
  split
  · rename_i found hsame
    rw [hread] at hsame
    cases hsame
    rfl
  · rename_i e next hsame
    rw [hread] at hsame
    cases hsame

/-- Where nothing is left there are no more elements. -/
theorem readElements_nil {count offset : Nat} :
    readElements read layout count ⟨offset, []⟩ = .ok [] := by
  rw [readElements]
  rfl

end Elements

/-- A frame is read once its payload is. -/
theorem readFrame_framed {r : Registry} {read : FieldReader} {serviceId messageId : UInt8}
    {entry : SchemaEntry} {payload : Bytes} {fs : List Field}
    (hlookup : r.lookup serviceId messageId = .ok entry) (hshort : payload.length ≤ maxLength)
    (hread : read entry.fields payload = .ok (fs, payload.length)) (rest : Bytes) :
    readFrame r read (Header.framed serviceId messageId payload ++ rest)
      = .ok (⟨serviceId, messageId, .data, decide (entry.direction = .forward), fs,
          some entry.name⟩, (Header.framed serviceId messageId payload).length) := by
  rw [readFrame, Header.parse_framed hshort rest]
  simp only [Header.ofFitting, hlookup, hread, if_true, located_ok]
  rw [← Header.frameLength_ofFitting hshort, Header.ofFitting]

section Accepted

variable {d : Decoder}

/-- Fields that take up all octets are what the octets are read as. -/
theorem Decoder.readFields_of_readEach {levels : Nat} {ds : List FieldDef} {octets : Bytes}
    {fs : List Field}
    (hread : readEach (d.readField (d.inner levels)) ds ⟨0, octets⟩
      = .ok (fs, ⟨0 + octets.length, []⟩)) :
    d.readFields levels ds octets = .ok (fs, octets.length) := by
  rw [d.readFields_eq, Cursor.start, hread, Nat.zero_add]
  rfl

mutual

/-- A field is read back from its spelling, in front of anything, if there are levels for it. -/
theorem SpellsField.read {octets truths : Bytes} {type : FieldType} {f : Field} :
    SpellsField d.registry octets type f truths → ∀ (levels offset : Nat) (rest : Bytes),
      f.nesting ≤ levels →
      d.readField (d.inner levels) type ⟨offset, octets ++ rest⟩
        = .ok (f, ⟨offset + octets.length, rest⟩)
  | .scalar hscalar, levels, offset, rest, _ => by
      rw [Decoder.readField_scalar hscalar.not_composite, hscalar.decode offset rest]
      rfl
  | .array helements hshort, levels, offset, rest, hdepth => by
      rw [Field.nesting, Value.nesting] at hdepth
      obtain ⟨below, rfl⟩ : ∃ below, levels = below + 1 := ⟨levels - 1, by omega⟩
      have hinner := SpellsElements.read helements below 0 0 (by omega)
      change (readArray (d.readFields below) _ _).map _ = _
      rw [readArray, Cursor.takeBlock_block offset rest hshort]
      simp only
      rw [Cursor.start, hinner]
      rfl
  | .message hmessage, levels, offset, rest, hdepth => by
      rw [Field.nesting, Value.nesting] at hdepth
      obtain ⟨below, rfl⟩ : ∃ below, levels = below + 1 := ⟨levels - 1, by omega⟩
      have hinner := SpellsMessage.read hmessage below rest (by omega)
      change (readFrame d.registry (d.readFields below) (octets ++ rest)).map _ = _
      rw [hinner]
      simp [Except.map, Cursor.skip]

/-- Fields are read back from their spelling, which they take up. -/
theorem SpellsFields.read {octets truths : Bytes} {ds : List FieldDef} {fs : List Field} :
    SpellsFields d.registry octets ds fs truths → ∀ levels offset : Nat,
      Field.deepest fs ≤ levels →
      readEach (d.readField (d.inner levels)) ds ⟨offset, octets⟩
        = .ok (fs, ⟨offset + octets.length, []⟩)
  | .nil hoptional, levels, offset, _ => readEach_nil hoptional
  | .cons first rest hfirst hrest, levels, offset, hdepth => by
      rw [Field.deepest, Nat.max_le] at hdepth
      have hfield := SpellsField.read hfirst levels offset rest hdepth.1
      have hfields := SpellsFields.read hrest levels (offset + first.length) hdepth.2
      rw [readEach_cons (hfirst.append_ne_nil rest) hfield, hfields, List.length_append,
        ← Nat.add_assoc]
      rfl

/-- Elements are read back from their spelling, which they take up. -/
theorem SpellsElements.read {octets truths : Bytes} {layout : List FieldDef} {es : List Element} :
    SpellsElements d.registry octets layout es truths → ∀ levels count offset : Nat,
      Element.deepest es ≤ levels →
      readElements (d.readFields levels) layout count ⟨offset, octets⟩ = .ok es
  | .nil, levels, count, offset, _ => readElements_nil
  | .cons index body rest hfields hshort hrest, levels, count, offset, hdepth => by
      rw [Element.deepest, Element.nesting, Nat.max_le] at hdepth
      have hbody := Decoder.readFields_of_readEach (SpellsFields.read hfields levels 0 hdepth.1)
      have helement := readElement_block index offset rest hshort hbody
      rw [readElements_cons helement,
        SpellsElements.read hrest levels (count + 1) _ hdepth.2]
      rfl

/-- **What is spelled is read**, whatever stands behind it, if it nests no deeper than allowed. -/
theorem SpellsMessage.read {octets truths : Bytes} {m : Message} :
    SpellsMessage d.registry octets m truths → ∀ (levels : Nat) (rest : Bytes),
      m.nesting ≤ levels →
      readFrame d.registry (d.readFields levels) (octets ++ rest) = .ok (m, octets.length)
  | .framed hlookup hfields hshort, levels, rest, hdepth => by
      rw [Message.nesting] at hdepth
      have hpayload := Decoder.readFields_of_readEach (SpellsFields.read hfields levels 0 hdepth)
      exact readFrame_framed hlookup hshort hpayload rest

end

end Accepted

section Refused

variable {read : FieldReader} {kind : ParseError.Kind}

/-- Fields fail with the first that octets are left for. -/
theorem readEach_fails {one : FieldType → Cursor → Except ParseError (Field × Cursor)}
    {d : FieldDef} {ds : List FieldDef} {c : Cursor} (hleft : c.rest ≠ [])
    (hfails : FailsAs (one d.type c) kind) : FailsAs (readEach one (d :: ds) c) kind := by
  obtain ⟨fault, hfault, rfl⟩ := hfails
  refine ⟨fault.within (.field d.name), ?_, rfl⟩
  rw [readEach, hfault, List.isEmpty_eq_false_iff.mpr hleft]
  rfl

/-- Elements fail with the fields of the first. -/
theorem readElements_fails {layout : List FieldDef} {body : Bytes} (index : UInt8)
    (count offset : Nat) (rest : Bytes) (hshort : body.length ≤ maxLength)
    (hfails : FailsAs (read layout body) kind) :
    FailsAs (readElements read layout count ⟨offset, index :: (block body ++ rest)⟩) kind := by
  obtain ⟨fault, hfault, rfl⟩ := hfails
  have helement := readElement_error index offset rest hshort hfault
  exact ⟨_, readElements_error (List.cons_ne_nil _ _) helement, rfl⟩

/-- A frame fails with its payload. -/
theorem readFrame_fails {r : Registry} {serviceId messageId : UInt8} {entry : SchemaEntry}
    {payload : Bytes} (hlookup : r.lookup serviceId messageId = .ok entry)
    (hshort : payload.length ≤ maxLength) (hfails : FailsAs (read entry.fields payload) kind)
    (rest : Bytes) :
    FailsAs (readFrame r read (Header.framed serviceId messageId payload ++ rest)) kind := by
  obtain ⟨fault, hfault, rfl⟩ := hfails
  refine ⟨fault.within (.message entry.name), ?_, rfl⟩
  rw [readFrame, Header.parse_framed hshort rest]
  simp only [Header.ofFitting, hlookup, hfault, located_error]

/-- The deepest of several is the first that is too deep, or the first is not and another is. -/
theorem first_or_later {levels first others : Nat} (h : levels < max first others) :
    levels < first ∨ first ≤ levels ∧ levels < others := by
  omega

variable {d : Decoder}

/-- Octets fail with their fields. -/
theorem Decoder.readFields_fails {levels : Nat} {ds : List FieldDef} {octets : Bytes}
    (hfails : FailsAs (readEach (d.readField (d.inner levels)) ds ⟨0, octets⟩) kind) :
    FailsAs (d.readFields levels ds octets) kind := by
  rw [d.readFields_eq]
  exact hfails.map _

mutual

/-- A field that nests too deep is refused for its structure. -/
theorem SpellsField.too_deep {octets truths : Bytes} {type : FieldType} {f : Field} :
    SpellsField d.registry octets type f truths → ∀ (levels offset : Nat) (rest : Bytes),
      levels < f.nesting →
      FailsAs (d.readField (d.inner levels) type ⟨offset, octets ++ rest⟩) .invalidStructure
  | .scalar hscalar, levels, offset, rest, hdepth => by
      cases hscalar <;> exact absurd hdepth (Nat.not_lt_zero _)
  | .array helements hshort, 0, offset, rest, hdepth => FailsAs.refuse (.tooDeep d.limit)
  | .array helements hshort, below + 1, offset, rest, hdepth => by
      rw [Field.nesting, Value.nesting] at hdepth
      have hinner := SpellsElements.too_deep helements below 0 0 (by omega)
      change FailsAs ((readArray (d.readFields below) _ _).map _) _
      rw [readArray, Cursor.takeBlock_block offset rest hshort]
      exact (hinner.map _).map _
  | .message hmessage, 0, offset, rest, hdepth => FailsAs.refuse (.tooDeep d.limit)
  | .message hmessage, below + 1, offset, rest, hdepth => by
      rw [Field.nesting, Value.nesting] at hdepth
      exact (SpellsMessage.too_deep hmessage below rest (by omega)).map _

/-- Fields are refused if one of them nests too deep, wherever it stands. -/
theorem SpellsFields.too_deep {octets truths : Bytes} {ds : List FieldDef} {fs : List Field} :
    SpellsFields d.registry octets ds fs truths → ∀ levels offset : Nat,
      levels < Field.deepest fs →
      FailsAs (readEach (d.readField (d.inner levels)) ds ⟨offset, octets⟩) .invalidStructure
  | .nil _, levels, offset, hdepth => absurd hdepth (Nat.not_lt_zero _)
  | .cons first rest hfirst hrest, levels, offset, hdepth => by
      rw [Field.deepest] at hdepth
      have hleft := hfirst.append_ne_nil rest
      rcases first_or_later hdepth with hfield | ⟨hfield, hothers⟩
      · exact readEach_fails hleft (SpellsField.too_deep hfirst levels offset rest hfield)
      · -- The field in front is read, so the fault is met further on.
        have hread := hfirst.read levels offset rest hfield
        have hfails := SpellsFields.too_deep hrest levels (offset + first.length) hothers
        rw [readEach_cons hleft hread]
        exact hfails.map _

/-- Elements are refused if one of them nests too deep, wherever it stands. -/
theorem SpellsElements.too_deep {octets truths : Bytes} {layout : List FieldDef}
    {es : List Element} :
    SpellsElements d.registry octets layout es truths → ∀ levels count offset : Nat,
      levels < Element.deepest es →
      FailsAs (readElements (d.readFields levels) layout count ⟨offset, octets⟩) .invalidStructure
  | .nil, levels, count, offset, hdepth => absurd hdepth (Nat.not_lt_zero _)
  | .cons index body rest hfields hshort hrest, levels, count, offset, hdepth => by
      rw [Element.deepest, Element.nesting] at hdepth
      rcases first_or_later hdepth with hfirst | ⟨hfirst, hothers⟩
      · have hfails := Decoder.readFields_fails (SpellsFields.too_deep hfields levels 0 hfirst)
        exact readElements_fails index count offset rest hshort hfails
      · have hbody := Decoder.readFields_of_readEach (hfields.read levels 0 hfirst)
        have hfails := SpellsElements.too_deep hrest levels (count + 1)
          (offset + 1 + (block body).length) hothers
        rw [readElements_cons (readElement_block index offset rest hshort hbody)]
        exact hfails.map _

/-- **What nests too deep is refused for that**, whatever stands behind it. -/
theorem SpellsMessage.too_deep {octets truths : Bytes} {m : Message} :
    SpellsMessage d.registry octets m truths → ∀ (levels : Nat) (rest : Bytes),
      levels < m.nesting →
      FailsAs (readFrame d.registry (d.readFields levels) (octets ++ rest)) .invalidStructure
  | .framed hlookup hfields hshort, levels, rest, hdepth => by
      rw [Message.nesting] at hdepth
      have hfails := Decoder.readFields_fails (SpellsFields.too_deep hfields levels 0 hdepth)
      exact readFrame_fails hlookup hshort hfails rest

end

end Refused

end SatWire
