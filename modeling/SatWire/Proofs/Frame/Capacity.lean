import SatWire.Proofs.Frame.Size
import SatWire.Proofs.Frame.Writing

/-!
# What has room in a frame

Texts, octet strings, arrays, elements and whole payloads stand behind lengths of sixteen bits, one
inside the other, and each of them may be too long for its own.  A piece is never shorter than what is
inside it, though.  So of all these bounds the outermost decides: if the payload of a message is counted
and found to fit, everything inside it fits, and if it is too long some bound is met on the way, which
one does not matter, since they all fail for the size.

`Takes` says this of one piece of writing: it comes to its end with as many octets as were counted, or
fails for its size, and which of the two is told by a condition on numbers alone.  The lemmas follow
the recursion of the writers, `Value.takes` to `Message.takes`.
-/

namespace SatWire

/-- How many octets the length in front of a value has to tell.  Values that need no length count as
none. -/
def Value.content : Value → Nat
  | .array elements => Element.totalSize elements
  | .message inner => inner.payloadSize
  | .text s => (Utf8.encode s).length
  | .bytes octets => octets.length
  | .uint _ | .int _ | .bool _ | .enum _ => 0

/-- A value takes up what its length tells, at least. -/
theorem Value.content_le_size (type : FieldType) (value : Value) :
    value.content ≤ value.size type := by
  cases value with
  | array | message | text | bytes => exact Nat.le_add_left _ _
  | uint | int | bool | enum => exact Nat.zero_le _

/-- No field is larger than all fields together. -/
theorem Field.size_le_totalSize {f : Field} {fs : List Field} (hmem : f ∈ fs) :
    f.size ≤ Field.totalSize fs := by
  induction hmem with
  | head => exact Nat.le_add_right _ _
  | tail _ _ ih => exact Nat.le_trans ih (Nat.le_add_left _ _)

/-- No element is larger than all elements together. -/
theorem Element.size_le_totalSize {e : Element} {es : List Element} (hmem : e ∈ es) :
    e.size ≤ Element.totalSize es := by
  induction hmem with
  | head => exact Nat.le_add_right _ _
  | tail _ _ ih => exact Nat.le_trans ih (Nat.le_add_left _ _)

/-- Fields that fit as a whole fit one by one. -/
theorem Field.content_le {fs : List Field} (hwhole : Field.totalSize fs ≤ maxLength) :
    ∀ f ∈ fs, f.value.content ≤ maxLength := by
  rintro ⟨type, value⟩ hmem
  have hsize := Field.size_le_totalSize hmem
  have hcontent := value.content_le_size type
  rw [Field.size] at hsize
  exact Nat.le_trans hcontent (Nat.le_trans hsize hwhole)

/-- Elements that fit as a whole fit one by one. -/
theorem Element.fields_le {es : List Element} (hwhole : Element.totalSize es ≤ maxLength) :
    ∀ e ∈ es, Field.totalSize e.fields ≤ maxLength := by
  rintro ⟨index, fields⟩ hmem
  have hsize := Element.size_le_totalSize hmem
  rw [Element.size] at hsize
  dsimp only
  omega

/-- Writing takes so many octets, if there is room for them, and else fails for the size. -/
inductive Takes (r : Except ParseError Bytes) (size : Nat) (room : Prop) : Prop
  | whole (octets : Bytes) (hroom : room) (hwritten : r = .ok octets) (hlength : octets.length = size)
  | tooLong (hroom : ¬ room) (hfails : FailsAs r .invalidSize)

namespace Takes

variable {r others : Except ParseError Bytes} {size size' : Nat} {room room' : Prop}

/-- Writing succeeds exactly where there is room. -/
theorem isOk_iff (h : Takes r size room) : (∃ octets, r = .ok octets) ↔ room := by
  cases h with
  | whole octets hroom hwritten hlength => exact iff_of_true ⟨octets, hwritten⟩ hroom
  | tooLong hroom hfails =>
      refine iff_of_false ?_ hroom
      rintro ⟨octets, hwritten⟩
      exact hfails.ne_ok octets hwritten

/-- What is written is as long as was counted. -/
theorem length_eq {octets : Bytes} (h : Takes r size room) (hwritten : r = .ok octets) :
    octets.length = size := by
  cases h with
  | whole found hroom hfound hlength =>
      obtain rfl := Except.ok.inj (hfound.symm.trans hwritten)
      exact hlength
  | tooLong hroom hfails => exact absurd hwritten (hfails.ne_ok octets)

/-- Where there is no room, the fault is the size. -/
theorem fails (h : Takes r size room) (hnot : ¬ room) : FailsAs r .invalidSize := by
  cases h with
  | whole octets hroom hwritten hlength => exact absurd hroom hnot
  | tooLong hroom hfails => exact hfails

/-- The place told around a fault changes no count. -/
theorem located (scope : Scope) (h : Takes r size room) :
    Takes (SatWire.located scope r) size room := by
  cases h with
  | whole octets hroom hwritten hlength =>
      exact .whole octets hroom (located_eq_ok_iff.mpr hwritten) hlength
  | tooLong hroom hfails => exact .tooLong hroom (hfails.located scope)

/-- The condition may be said in other words. -/
theorem congr (h : Takes r size room) (hsame : room ↔ room') : Takes r size room' :=
  propext hsame ▸ h

/-- An octet in front needs no length. -/
theorem cons (octet : UInt8) (h : Takes r size room) : Takes (r.map (octet :: ·)) (size + 1) room := by
  cases h with
  | whole octets hroom hwritten hlength =>
      refine .whole (octet :: octets) hroom ?_ ?_
      · rw [hwritten]
        rfl
      · rw [List.length_cons, hlength]
  | tooLong hroom hfails => exact .tooLong hroom (hfails.map _)

/-- **What is wrapped up** needs no more room inside than as a whole. -/
theorem bind {wrap : Bytes → Except ParseError Bytes} (h : Takes r size room)
    (hinside : room' → room)
    (hwrap : ∀ body : Bytes, body.length = size → Takes (wrap body) size' room') :
    Takes (r.bind wrap) size' room' := by
  cases h with
  | whole octets hroom hwritten hlength =>
      rw [hwritten]
      exact hwrap octets hlength
  | tooLong hroom hfails => exact .tooLong (mt hinside hroom) (hfails.bind _)

/-- **One piece behind the other** needs the room of both. -/
theorem append (h : Takes r size room) (h' : Takes others size' room') :
    Takes (r.bind fun first => others.map (first ++ ·)) (size + size') (room ∧ room') := by
  cases h with
  | tooLong hroom hfails => exact .tooLong (fun hboth => hroom hboth.1) (hfails.bind _)
  | whole octets hroom hwritten hlength =>
      cases h' with
      | tooLong hroom' hfails' =>
          rw [hwritten]
          exact .tooLong (fun hboth => hroom' hboth.2) (hfails'.map _)
      | whole octets' hroom' hwritten' hlength' =>
          refine .whole (octets ++ octets') ⟨hroom, hroom'⟩ ?_ ?_
          · rw [hwritten, hwritten']
            rfl
          · rw [List.length_append, hlength, hlength']

end Takes

/-- Octets behind their length. -/
theorem takes_encodeBlock (part : Part) (body : Bytes) :
    Takes (encodeBlock part body) (2 + body.length) (body.length ≤ maxLength) := by
  by_cases hshort : body.length ≤ maxLength
  · exact .whole (block body) hshort (encodeBlock_eq_ok_iff.mpr ⟨hshort, rfl⟩) (length_block body)
  · unfold encodeBlock
    rw [if_neg hshort]
    exact .tooLong hshort (.refuse _)

/-- A payload in its frame. -/
theorem Header.takes_assemble (serviceId messageId : UInt8) (payload : Bytes) :
    Takes (Header.assemble serviceId messageId payload) (headerSize + payload.length)
      (payload.length ≤ maxLength) := by
  by_cases hfits : payload.length ≤ maxLength
  · exact .whole _ hfits (Header.assemble_eq_ok_iff.mpr ⟨hfits, rfl⟩) Header.length_framed
  · refine .tooLong hfits ?_
    unfold Header.assemble Header.ofPayload
    rw [if_neg hfits]
    exact (FailsAs.refuse _).map _

/-- The first field is encoded, and then those behind it. -/
theorem Field.encodeEach_cons_eq_bind {position : Nat} {f : Field} {fs : List Field} :
    Field.encodeEach position (f :: fs)
      = (located (.fieldAfter position) f.encode).bind fun first =>
          (Field.encodeEach (position + 1) fs).map (first ++ ·) := by
  rw [Field.encodeEach]
  cases located (.fieldAfter position) f.encode <;> rfl

/-- The first element is encoded, and then those behind it. -/
theorem Element.encodeEach_cons_eq_bind {e : Element} {es : List Element} :
    Element.encodeEach (e :: es)
      = (located (.element e.index) e.encode).bind fun first =>
          (Element.encodeEach es).map (first ++ ·) := by
  rw [Element.encodeEach]
  cases located (.element e.index) e.encode <;> rfl

/-- A message is a frame put together around its encoded fields. -/
theorem Message.encode_eq_bind {m : Message} :
    m.encode = (located (.messageKey m.serviceId m.messageId) (Field.encodeEach 0 m.fields)).bind
      (Header.assemble m.serviceId m.messageId) := by
  obtain ⟨serviceId, messageId, category, isForward, fields, name⟩ := m
  rw [Message.encode]
  cases located (.messageKey serviceId messageId) (Field.encodeEach 0 fields) <;> rfl

/-- A type and a value of one family, arrays left out. -/
inductive Akin : FieldType → Value → Prop
  | uint (width : Width) (n : UInt64) : Akin (.uint width) (.uint n)
  | int (width : Width) (n : Int64) : Akin (.int width) (.int n)
  | bool (b : Bool) : Akin .bool (.bool b)
  | text (s : String) : Akin .text (.text s)
  | bytes (octets : Bytes) : Akin .bytes (.bytes octets)
  | enum (n : UInt8) : Akin .enum (.enum n)
  | message (inner : Message) : Akin .message (.message inner)

/-- A type holds values of its own family only. -/
theorem FieldType.akin_of_holds {type : FieldType} {value : Value}
    (hholds : type.holds value = true) : Akin type value := by
  unfold FieldType.holds at hholds
  split at hholds
  · exact .uint _ _
  · exact .int _ _
  · exact .bool _
  · exact .text _
  · exact .bytes _
  · exact .enum _
  · exact .message _
  · cases hholds

/-- A value that is no array passes the check of a type that holds it. -/
theorem FieldType.holds_of_check {type : FieldType} {value : Value}
    (hcheck : type.check value = .ok ()) (hplain : ∀ es, value ≠ .array es) :
    type.holds value = true := by
  unfold FieldType.check at hcheck
  split at hcheck
  · exact absurd rfl (hplain _)
  · split at hcheck
    · assumption
    · exact absurd hcheck refuse_ne_ok

/-- A value without fields takes the octets of its type, or of its content behind a length. -/
theorem Scalar.takes {type : FieldType} {value : Value} (hcheck : type.check value = .ok ())
    (harray : ∀ es, value ≠ .array es) (hmessage : ∀ m, value ≠ .message m) :
    Takes (Scalar.encode type value) (value.size type) (value.content ≤ maxLength) := by
  have hholds := FieldType.holds_of_check hcheck harray
  have hnone : 0 ≤ maxLength := Nat.zero_le _
  cases FieldType.akin_of_holds hholds with
  | uint width n =>
      refine .whole (BigEndian.ofNat width.octets n.toNat) hnone ?_ (BigEndian.length_ofNat _ _)
      simp [Scalar.encode, FieldType.isComposite, hholds]
  | int width n =>
      refine .whole (BigEndian.ofInt width.octets n.toInt) hnone ?_ (BigEndian.length_ofNat _ _)
      simp [Scalar.encode, FieldType.isComposite, hholds]
  | bool b => exact .whole [if b then 1 else 0] hnone rfl rfl
  | enum n => exact .whole [n] hnone rfl rfl
  | text s => exact takes_encodeBlock .text (Utf8.encode s)
  | bytes octets => exact takes_encodeBlock .bytes octets
  | message inner => exact absurd rfl (hmessage inner)

mutual

/-- A value takes up its size, to any depth, if a length can tell its content. -/
theorem Value.takes : ∀ (value : Value) {type : FieldType}, type.check value = .ok () →
    value.WellTyped → Takes (Value.encode type value) (value.size type) (value.content ≤ maxLength)
  | .array es, type, hcheck, htyped => by
      rw [Value.WellTyped] at htyped
      rw [Value.encode, Value.size, Value.content]
      refine (Element.takesEach es htyped).bind Element.fields_le fun body hlength => ?_
      rw [← hlength]
      exact takes_encodeBlock .array body
  | .message inner, type, hcheck, htyped => by
      rw [Value.WellTyped] at htyped
      rw [Value.encode, Value.size, Value.content]
      exact Message.takes inner htyped
  | .uint _, _, hcheck, _ | .int _, _, hcheck, _ | .bool _, _, hcheck, _ | .text _, _, hcheck, _
  | .bytes _, _, hcheck, _ | .enum _, _, hcheck, _ => by
      rw [Value.encode]
      exact Scalar.takes hcheck nofun nofun

/-- Fields have room if the content of each has. -/
theorem Field.takesEach : ∀ (fs : List Field) (position : Nat), Field.AllWellTyped fs →
    Takes (Field.encodeEach position fs) (Field.totalSize fs)
      (∀ f ∈ fs, f.value.content ≤ maxLength)
  | [], position, _ => by
      rw [Field.encodeEach, Field.totalSize]
      exact .whole [] (fun _ hmem => absurd hmem List.not_mem_nil) rfl rfl
  | ⟨type, value⟩ :: fs, position, htyped => by
      rw [Field.AllWellTyped, Field.WellTyped] at htyped
      obtain ⟨⟨hcheck, hvalue⟩, hothers⟩ := htyped
      have hfirst := Value.takes value hcheck hvalue
      have hrest := Field.takesEach fs (position + 1) hothers
      rw [Field.encodeEach_cons_eq_bind, Field.totalSize, Field.encode, Field.size]
      exact ((hfirst.located _).append hrest).congr (by rw [List.forall_mem_cons])

/-- Elements have room if the fields of each have. -/
theorem Element.takesEach : ∀ (es : List Element), Element.AllWellTyped es →
    Takes (Element.encodeEach es) (Element.totalSize es)
      (∀ e ∈ es, Field.totalSize e.fields ≤ maxLength)
  | [], _ => by
      rw [Element.encodeEach, Element.totalSize]
      exact .whole [] (fun _ hmem => absurd hmem List.not_mem_nil) rfl rfl
  | ⟨index, fields⟩ :: es, htyped => by
      rw [Element.AllWellTyped, Element.WellTyped] at htyped
      have hfields := Field.takesEach fields 0 htyped.1
      have hfirst : Takes (Element.encode ⟨index, fields⟩) (2 + Field.totalSize fields + 1)
          (Field.totalSize fields ≤ maxLength) := by
        rw [Element.encode]
        refine hfields.bind Field.content_le fun body hlength => ?_
        rw [← hlength]
        exact (takes_encodeBlock .element body).cons index
      have hrest := Element.takesEach es htyped.2
      rw [Element.encodeEach_cons_eq_bind, Element.totalSize, Element.size, Nat.add_comm 3]
      rw [Nat.add_comm 2] at hfirst
      exact ((hfirst.located _).append hrest).congr (by rw [List.forall_mem_cons])

/-- **A message has room if its payload has.** -/
theorem Message.takes : ∀ (m : Message), m.WellTyped →
    Takes m.encode (headerSize + m.payloadSize) (m.payloadSize ≤ maxLength)
  | ⟨serviceId, messageId, category, isForward, fields, name⟩, htyped => by
      rw [Message.WellTyped] at htyped
      have hfields := Field.takesEach fields 0 htyped
      rw [Message.encode_eq_bind, Message.payloadSize]
      refine (hfields.located _).bind Field.content_le fun payload hlength => ?_
      rw [← hlength]
      exact Header.takes_assemble serviceId messageId payload

end

/-- **A message is written exactly if its payload fits.**  Count the octets of the payload without a
bound.  If they are no more than sixteen bits can tell, the message is written, in as many octets and
those of the header, and its frame announces just as many; if they are more, the message is refused for
its size, whichever of its pieces is the first that does not fit. -/
theorem fits_or_fails {m : Message} (htyped : m.WellTyped) :
    ((∃ frame, m.encode = .ok frame) ↔ m.payloadSize ≤ 65535)
      ∧ (∀ frame, m.encode = .ok frame →
          frame.length = 6 + m.payloadSize ∧ Header.declared frame = m.payloadSize)
      ∧ (65535 < m.payloadSize → FailsAs m.encode .invalidSize) := by
  have htakes := m.takes htyped
  refine ⟨htakes.isOk_iff, ?_, fun hlong => htakes.fails (Nat.not_le.mpr hlong)⟩
  intro frame hframe
  have hlength : frame.length = headerSize + m.payloadSize := htakes.length_eq hframe
  obtain ⟨payload, -, hshort, rfl⟩ := Message.encode_eq_ok_iff.mp hframe
  have hwhole : (Header.framed m.serviceId m.messageId payload).length = _ :=
    Header.length_framed_eq hshort
  rw [hlength] at hwhole
  exact ⟨hlength, (Nat.add_left_cancel hwhole).symm⟩

/-- So many octets in a message, which is the only field of an element of an array. -/
def parcel (count : Nat) : Message :=
  let inner : Message := ⟨1, 2, .data, false, [.bytes (List.replicate count 0)], none⟩
  let layout : List FieldDef := [⟨"content", .message, false⟩]
  ⟨1, 1, .data, false, [⟨.array layout, .array [⟨0, [.message inner]⟩]⟩], none⟩

/-- However many the octets, the parcel is well typed to its innermost field. -/
theorem wellTyped_parcel (count : Nat) : (parcel count).WellTyped := by
  simp [parcel, Message.WellTyped, Field.AllWellTyped, Field.WellTyped, Value.WellTyped,
    Element.AllWellTyped, Element.WellTyped, Field.message, Field.bytes, FieldType.check,
    FieldType.holds, conformElements, conformFields, conformEach]

/-- Four lengths are told around the octets of a parcel, and a header and an index. -/
theorem payloadSize_parcel (count : Nat) : (parcel count).payloadSize = 13 + count := by
  simp only [parcel, Message.payloadSize, Field.totalSize, Field.size, Value.size, Field.message,
    Field.bytes, Element.totalSize, Element.size, headerSize, List.length_replicate]
  omega

/-- The largest parcel that fits, and one with an octet more, in which every inner piece would still
fit: only the whole is too long. -/
theorem fits_or_fails_parcels :
    (∃ frame, (parcel 65522).encode = .ok frame ∧ frame.length = 65541
        ∧ Header.declared frame = 65535)
      ∧ FailsAs (parcel 65523).encode .invalidSize := by
  obtain ⟨hfits, hlength, -⟩ := fits_or_fails (wellTyped_parcel 65522)
  obtain ⟨-, -, hfails⟩ := fits_or_fails (wellTyped_parcel 65523)
  rw [payloadSize_parcel] at hfits hlength hfails
  obtain ⟨frame, hframe⟩ := hfits.mpr (by decide)
  obtain ⟨hwhole, hannounced⟩ := hlength frame hframe
  exact ⟨⟨frame, hframe, hwhole, hannounced⟩, hfails (by decide)⟩

end SatWire
