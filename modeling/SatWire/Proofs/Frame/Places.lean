import SatWire.Proofs.Frame.Appending

/-!
# Values at any place

A value without fields is written behind whatever a buffer holds, and read from any place in a
buffer.  Both go through the spellings of the value: what is written is a spelling, and what is read
was spelled by the octets up to the next place.  So writing and reading undo each other wherever the
octets stand, but for truth values, of which only one spelling is written.

A text has more to it, for its octets have to be valid UTF-8.
-/

namespace SatWire

section Spellings

variable {octets truths : Bytes} {type : FieldType} {value : Value}

/-- What is written for a value that was read from some octets: a truth value other than zero becomes
one. -/
def FieldType.rewrite (type : FieldType) (octets : Bytes) : Bytes :=
  match type with
  | .bool => octets.map fun octet => if octet = 0 then 0 else 1
  | _ => octets

/-- **What was read is written again** in the same octets, but for truth values. -/
theorem SpellsScalar.encode_eq (hspells : SpellsScalar octets type value truths) :
    Scalar.encode type value = .ok (type.rewrite octets) := by
  have hencode := hspells.encode
  cases hspells with
  | bool octet =>
      by_cases hzero : octet = 0 <;> simp [Scalar.encode, FieldType.isComposite, FieldType.holds,
        FieldType.rewrite, hzero]
  | uint | int | enum | text | bytes =>
      obtain ⟨written, hwritten, -, hsame⟩ := hencode
      rw [hwritten, hsame.mpr .nil]
      rfl

/-- A value that was spelled passes its check. -/
theorem SpellsScalar.check (hspells : SpellsScalar octets type value truths) :
    type.check value = .ok () := by
  rw [FieldType.check_of_plain value hspells.not_composite, if_pos hspells.holds]

/-- A value that was spelled has a content that its length can tell. -/
theorem SpellsScalar.content_le (hspells : SpellsScalar octets type value truths) :
    value.content ≤ maxLength := by
  cases hspells with
  | text s hshort => exact hshort
  | bytes octets hshort => exact hshort
  | uint | int | bool | enum => exact Nat.zero_le _

end Spellings

/-- Values that can be written as a type: it has no fields, the value passes its check, and a text or
an octet string is short enough for its length to be told. -/
structure Writable (type : FieldType) (value : Value) : Prop where
  plain : type.isComposite = false
  fits : type.check value = .ok ()
  short : value.content ≤ maxLength

/-- **Writing succeeds** exactly for writable values. -/
theorem Scalar.exists_encode_iff (type : FieldType) (value : Value) :
    (∃ octets, Scalar.encode type value = .ok octets) ↔ Writable type value := by
  constructor
  · rintro ⟨octets, hwritten⟩
    obtain ⟨truths, hspells, -⟩ := spells_of_encode hwritten
    exact ⟨hspells.not_composite, hspells.check, hspells.content_le⟩
  · rintro ⟨hplain, hfits, hshort⟩
    have hholds : type.holds value = true := by
      by_contra hother
      rw [FieldType.check_of_plain value hplain, if_neg hother] at hfits
      exact refuse_ne_ok hfits
    have harray : ∀ es, value ≠ .array es := by
      rintro es rfl
      cases FieldType.akin_of_holds hholds
    have hmessage : ∀ m, value ≠ .message m := by
      rintro m rfl
      cases FieldType.akin_of_holds hholds
      cases hplain
    exact (Scalar.takes hfits harray hmessage).isOk_iff.mpr hshort

/-- The cursor at the end of a front has the rest before it. -/
theorem Cursor.ofOffset_append (before behind : Bytes) :
    Cursor.ofOffset (before ++ behind) before.length = ⟨before.length, behind⟩ := by
  rw [ofOffset, List.drop_left]

/-- What stands from a place on begins with what stands up to a later place. -/
theorem extract_of_drop_eq {buffer front behind : Bytes} {offset : Nat}
    (hdrop : buffer.drop offset = front ++ behind) :
    buffer.extract offset (offset + front.length) = front := by
  rw [List.extract_eq_take_drop, Nat.add_sub_cancel_left, hdrop, List.take_left]

/-- The octets of a value: they are appended to any buffer, and the value is read from them at any
place. -/
structure WrittenAs (type : FieldType) (value : Value) (octets : Bytes) : Prop where
  write : ∀ buffer, Scalar.write type value buffer = ⟨buffer ++ octets, .ok ()⟩
  read : ∀ before behind,
    Scalar.decode (.ofOffset (before ++ octets ++ behind) before.length) type
      = .ok (value, .ofOffset (before ++ octets ++ behind) (before.length + octets.length))

/-- An encoded value may be appended anywhere, and is read from there. -/
theorem writtenAs_of_encode {type : FieldType} {value : Value} {octets : Bytes}
    (hwritten : Scalar.encode type value = .ok octets) : WrittenAs type value octets := by
  obtain ⟨truths, hspells, -⟩ := spells_of_encode hwritten
  constructor
  · intro buffer
    rw [Scalar.write, hwritten, Written.append]
  · intro before behind
    have hnext := Cursor.ofOffset_append (before ++ octets) behind
    rw [List.length_append] at hnext
    rw [hnext, List.append_assoc, Cursor.ofOffset_append]
    exact hspells.decode before.length behind

/-- The octets that a value was read from: they lie within the buffer, between the place where
reading began and the next one, and they are what would be written, but for truth values. -/
structure ReadFrom (buffer : Bytes) (offset : Nat) (type : FieldType) (value : Value)
    (next : Cursor) : Prop where
  fits : type.check value = .ok ()
  lt : offset < next.offset
  le : next.offset ≤ buffer.length
  next_eq : next = .ofOffset buffer next.offset
  write : ∀ other, Scalar.write type value other
    = ⟨other ++ type.rewrite (buffer.extract offset next.offset), .ok ()⟩

/-- **A value that was read** lay within the buffer, ahead of the place, and is written as it lay.
-/
theorem readFrom_of_decode {buffer : Bytes} {offset : Nat} {type : FieldType} {value : Value}
    {next : Cursor} (hread : Scalar.decode (.ofOffset buffer offset) type = .ok (value, next)) :
    ReadFrom buffer offset type value next := by
  obtain ⟨octets, truths, hspells, hrest, hoffset⟩ := spells_of_decode hread
  have hdrop : buffer.drop offset = octets ++ next.rest := hrest
  have hnext : next.offset = offset + octets.length := hoffset
  have hpos := hspells.length_pos
  have hlength := congrArg List.length hdrop
  rw [List.length_drop, List.length_append] at hlength
  have hextract : buffer.extract offset next.offset = octets := by
    rw [hnext, extract_of_drop_eq hdrop]
  refine ⟨hspells.check, by omega, by omega, ?_, ?_⟩
  · have hbehind : buffer.drop next.offset = next.rest := by
      rw [hnext, ← List.drop_drop, hdrop, List.drop_left]
    rw [Cursor.ofOffset, hbehind]
  · intro other
    rw [Scalar.write, hspells.encode_eq, hextract, Written.append]

/-- A whole block is read as a text exactly if its octets are valid UTF-8. -/
structure ReadsText (octets : Bytes) (before behind : Bytes) : Prop where
  valid : octets.toByteArray.IsValidUTF8 → ∃ text, Utf8.encode text = octets
    ∧ Scalar.decode (.ofOffset (before ++ block octets ++ behind) before.length) .text
      = .ok (.text text,
        .ofOffset (before ++ block octets ++ behind) (before.length + (2 + octets.length)))
  invalid : ¬ octets.toByteArray.IsValidUTF8 →
    FailsAs (Scalar.decode (.ofOffset (before ++ block octets ++ behind) before.length) .text)
      .decodeFailed

/-- **Texts are valid UTF-8**, and nothing else is read as a text. -/
theorem readsText {octets : Bytes} (hshort : octets.length ≤ maxLength) (before behind : Bytes) :
    ReadsText octets before behind := by
  constructor
  · intro hvalid
    obtain ⟨text, hdecode⟩ := (Utf8.exists_decode_iff octets).mpr hvalid
    have hencode := Utf8.encode_of_decode hdecode
    have hspells : SpellsScalar (block octets) .text (.text text) [] := by
      rw [← hencode] at hshort ⊢
      exact .text text hshort
    have hwritten := writtenAs_of_encode hspells.encode_eq
    have hread := hwritten.read before behind
    have hsame : FieldType.rewrite .text (block octets) = block octets := rfl
    rw [hsame, length_block] at hread
    exact ⟨text, hencode, hread⟩
  · intro hinvalid
    rw [List.append_assoc, Cursor.ofOffset_append, Scalar.decode,
      Cursor.takeBlock_block before.length behind hshort]
    cases hdecode : Utf8.decode octets with
    | ok text => exact absurd ((Utf8.exists_decode_iff octets).mp ⟨text, hdecode⟩) hinvalid
    | error fault =>
        simp only [Except.bind, hdecode]
        exact .refuse _

/-- **Scalars at any place.**  Writing succeeds exactly for writable values, and appends octets that
depend on nothing else; the value is read from them wherever they stand.  Whatever is read passes its
check and was spelled within the buffer, by the octets that would be written, but for truth values.
A whole block is read as a text if its octets are valid UTF-8, and cannot be decoded if not. -/
theorem scalars_at_any_place (type : FieldType) (value : Value) :
    (∀ buffer, (Scalar.write type value buffer).outcome = .ok () ↔ Writable type value)
      ∧ (Writable type value → ∃ octets, WrittenAs type value octets)
      ∧ (∀ buffer offset next, Scalar.decode (.ofOffset buffer offset) type = .ok (value, next) →
        ReadFrom buffer offset type value next)
      ∧ ∀ octets before behind, octets.length ≤ maxLength → ReadsText octets before behind := by
  have hwritable := Scalar.exists_encode_iff type value
  refine ⟨?_, ?_, fun _ _ _ => readFrom_of_decode, ?_⟩
  · intro buffer
    rw [← hwritable, Scalar.write]
    cases Scalar.encode type value <;> simp [Written.append]
  · intro h
    obtain ⟨octets, hwritten⟩ := hwritable.mpr h
    exact ⟨octets, writtenAs_of_encode hwritten⟩
  · intro octets before behind hshort
    exact readsText hshort before behind

/-- A negative number is written behind one octet and read from there.  A truth value is read from a
seven and written as one.  A block with an overlong form is no text. -/
theorem scalars_at_any_place_mixed :
    Writable (.int .two) (.int (-2))
      ∧ (∃ octets, WrittenAs (.int .two) (.int (-2)) octets ∧ octets = [0xFF, 0xFE])
      ∧ ReadFrom [9, 7, 5] 1 .bool (.bool true) ⟨2, [5]⟩
      ∧ (Scalar.write .bool (.bool true) [4]).buffer = [4, 1]
      ∧ FailsAs (Scalar.decode (.ofOffset ([1] ++ block [0xC0, 0x80] ++ []) 1) .text)
        .decodeFailed := by
  obtain ⟨hnumber, hwrite, -, -⟩ := scalars_at_any_place (.int .two) (.int (-2))
  obtain ⟨-, -, hread, htext⟩ := scalars_at_any_place .bool (.bool true)
  have hwritable := (hnumber []).mp (by rfl)
  obtain ⟨octets, hoctets⟩ := hwrite hwritable
  have hbuffer : [0xFF, 0xFE] = octets := congrArg Written.buffer (hoctets.write [])
  have htruth := hread [9, 7, 5] 1 ⟨2, [5]⟩ (by rfl)
  have hinvalid : ¬ ([0xC0, 0x80] : Bytes).toByteArray.IsValidUTF8 := by
    rw [← Utf8.exists_decode_iff]
    rintro ⟨text, hdecode⟩
    exact nomatch hdecode
  exact ⟨hwritable, ⟨octets, hoctets, hbuffer.symm⟩, htruth,
    congrArg Written.buffer (htruth.write [4]), (htext _ [1] [] (by decide)).invalid hinvalid⟩

end SatWire
