import SatWire.Proofs.Schema.Conform
import SatWire.Proofs.Schema.Restore

/-!
# Messages without their marks

A message's marks are its category, its direction and its name; they never travel.  `unmarked` is a
message, or a part of one, with the same marks set everywhere inside, so that two of them are compared
by what travels: keys, types, values and indices, at every level.

* `unmarked_restore` — setting the marks of the entries changes nothing else;
* `conform_unmarked` — the check of a message does not look at marks.
-/

namespace SatWire

mutual

/-- The message without its marks, and every message inside it likewise. -/
def Message.unmarked : Message → Message
  | ⟨serviceId, messageId, _, _, fields, _⟩ =>
    ⟨serviceId, messageId, .data, false, Field.unmarkedEach fields, none⟩

/-- The value with no marks on its messages. -/
def Value.unmarked : Value → Value
  | .array elements => .array (Element.unmarkedEach elements)
  | .message inner => .message (Message.unmarked inner)
  | .uint n => .uint n
  | .int n => .int n
  | .bool b => .bool b
  | .text s => .text s
  | .bytes octets => .bytes octets
  | .enum n => .enum n

/-- The field with no marks on its messages. -/
def Field.unmarked : Field → Field
  | ⟨type, value⟩ => ⟨type, Value.unmarked value⟩

/-- The fields with no marks on their messages. -/
def Field.unmarkedEach : List Field → List Field
  | [] => []
  | f :: fs => Field.unmarked f :: Field.unmarkedEach fs

/-- The element with no marks on its messages. -/
def Element.unmarked : Element → Element
  | ⟨index, fields⟩ => ⟨index, Field.unmarkedEach fields⟩

/-- The elements with no marks on their messages. -/
def Element.unmarkedEach : List Element → List Element
  | [] => []
  | e :: es => Element.unmarked e :: Element.unmarkedEach es

end

namespace Registry

variable {r : Registry}

mutual

/-- **Restoring changes marks only.** -/
theorem unmarked_restore : ∀ m : Message, (r.restore m).unmarked = m.unmarked
  | ⟨serviceId, messageId, category, isForward, fields, name⟩ => by
      rw [restore]
      split <;> rw [Message.unmarked, Message.unmarked, unmarked_restoreEach fields]

/-- Restoring changes marks only: without them the value is the same. -/
theorem unmarked_restoreValue : ∀ value : Value, (restoreValue r value).unmarked = value.unmarked
  | .array elements => by
      rw [restoreValue, Value.unmarked, Value.unmarked, unmarked_restoreElements elements]
  | .message inner => by
      rw [restoreValue, Value.unmarked, Value.unmarked, unmarked_restore inner]
  | .uint _ | .int _ | .bool _ | .text _ | .bytes _ | .enum _ => by rw [restoreValue]

theorem unmarked_restoreEach : ∀ fs : List Field,
    Field.unmarkedEach (restoreEach r fs) = Field.unmarkedEach fs
  | [] => by rw [restoreEach]
  | ⟨type, value⟩ :: fs => by
      rw [restoreEach, restoreField, Field.unmarkedEach, Field.unmarkedEach, Field.unmarked,
        Field.unmarked, unmarked_restoreValue value, unmarked_restoreEach fs]

theorem unmarked_restoreElements : ∀ es : List Element,
    Element.unmarkedEach (restoreElements r es) = Element.unmarkedEach es
  | [] => by rw [restoreElements]
  | ⟨index, fields⟩ :: es => by
      rw [restoreElements, restoreElement, Element.unmarkedEach, Element.unmarkedEach,
        Element.unmarked, Element.unmarked, unmarked_restoreEach fields,
        unmarked_restoreElements es]

end

/-- Fields follow a layout by their types, which have no marks. -/
theorem follows_unmarkedEach {ds : List FieldDef} {fs : List Field} :
    Follows ds (Field.unmarkedEach fs) ↔ Follows ds fs := by
  induction fs generalizing ds with
  | nil => rw [Field.unmarkedEach]
  | cons f fs ih =>
      obtain ⟨type, value⟩ := f
      cases ds with
      | nil => rw [Field.unmarkedEach, Follows, Follows]
      | cons d ds => rw [Field.unmarkedEach, Field.unmarked, Follows, Follows, ih]

mutual

/-- **The check does not look at marks.**  A message conforms, under an entry, exactly if the message
without its marks does. -/
theorem conform_unmarked : ∀ (m : Message) {entry : SchemaEntry},
    r.conform m.unmarked = .ok entry ↔ r.conform m = .ok entry
  | ⟨serviceId, messageId, category, isForward, fields, name⟩, entry => by
      rw [Message.unmarked, conform_eq_ok_iff, conform_eq_ok_iff, follows_unmarkedEach,
        conformNested_unmarkedEach fields]

/-- Marks do not matter for fields to conform inside. -/
theorem conformNested_unmarkedEach : ∀ (fs : List Field) {ds : List FieldDef},
    conformNested r ds (Field.unmarkedEach fs) = .ok () ↔ conformNested r ds fs = .ok ()
  | [], ds => by rw [Field.unmarkedEach]
  | f :: fs, [] => by simp [conformNested]
  | ⟨type, value⟩ :: fs, d :: ds => by
      rw [Field.unmarkedEach, Field.unmarked, conformNested_cons_eq_ok_iff,
        conformNested_cons_eq_ok_iff, conformNestedValue_unmarked value,
        conformNested_unmarkedEach fs]

theorem conformNestedValue_unmarked : ∀ (value : Value) {type : FieldType},
    conformNestedValue r type value.unmarked = .ok () ↔ conformNestedValue r type value = .ok ()
  | .message inner, type => by
      rw [Value.unmarked, conformNestedValue_message_eq_ok_iff,
        conformNestedValue_message_eq_ok_iff]
      exact exists_congr fun entry => conform_unmarked inner
  | .array elements, type => by
      rw [Value.unmarked]
      cases type with
      | array layout =>
          rw [conformNestedValue, conformNestedValue]
          exact conformNestedElements_unmarkedEach elements
      | uint | int | bool | text | bytes | enum | message => simp [conformNestedValue]
  | .uint _, _ | .int _, _ | .bool _, _ | .text _, _ | .bytes _, _ | .enum _, _ => by
      rw [Value.unmarked]

theorem conformNestedElements_unmarkedEach : ∀ (es : List Element) {layout : List FieldDef},
    conformNestedElements r layout (Element.unmarkedEach es) = .ok ()
      ↔ conformNestedElements r layout es = .ok ()
  | [], layout => by rw [Element.unmarkedEach]
  | ⟨index, fields⟩ :: es, layout => by
      rw [Element.unmarkedEach, Element.unmarked, conformNestedElements_cons_eq_ok_iff,
        conformNestedElements_cons_eq_ok_iff, follows_unmarkedEach,
        conformNested_unmarkedEach fields, conformNestedElements_unmarkedEach es]

end

end Registry

end SatWire
