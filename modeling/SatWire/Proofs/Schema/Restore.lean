import SatWire.Schema.Conform

/-!
# Messages as they come back

The wire carries a message's key and its fields, and none of its marks.  Who reads it sets the marks
anew: the category is data, the direction and the name are those of the schema entry, at every level
of nesting.  `Registry.restore` is the message so marked, and `nesting` counts the levels that a
reader must be allowed for it.

The marks have no part in the nesting (`nesting_restore`).
-/

namespace SatWire

mutual

/-- How many levels of arrays and messages the value is, its own included. -/
def Value.nesting : Value → Nat
  | .array elements => 1 + Element.deepest elements
  | .message inner => 1 + Message.nesting inner
  | _ => 0

/-- The nesting of the field's value. -/
def Field.nesting : Field → Nat
  | ⟨_, value⟩ => Value.nesting value

/-- The nesting of the deepest field. -/
def Field.deepest : List Field → Nat
  | [] => 0
  | f :: fs => max (Field.nesting f) (Field.deepest fs)

/-- The nesting of the element's deepest field. -/
def Element.nesting : Element → Nat
  | ⟨_, fields⟩ => Field.deepest fields

/-- The nesting of the deepest element. -/
def Element.deepest : List Element → Nat
  | [] => 0
  | e :: es => max (Element.nesting e) (Element.deepest es)

/-- The nesting of the message's deepest field. -/
def Message.nesting : Message → Nat
  | ⟨_, _, _, _, fields, _⟩ => Field.deepest fields

end

namespace Registry

mutual

/-- The message with the marks of its schema entry, and every message inside it likewise.  A message
without an entry keeps its marks. -/
def restore (r : Registry) : Message → Message
  | ⟨serviceId, messageId, category, isForward, fields, name⟩ =>
    match r.lookup serviceId messageId with
    | .ok entry =>
      ⟨serviceId, messageId, .data, decide (entry.direction = .forward), restoreEach r fields,
        some entry.name⟩
    | .error _ => ⟨serviceId, messageId, category, isForward, restoreEach r fields, name⟩

/-- The value with its messages restored. -/
def restoreValue (r : Registry) : Value → Value
  | .array elements => .array (restoreElements r elements)
  | .message inner => .message (restore r inner)
  | .uint n => .uint n
  | .int n => .int n
  | .bool b => .bool b
  | .text s => .text s
  | .bytes octets => .bytes octets
  | .enum n => .enum n

/-- The field with its messages restored. -/
def restoreField (r : Registry) : Field → Field
  | ⟨type, value⟩ => ⟨type, restoreValue r value⟩

/-- The fields with their messages restored. -/
def restoreEach (r : Registry) : List Field → List Field
  | [] => []
  | f :: fs => restoreField r f :: restoreEach r fs

/-- The element with its messages restored. -/
def restoreElement (r : Registry) : Element → Element
  | ⟨index, fields⟩ => ⟨index, restoreEach r fields⟩

/-- The elements with their messages restored. -/
def restoreElements (r : Registry) : List Element → List Element
  | [] => []
  | e :: es => restoreElement r e :: restoreElements r es

end

variable {r : Registry}

/-- A message with an entry takes its marks from there. -/
theorem restore_of_lookup {m : Message} {entry : SchemaEntry}
    (hlookup : r.lookup m.serviceId m.messageId = .ok entry) :
    r.restore m = ⟨m.serviceId, m.messageId, .data, decide (entry.direction = .forward),
      restoreEach r m.fields, some entry.name⟩ := by
  obtain ⟨serviceId, messageId, category, isForward, fields, name⟩ := m
  simp only at hlookup
  rw [restore, hlookup]

mutual

/-- **Restoring leaves the nesting as it is.** -/
theorem nesting_restore : ∀ m : Message, (r.restore m).nesting = m.nesting
  | ⟨serviceId, messageId, category, isForward, fields, name⟩ => by
      rw [restore]
      split <;> rw [Message.nesting, Message.nesting, deepest_restoreEach fields]

/-- Restoring a value keeps its depth. -/
theorem nesting_restoreValue : ∀ value : Value, (restoreValue r value).nesting = value.nesting
  | .array elements => by
      rw [restoreValue, Value.nesting, Value.nesting, deepest_restoreElements elements]
  | .message inner => by
      rw [restoreValue, Value.nesting, Value.nesting, nesting_restore inner]
  | .uint _ | .int _ | .bool _ | .text _ | .bytes _ | .enum _ => by rw [restoreValue]

theorem nesting_restoreField : ∀ f : Field, (restoreField r f).nesting = f.nesting
  | ⟨type, value⟩ => by
      rw [restoreField, Field.nesting, Field.nesting, nesting_restoreValue value]

theorem deepest_restoreEach : ∀ fs : List Field,
    Field.deepest (restoreEach r fs) = Field.deepest fs
  | [] => by rw [restoreEach]
  | f :: fs => by
      rw [restoreEach, Field.deepest, Field.deepest, nesting_restoreField f, deepest_restoreEach fs]

theorem nesting_restoreElement : ∀ e : Element, (restoreElement r e).nesting = e.nesting
  | ⟨index, fields⟩ => by
      rw [restoreElement, Element.nesting, Element.nesting, deepest_restoreEach fields]

theorem deepest_restoreElements : ∀ es : List Element,
    Element.deepest (restoreElements r es) = Element.deepest es
  | [] => by rw [restoreElements]
  | e :: es => by
      rw [restoreElements, Element.deepest, Element.deepest, nesting_restoreElement e,
        deepest_restoreElements es]

end

end Registry

end SatWire
