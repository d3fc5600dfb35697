import SatWire.Proofs.Frame.Header
import SatWire.Proofs.Frame.Scalar
import SatWire.Schema.Registry

/-!
# How messages are spelled

The format as a grammar, in four kinds of phrase: a field of a type, fields along a layout, elements
to the end of a block, and a message as its frame.  Nothing here reads or writes, and nothing bounds
the nesting: a reader accepts what is spelled as deep as it may go, and a writer produces one
spelling of each message that it accepts.

The last argument of each relation collects the octets that were read as truth values, in the order
they stand in; nothing else of a spelling is free.

* `SpellsField.append_ne_nil` — a field is never spelled by nothing, so that the end of a payload
  tells that no field is left;
* `SpellsMessage.of_framed` — what a frame of a given key and payload spells.
-/

namespace SatWire

mutual

/-- Octets spell a field that is declared with a type. -/
inductive SpellsField (r : Registry) : Bytes → FieldType → Field → Bytes → Prop
  | scalar {octets truths : Bytes} {type : FieldType} {value : Value}
      (hscalar : SpellsScalar octets type value truths) :
      SpellsField r octets type ⟨type, value⟩ truths
  | array {body truths : Bytes} {layout : List FieldDef} {elements : List Element}
      (helements : SpellsElements r body layout elements truths)
      (hshort : body.length ≤ maxLength) :
      SpellsField r (block body) (.array layout) ⟨.array layout, .array elements⟩ truths
  | message {octets truths : Bytes} {inner : Message}
      (hmessage : SpellsMessage r octets inner truths) :
      SpellsField r octets .message ⟨.message, .message inner⟩ truths

/-- Octets spell fields along a layout.  Where they end, only optional definitions are left. -/
inductive SpellsFields (r : Registry) : Bytes → List FieldDef → List Field → Bytes → Prop
  | nil {ds : List FieldDef} (hoptional : ∀ d ∈ ds, d.optional = true) :
      SpellsFields r [] ds [] []
  | cons {t u : Bytes} {d : FieldDef} {ds : List FieldDef} {f : Field} {fs : List Field}
      (first rest : Bytes) (hfirst : SpellsField r first d.type f t)
      (hrest : SpellsFields r rest ds fs u) :
      SpellsFields r (first ++ rest) (d :: ds) (f :: fs) (t ++ u)

/-- Octets spell elements of a layout, one behind the other: an index, then a block of fields. -/
inductive SpellsElements (r : Registry) : Bytes → List FieldDef → List Element → Bytes → Prop
  | nil {layout : List FieldDef} : SpellsElements r [] layout [] []
  | cons {t u : Bytes} {layout : List FieldDef} {fs : List Field} {es : List Element}
      (index : UInt8) (body rest : Bytes) (hfields : SpellsFields r body layout fs t)
      (hshort : body.length ≤ maxLength) (hrest : SpellsElements r rest layout es u) :
      SpellsElements r (index :: (block body ++ rest)) layout (⟨index, fs⟩ :: es) (t ++ u)

/-- Octets spell a message: they are the frame of a payload that spells fields along the entry. -/
inductive SpellsMessage (r : Registry) : Bytes → Message → Bytes → Prop
  | framed {payload truths : Bytes} {serviceId messageId : UInt8} {entry : SchemaEntry}
      {fs : List Field} (hlookup : r.lookup serviceId messageId = .ok entry)
      (hfields : SpellsFields r payload entry.fields fs truths)
      (hshort : payload.length ≤ maxLength) :
      SpellsMessage r (Header.framed serviceId messageId payload)
        ⟨serviceId, messageId, .data, decide (entry.direction = .forward), fs, some entry.name⟩
        truths

end

variable {r : Registry}

/-- A field is never spelled by nothing, so there is something left wherever one is spelled. -/
theorem SpellsField.append_ne_nil {octets truths : Bytes} {type : FieldType} {f : Field}
    (h : SpellsField r octets type f truths) (rest : Bytes) : octets ++ rest ≠ [] := by
  have hpos : 0 < octets.length := by
    cases h with
    | scalar hscalar => exact hscalar.length_pos
    | array helements hshort =>
        rw [length_block]
        omega
    | message hmessage =>
        cases hmessage with
        | framed hlookup hfields hshort =>
            rw [Header.length_framed]
            omega
  exact List.append_ne_nil_of_left_ne_nil (List.length_pos_iff.mp hpos) rest

/-- What a frame spells has the frame's key, and its fields are spelled by the frame's payload. -/
theorem SpellsMessage.of_framed {serviceId messageId : UInt8} {payload truths : Bytes} {m : Message}
    (h : SpellsMessage r (Header.framed serviceId messageId payload) m truths) :
    ∃ entry, r.lookup serviceId messageId = .ok entry
      ∧ SpellsFields r payload entry.fields m.fields truths
      ∧ m = ⟨serviceId, messageId, .data, decide (entry.direction = .forward), m.fields,
          some entry.name⟩ := by
  generalize hframe : Header.framed serviceId messageId payload = octets at h
  cases h with
  | framed hlookup hfields hshort =>
      obtain ⟨rfl, rfl⟩ := Header.key_of_framed_eq hframe
      obtain rfl := Header.framed_inj.mp hframe
      exact ⟨_, hlookup, hfields, rfl⟩

end SatWire
