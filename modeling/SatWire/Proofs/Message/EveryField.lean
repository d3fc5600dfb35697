import SatWire.Proofs.Form.Accepted
import SatWire.Proofs.Frame.RoundTrip

/-!
# Every field fits its type

A value is checked against its type where a field is put together from parts, and nowhere else: the
decoder and the constructors of the single types trust what they have at hand.  They may, since what
a decoder returns was spelled along a layout, and a number of a width is in the range of that width.
-/

namespace SatWire

/-- The value is read from a form, or from a text that holds one. -/
def Reader.Accepts {α : Type} (read : Reader α) (a : α) : Prop :=
  (∃ j, read j = .ok a) ∨ ∃ text, Reader.parse read text = .ok a

/-- What holds of all that a reader gives holds of what it accepts. -/
theorem Reader.Gives.of_accepts {α : Type} {read : Reader α} {P : α → Prop} {a : α}
    (h : Reader.Gives read P) (haccepts : Reader.Accepts read a) : P a := by
  obtain ⟨j, hread⟩ | ⟨text, hparse⟩ := haccepts
  · exact h j a hread
  · unfold Reader.parse Reader.document at hparse
    split at hparse
    · cases hparse
    · rename_i b hread
      split at hparse
      · cases hparse
        exact h _ _ hread
      · cases hparse

/-- The message is returned for octets, as a whole or from the front of them. -/
def Decoder.Returns (d : Decoder) (octets : Bytes) (m : Message) : Prop :=
  d.decode octets = .ok m ∨ ∃ size, d.decodePrefix octets = .ok (m, size)

/-- Every field of a message that a decoder returns fits its type. -/
theorem Decoder.Returns.allFit {d : Decoder} {octets : Bytes} {m : Message}
    (h : d.Returns octets m) : Field.AllFit m.fields := by
  have hspelled : ∃ frame truths, SpellsMessage d.registry frame m truths := by
    obtain hdecode | ⟨size, hprefix⟩ := h
    · obtain ⟨⟨truths, hspells⟩, -⟩ := decode_eq_ok_iff.mp hdecode
      exact ⟨octets, truths, hspells⟩
    · obtain ⟨frame, truths, rest, hspells, -⟩ :=
        spells_of_readFrame (sound_readFields d.limit) hprefix
      exact ⟨frame, truths, hspells⟩
  obtain ⟨frame, truths, hspells⟩ := hspelled
  exact m.wellTyped_iff.mp hspells.wellTyped

/-- The fields that come about: out of octets, out of forms, and out of fields that came about. -/
inductive Field.Made : Field → Prop
  | ofOctets {d : Decoder} {octets : Bytes} {m : Message} {f : Field}
      (hreturns : d.Returns octets m) (hmem : f ∈ m.fields) : Field.Made f
  | ofMessage {m : Message} {f : Field} (haccepts : Reader.Accepts Message.ofJson m)
      (hmem : f ∈ m.fields) : Field.Made f
  | ofElement {e : Element} {f : Field} (haccepts : Reader.Accepts Element.ofJson e)
      (hmem : f ∈ e.fields) : Field.Made f
  | ofForm {f : Field} (haccepts : Reader.Accepts Field.ofJson f) : Field.Made f
  | ofValue {type : FieldType} {value : Value} {f : Field}
      (hparts : ∀ g ∈ value.parts, Field.Made g) (hmake : Field.ofValue type value = .ok f) :
      Field.Made f
  | single {f : Field} (hsingle : f.Single) : Field.Made f
  | message {m : Message} (hparts : ∀ g ∈ m.fields, Field.Made g) : Field.Made (.message m)
  /-- A part of a field, taken out of it. -/
  | part {f g : Field} (hmade : Field.Made g) (hmem : f ∈ g.value.parts) : Field.Made f

/-- Every field that the constructors make fits its type, with all that is inside it. -/
theorem Field.Made.allFit {f : Field} (h : f.Made) : Field.AllFit [f] := by
  induction h with
  | ofOctets hreturns hmem => exact hreturns.allFit.of_mem hmem
  | ofMessage haccepts hmem =>
      have hfields := Message.ofJson_gives.of_accepts haccepts
      exact hfields.of_mem hmem
  | ofElement haccepts hmem =>
      have hfields := Element.ofJson_gives.of_accepts haccepts
      exact hfields.of_mem hmem
  | ofForm haccepts => exact Field.ofJson_gives.of_accepts haccepts
  | ofValue hparts hmake ih => exact Field.allFit_of_ofValue (Field.allFit_of_forall ih) hmake
  | single hsingle => exact hsingle.allFit
  | message hparts ih => exact Field.allFit_message (Field.allFit_of_forall ih)
  | part hmade hmem ih => exact (Field.allFit_singleton.mp ih).2.of_mem hmem

/-- **Every field fits its type**, and so does every field inside it, to any depth: in a message
that any decoder returns, in what any form is accepted as, in a checked field of parts that fit, in
the fields that are made without a check, and in whatever these ways make of each other's fields. -/
theorem every_field_fits :
    (∀ (d : Decoder) (octets : Bytes) (m : Message), d.Returns octets m → Field.AllFit m.fields)
    ∧ (∀ m, Reader.Accepts Message.ofJson m → Field.AllFit m.fields)
    ∧ (∀ f, Reader.Accepts Field.ofJson f → Field.AllFit [f])
    ∧ (∀ e, Reader.Accepts Element.ofJson e → Field.AllFit e.fields)
    ∧ (∀ type value f, Field.AllFit value.parts → Field.ofValue type value = .ok f →
      Field.AllFit [f])
    ∧ (∀ layout es f, (∀ e ∈ es, Field.AllFit e.fields) → Field.ofElements layout es = .ok f →
      Field.AllFit [f])
    ∧ (∀ f, Field.Single f → Field.AllFit [f])
    ∧ (∀ m, Field.AllFit m.fields → Field.AllFit [.message m])
    ∧ ∀ f, Field.Made f → Field.AllFit [f] := by
  refine ⟨?_, ?_, ?_, ?_, ?_, ?_, ?_, ?_, ?_⟩
  · exact fun d octets m hreturns => hreturns.allFit
  · exact fun m haccepts => Message.ofJson_gives.of_accepts haccepts
  · exact fun f haccepts => Field.ofJson_gives.of_accepts haccepts
  · exact fun e haccepts => Element.ofJson_gives.of_accepts haccepts
  · exact fun type value f => Field.allFit_of_ofValue
  · intro layout es f hparts hmake
    have hvalue : Field.AllFit (Value.array es).parts := Field.allFit_flatMap_iff.mpr hparts
    exact Field.allFit_of_ofValue hvalue hmake
  · exact fun f hsingle => hsingle.allFit
  · exact fun m => Field.allFit_message
  · exact fun f hmade => hmade.allFit

/-- An envelope that was read, a number that a form gives, and an array of such numbers. -/
theorem every_field_fits_samples :
    let octets : Bytes := [1, 1, 0, 8, 184, 212, 1, 1, 1, 0, 1, 238, 249, 1]
    let form : Json := .obj [("field_type", .str "uint8"), ("value", .obj [("uint", .int 255)])]
    let layout : List FieldDef := [⟨"count", .uint .one, false⟩]
    let elements : List Element := [⟨0, [.uint8 255]⟩, ⟨1, [.uint8 7]⟩]
    Decoder.decode ⟨envelopes, 1⟩ octets = .ok (envelope 1)
      ∧ Field.AllFit (envelope 1).fields
      ∧ Field.ofJson form = .ok (.uint8 255)
      ∧ Field.AllFit [.uint8 255]
      ∧ Field.ofElements layout elements = .ok ⟨.array layout, .array elements⟩
      ∧ Field.AllFit [⟨.array layout, .array elements⟩] := by
  intro octets form layout elements
  obtain ⟨hdecoder, -, hform, -, -, helements, hsingle, -⟩ := every_field_fits
  have hdecode : Decoder.decode ⟨envelopes, 1⟩ octets = .ok (envelope 1) := by decide +kernel
  have hread : Field.ofJson form = .ok (.uint8 255) := by decide +kernel
  have hmake : Field.ofElements layout elements = .ok ⟨.array layout, .array elements⟩ := by
    decide +kernel
  have hparts : ∀ e ∈ elements, Field.AllFit e.fields := by
    intro e hmem
    obtain rfl | hsecond := List.mem_cons.mp hmem
    · exact hsingle _ (.uint8 255)
    · obtain rfl := List.mem_singleton.mp hsecond
      exact hsingle _ (.uint8 7)
  exact ⟨hdecode, hdecoder _ octets _ (.inl hdecode), hread, hform _ (.inl ⟨form, hread⟩), hmake,
    helements layout elements _ hparts hmake⟩

end SatWire
