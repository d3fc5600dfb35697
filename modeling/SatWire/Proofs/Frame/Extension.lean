import SatWire.Proofs.Frame.RoundTrip
import SatWire.Proofs.Schema.Extension

/-!
# Old messages under new schemas

When a registry grows, what was spelled in it is still spelled, octet for octet, and spells the same
message: at the end of a payload the definitions that came later are passed over, at every level of
nesting.  So a decoder with the later registry accepts whatever one with the earlier registry
accepted (`decodePrefix_of_extends`), and a message that could be written is written as before.
-/

namespace SatWire

variable {old new : Registry} {octets truths : Bytes}

/-- Octets that spell fields along a layout spell them along every longer one. -/
theorem SpellsFields.lengthened {r : Registry} {ds es : List FieldDef} {fs : List Field}
    (hspells : SpellsFields r octets ds fs truths) (hlonger : Lengthens ds es) :
    SpellsFields r octets es fs truths := by
  obtain ⟨added, rfl, hadded⟩ := hlonger
  induction fs generalizing octets truths ds with
  | nil =>
      cases hspells with
      | nil hoptional => exact .nil (List.forall_mem_append.mpr ⟨hoptional, hadded⟩)
  | cons f fs ih =>
      cases hspells with
      | cons first rest hfirst hrest => exact .cons first rest hfirst (ih hrest)

mutual

/-- What spells a field under a registry spells it under a larger one. -/
theorem SpellsField.extended (hextends : old.Extends new) {octets truths : Bytes}
    {type : FieldType} {f : Field} :
    SpellsField old octets type f truths → SpellsField new octets type f truths
  | .scalar hscalar => .scalar hscalar
  | .array helements hshort => .array (SpellsElements.extended hextends helements) hshort
  | .message hmessage => .message (SpellsMessage.extended hextends hmessage)

theorem SpellsFields.extended (hextends : old.Extends new) {octets truths : Bytes}
    {ds : List FieldDef} {fs : List Field} :
    SpellsFields old octets ds fs truths → SpellsFields new octets ds fs truths
  | .nil hoptional => .nil hoptional
  | .cons first rest hfirst hrest => .cons first rest (SpellsField.extended hextends hfirst)
      (SpellsFields.extended hextends hrest)

theorem SpellsElements.extended (hextends : old.Extends new) {octets truths : Bytes}
    {layout : List FieldDef} {es : List Element} :
    SpellsElements old octets layout es truths → SpellsElements new octets layout es truths
  | .nil => .nil
  | .cons index body rest hfields hshort hrest => .cons index body rest
      (SpellsFields.extended hextends hfields) hshort (SpellsElements.extended hextends hrest)

/-- **What is spelled stays spelled**, and spells the same message. -/
theorem SpellsMessage.extended (hextends : old.Extends new) {octets truths : Bytes} {m : Message} :
    SpellsMessage old octets m truths → SpellsMessage new octets m truths
  | .framed hlookup hfields hshort => by
      obtain ⟨later, hlater, hentry⟩ := hextends.lookup hlookup
      have hinside := SpellsFields.extended hextends hfields
      rw [← hentry.direction, ← hentry.name]
      exact .framed hlater (hinside.lengthened hentry.fields) hshort

end

/-- A frame that is read off the front of octets is read under every later registry. -/
theorem decodePrefix_of_extends (hextends : old.Extends new) {limit size : Nat} {m : Message}
    (hread : Decoder.decodePrefix ⟨old, limit⟩ octets = .ok (m, size)) :
    Decoder.decodePrefix ⟨new, limit⟩ octets = .ok (m, size) := by
  obtain ⟨frame, truths, rest, hspells, rfl, rfl, hdepth⟩ :=
    spells_of_readFrame (sound_readFields (d := ⟨old, limit⟩) limit) hread
  have hlater := hspells.extended hextends
  exact hlater.read (d := ⟨new, limit⟩) limit rest hdepth

/-- **Old messages under new schemas.**  A later registry keeps every entry of an earlier one, with
its key, its name, its direction and its definitions, and may add entries, and optional definitions
at the end of layouts.

Then a decoder that goes as deep as before makes of all octets that were accepted what was made of
them, of octets that are one frame as of octets with a frame in front.  A message that passed the
check passes it, under the entry that its own has become, and what writing it comes to, a frame or a
fault, has not changed. -/
theorem old_under_new (hextends : old.Extends new) :
    (∀ (limit : Nat) (octets : Bytes) (m : Message), Decoder.decode ⟨old, limit⟩ octets = .ok m →
      Decoder.decode ⟨new, limit⟩ octets = .ok m)
    ∧ (∀ (limit : Nat) (octets : Bytes) (m : Message) (size : Nat),
      Decoder.decodePrefix ⟨old, limit⟩ octets = .ok (m, size) →
        Decoder.decodePrefix ⟨new, limit⟩ octets = .ok (m, size))
    ∧ ∀ (m : Message) (entry : SchemaEntry), old.conform m = .ok entry →
      (∃ later, new.conform m = .ok later ∧ entry.Extends later)
        ∧ m.encodeChecked new = m.encodeChecked old := by
  refine ⟨?_, fun limit octets m size => decodePrefix_of_extends hextends, ?_⟩
  · intro limit octets m hdecode
    obtain ⟨⟨truths, hspells⟩, hdepth⟩ := decode_eq_ok_iff.mp hdecode
    exact decode_eq_ok_iff.mpr ⟨⟨truths, hspells.extended hextends⟩, hdepth⟩
  · intro m entry hconform
    obtain ⟨later, hlater, hentry⟩ := Registry.conform_of_extends hextends hconform
    refine ⟨⟨later, hlater, hentry⟩, ?_⟩
    rw [Message.encodeChecked, Message.encodeChecked, hconform, hlater]
    rfl

/-- Envelopes that may bear a note, beside stamps. -/
def notedEnvelopes : Registry where
  entries :=
    [{ envelopeEntry with fields := envelopeEntry.fields ++ [⟨"note", .text, true⟩] },
      { serviceId := 1, messageId := 2, name := "Stamp" }]
  ranked := List.pairwise_pair.mpr (by decide)

/-- An envelope in another, both from before the notes. -/
theorem old_under_new_envelopes :
    envelopes.Extends notedEnvelopes
      ∧ Decoder.decode ⟨notedEnvelopes, 1⟩ [1, 1, 0, 8, 184, 212, 1, 1, 1, 0, 1, 238, 249, 1]
        = .ok (envelope 1)
      ∧ (envelope 1).encodeChecked notedEnvelopes
        = .ok [1, 1, 0, 8, 184, 212, 1, 1, 1, 0, 1, 238, 249, 1] := by
  have hextends : envelopes.Extends notedEnvelopes := by
    intro entry hentry
    obtain rfl := List.mem_singleton.mp hentry
    refine ⟨_, List.mem_cons_self, rfl, rfl, rfl, rfl, [⟨"note", .text, true⟩], rfl, ?_⟩
    decide
  obtain ⟨hread, -, hwrite⟩ := old_under_new hextends
  have hdecode : Decoder.decode ⟨envelopes, 1⟩ [1, 1, 0, 8, 184, 212, 1, 1, 1, 0, 1, 238, 249, 1]
      = .ok (envelope 1) := by
    decide +kernel
  have hconform : envelopes.conform (envelope 1) = .ok envelopeEntry := by decide +kernel
  have hencode : (envelope 1).encodeChecked envelopes
      = .ok [1, 1, 0, 8, 184, 212, 1, 1, 1, 0, 1, 238, 249, 1] := by
    decide +kernel
  exact ⟨hextends, hread 1 _ _ hdecode, (hwrite _ _ hconform).2.trans hencode⟩

end SatWire
