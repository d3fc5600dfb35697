import SatWire.Proofs.Frame.RoundTrip
import SatWire.Proofs.Schema.Marks

/-!
# What the check keeps off the wire

A message may be written without a check, and what is written may even be read: values of different
types can be spelled alike, and two array layouts may differ in nothing but a name.  But what is read
conforms, and the check does not look at marks; so if the message that comes back has the fields that
were sent, marks aside, these had conformed already (`conforms_of_survives`).  The check therefore
rejects nothing that would have come through.
-/

namespace SatWire

/-- Without marks, messages are the same if their keys and their fields are. -/
theorem Message.unmarked_eq_iff {a b : Message} :
    a.unmarked = b.unmarked ↔ a.serviceId = b.serviceId ∧ a.messageId = b.messageId
      ∧ Field.unmarkedEach a.fields = Field.unmarkedEach b.fields := by
  obtain ⟨serviceId, messageId, category, isForward, fields, name⟩ := a
  obtain ⟨serviceId', messageId', category', isForward', fields', name'⟩ := b
  simp [Message.unmarked]

variable {r : Registry} {m found : Message} {limit : Nat} {frame : Bytes}

/-- What is read from a message's frame has the message's key. -/
theorem key_of_decode_encode (hencode : m.encode = .ok frame)
    (hdecode : Decoder.decode ⟨r, limit⟩ frame = .ok found) :
    found.serviceId = m.serviceId ∧ found.messageId = m.messageId := by
  obtain ⟨payload, -, -, rfl⟩ := Message.encode_eq_ok_iff.mp hencode
  obtain ⟨⟨truths, hspells⟩, -⟩ := decode_eq_ok_iff.mp hdecode
  obtain ⟨entry, -, -, hmarks⟩ := hspells.of_framed
  rw [hmarks]
  exact ⟨rfl, rfl⟩

/-- **What survives had conformed.**  A message whose fields come back from the wire, marks aside,
conforms. -/
theorem conforms_of_survives (hencode : m.encode = .ok frame)
    (hdecode : Decoder.decode ⟨r, limit⟩ frame = .ok found)
    (hsame : Field.unmarkedEach found.fields = Field.unmarkedEach m.fields) :
    ∃ entry, r.conform m = .ok entry := by
  obtain ⟨⟨truths, hspells⟩, -⟩ := decode_eq_ok_iff.mp hdecode
  obtain ⟨entry, hfound⟩ := hspells.conforms
  obtain ⟨hservice, hmessage⟩ := key_of_decode_encode hencode hdecode
  have hunmarked : found.unmarked = m.unmarked :=
    Message.unmarked_eq_iff.mpr ⟨hservice, hmessage, hsame⟩
  refine ⟨entry, (Registry.conform_unmarked m).mp ?_⟩
  rw [← hunmarked]
  exact (Registry.conform_unmarked found).mpr hfound

/-- **The check rejects only what would be lost.**  A message that can be written but does not conform
is not read, or comes back with other fields, even if the marks of all messages inside are left out of
the comparison.  A message that does conform comes back with its own fields, if a decoder may go as
deep as it nests. -/
theorem only_lost_rejected (htyped : m.WellTyped) (hencode : m.encode = .ok frame) :
    ((∃ fault, r.conform m = .error fault) →
      (∃ fault, Decoder.decode ⟨r, limit⟩ frame = .error fault)
        ∨ ∃ found, Decoder.decode ⟨r, limit⟩ frame = .ok found
          ∧ Field.unmarkedEach found.fields ≠ Field.unmarkedEach m.fields)
      ∧ ((∃ entry, r.conform m = .ok entry) → m.nesting ≤ limit →
        ∃ found, Decoder.decode ⟨r, limit⟩ frame = .ok found
          ∧ Field.unmarkedEach found.fields = Field.unmarkedEach m.fields) := by
  constructor
  · rintro ⟨fault, hrejected⟩
    cases hdecode : Decoder.decode ⟨r, limit⟩ frame with
    | error fault => exact .inl ⟨fault, rfl⟩
    | ok found =>
        refine .inr ⟨found, rfl, fun hsame => ?_⟩
        obtain ⟨entry, hconforms⟩ := conforms_of_survives hencode hdecode hsame
        rw [hrejected] at hconforms
        cases hconforms
  · intro hconforms hdepth
    have hchecked := Message.encodeChecked_eq_ok_iff.mpr ⟨hconforms, hencode⟩
    have hrestored := Message.unmarked_eq_iff.mp (Registry.unmarked_restore (r := r) m)
    obtain ⟨truths, hspells, -⟩ := spells_of_encodeChecked htyped hchecked
    refine ⟨_, decode_eq_ok_iff.mpr ⟨⟨truths, hspells⟩, ?_⟩, hrestored.2.2⟩
    rw [Registry.nesting_restore]
    exact hdepth

/-- An envelope with a number for the inner seal is read, but with a truth value there; one that is
sealed in both places comes back as it was. -/
theorem only_lost_rejected_envelopes :
    ∃ (m : Message) (frame : Bytes), m.WellTyped ∧ m.encode = .ok frame
      ∧ Decoder.decode ⟨envelopes, 1⟩ frame = .ok (envelope 1)
      ∧ Field.unmarkedEach (envelope 1).fields ≠ Field.unmarkedEach m.fields
      ∧ ∃ frame found, (envelope 1).encode = .ok frame
        ∧ Decoder.decode ⟨envelopes, 1⟩ frame = .ok found
        ∧ Field.unmarkedEach found.fields = Field.unmarkedEach (envelope 1).fields := by
  let numbered : Message := ⟨1, 1, .ack, false, [⟨.uint .one, .uint 2⟩], none⟩
  let m : Message := ⟨1, 1, .nack, false, [.bool true, .message numbered], none⟩
  let fault : ParseError := ⟨[.message "Envelope", .field "inner", .message "Envelope"],
    .otherType "sealed" .bool (.uint .one)⟩
  have htyped : m.WellTyped := ⟨⟨rfl, trivial⟩, ⟨rfl, ⟨rfl, trivial⟩, trivial⟩, trivial⟩
  have hencode : m.encode = .ok [1, 1, 0, 8, 19, 107, 1, 1, 1, 0, 1, 222, 154, 2] := by
    decide +kernel
  have hrejected : envelopes.conform m = .error fault := by decide +kernel
  have hread : Decoder.decode ⟨envelopes, 1⟩ [1, 1, 0, 8, 19, 107, 1, 1, 1, 0, 1, 222, 154, 2]
      = .ok (envelope 1) := by
    decide +kernel
  have hsealed : (envelope 1).encode
      = .ok [1, 1, 0, 8, 184, 212, 1, 1, 1, 0, 1, 238, 249, 1] := by
    decide +kernel
  have hconforms : envelopes.conform (envelope 1) = .ok envelopeEntry := by decide +kernel
  have hlost : (∃ fault, Decoder.decode ⟨envelopes, 1⟩ _ = .error fault) ∨ _ :=
    (only_lost_rejected htyped hencode).1 ⟨fault, hrejected⟩
  have hkept : ∃ found, Decoder.decode ⟨envelopes, 1⟩ _ = .ok found ∧ _ :=
    (only_lost_rejected (wellTyped_envelope 1) hsealed).2 ⟨_, hconforms⟩
      (Nat.le_of_eq (nesting_envelope 1))
  obtain ⟨found, hfound, hsame⟩ := hkept
  rcases hlost with ⟨other, hother⟩ | ⟨other, hother, hdiffers⟩
  · rw [hread] at hother
    cases hother
  · rw [hread, Except.ok.injEq] at hother
    subst hother
    exact ⟨m, _, htyped, hencode, hread, hdiffers, _, found, hsealed, hfound, hsame⟩

end SatWire
