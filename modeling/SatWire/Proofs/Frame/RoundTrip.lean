import SatWire.Proofs.Frame.Sound
import SatWire.Proofs.Frame.Writing

/-!
# There and back

What a checked writer writes and what a decoder accepts, put together.

A message that was written comes back with the marks of its entry if the decoder may go as deep as
the message nests, and is refused for its structure otherwise.  So the check alone promises no
decoder a message: it follows the schema, and a schema that lets a message hold its own kind bounds
no nesting.  What was accepted, from whatever source, can be written again; the only freedom that
the format leaves is the octet of a truth value.

The messages used as samples are envelopes: a seal, and another envelope if there is one.
-/

namespace SatWire

/-- The entry of an envelope: a truth value, and a message that may be missing. -/
def envelopeEntry : SchemaEntry :=
  ⟨1, 1, "Envelope", .forward, [⟨"sealed", .bool, false⟩, ⟨"inner", .message, true⟩]⟩

/-- The registry that knows envelopes only. -/
def envelopes : Registry where
  entries := [envelopeEntry]
  ranked := List.pairwise_singleton _ _

/-- A sealed envelope around so many others. -/
def envelope : Nat → Message
  | 0 => ⟨1, 1, .data, true, [.bool true], some "Envelope"⟩
  | count + 1 =>
    ⟨1, 1, .data, true, [.bool true, .message (envelope count)], some "Envelope"⟩

/-- So many envelopes nest so many levels. -/
theorem nesting_envelope (count : Nat) : (envelope count).nesting = count := by
  induction count with
  | zero => rfl
  | succ count ih =>
      simp [envelope, Message.nesting, Field.deepest, Field.nesting, Field.bool, Field.message,
        Value.nesting, ih, Nat.add_comm]

/-- Envelopes are well typed, however many there are. -/
theorem wellTyped_envelope (count : Nat) : (envelope count).WellTyped := by
  induction count with
  | zero => exact ⟨⟨rfl, trivial⟩, trivial⟩
  | succ count ih => exact ⟨⟨rfl, trivial⟩, ⟨rfl, ih⟩, trivial⟩

/-- A sealed envelope is spelled in seven octets more than the one inside it. -/
theorem spells_envelope (count : Nat) (hsmall : 7 * count < maxLength) :
    ∃ frame truths, SpellsMessage envelopes frame (envelope count) truths
      ∧ frame.length = 7 * count + 7 := by
  have hlookup : envelopes.lookup 1 1 = .ok envelopeEntry := rfl
  have hseal : SpellsField envelopes [1] .bool (.bool true) [1] := .scalar (.bool 1)
  induction count with
  | zero =>
      have hfields : SpellsFields envelopes ([1] ++ []) envelopeEntry.fields [.bool true]
          ([1] ++ []) := .cons [1] [] hseal (.nil (by simp))
      exact ⟨_, _, .framed hlookup hfields (by decide), Header.length_framed⟩
  | succ count ih =>
      obtain ⟨frame, truths, hspells, hlength⟩ := ih (by omega)
      have hfields : SpellsFields envelopes ([1] ++ (frame ++ [])) envelopeEntry.fields
          [.bool true, .message (envelope count)] ([1] ++ (truths ++ [])) :=
        .cons [1] _ hseal (.cons frame [] (.message hspells) (.nil (by simp)))
      have hsize : ([1] ++ (frame ++ []) : Bytes).length = 7 * count + 8 := by
        rw [List.append_nil, List.length_append, hlength, List.length_singleton]
        omega
      refine ⟨_, _, .framed hlookup hfields (by omega), ?_⟩
      rw [Header.length_framed, hsize]
      omega

/-- Envelopes in envelopes pass the check and are written, however many there are, as long as the
frame has room for them. -/
theorem envelope_encodes (count : Nat) (hsmall : 7 * count < maxLength) :
    ∃ frame, (envelope count).encodeChecked envelopes = .ok frame := by
  obtain ⟨frame, truths, hspells, -⟩ := spells_envelope count hsmall
  obtain ⟨written, hencode, -⟩ := hspells.encode
  exact ⟨written, Message.encodeChecked_eq_ok_iff.mpr ⟨hspells.conforms, hencode⟩⟩

variable {r : Registry} {m : Message}

/-- Whatever limit a decoder has, what it makes of a written message is that message restored. -/
theorem eq_restore_of_decode {limit : Nat} {frame : Bytes} {found : Message} (htyped : m.WellTyped)
    (hencode : m.encodeChecked r = .ok frame)
    (hdecode : Decoder.decode ⟨r, limit⟩ frame = .ok found) : found = r.restore m := by
  obtain ⟨truths, hspells, -⟩ := spells_of_encodeChecked htyped hencode
  by_cases hdepth : (r.restore m).nesting ≤ limit
  · have hread := (decode_eq_ok_iff (d := ⟨r, limit⟩)).mpr ⟨⟨truths, hspells⟩, hdepth⟩
    rw [hread, Except.ok.injEq] at hdecode
    exact hdecode.symm
  · have hrefused := decode_too_deep (d := ⟨r, limit⟩) hspells (Nat.lt_of_not_le hdepth)
    exact absurd hdecode (hrefused.ne_ok found)

/-- **Writing, then reading.**  A well-typed message that passes the check and is written comes back
with the marks of its entry, at every level, if it nests no deeper than the decoder's limit.  If it
nests deeper it is refused, and for its structure. -/
theorem decode_encodeChecked (limit : Nat) {frame : Bytes} (htyped : m.WellTyped)
    (hencode : m.encodeChecked r = .ok frame) :
    (m.nesting ≤ limit → Decoder.decode ⟨r, limit⟩ frame = .ok (r.restore m))
      ∧ (limit < m.nesting → FailsAs (Decoder.decode ⟨r, limit⟩ frame) .invalidStructure) := by
  obtain ⟨truths, hspells, -⟩ := spells_of_encodeChecked htyped hencode
  rw [← Registry.nesting_restore (r := r) m]
  exact ⟨fun hdepth => decode_eq_ok_iff.mpr ⟨⟨truths, hspells⟩, hdepth⟩,
    fun hdepth => decode_too_deep hspells hdepth⟩

/-- An envelope in another that bears other marks, read by a decoder that allows one level and by one
that allows none. -/
theorem decode_encodeChecked_envelope :
    ∃ m frame, m.WellTyped ∧ m.encodeChecked envelopes = .ok frame ∧ m ≠ envelope 1
      ∧ Decoder.decode ⟨envelopes, 1⟩ frame = .ok (envelope 1)
      ∧ FailsAs (Decoder.decode ⟨envelopes, 0⟩ frame) .invalidStructure := by
  let m : Message := ⟨1, 1, .nack, false, [.bool true, .message (envelope 0)], none⟩
  have htyped : m.WellTyped := wellTyped_envelope 1
  have hdepth : m.nesting = 1 := nesting_envelope 1
  have hencode : m.encodeChecked envelopes
      = .ok [1, 1, 0, 8, 184, 212, 1, 1, 1, 0, 1, 238, 249, 1] := by decide +kernel
  have hrestored : envelopes.restore m = envelope 1 := by decide +kernel
  have hread := (decode_encodeChecked 1 htyped hencode).1 (Nat.le_of_eq hdepth)
  rw [hrestored] at hread
  exact ⟨m, _, htyped, hencode, by decide +kernel, hread,
    (decode_encodeChecked 0 htyped hencode).2 (hdepth ▸ Nat.one_pos)⟩

/-- **What can be read of what was written.**  For the decoder as it comes, with its limit of eight
levels, the messages that are written readably are exactly those that nest no deeper; deeper ones
are refused for their structure. -/
theorem decodable_iff_nesting {frame : Bytes} (htyped : m.WellTyped)
    (hencode : m.encodeChecked r = .ok frame) :
    ((∃ found, Decoder.decode { registry := r } frame = .ok found) ↔ m.nesting ≤ 8)
      ∧ (8 < m.nesting → FailsAs (Decoder.decode { registry := r } frame) .invalidStructure) := by
  obtain ⟨truths, hspells, -⟩ := spells_of_encodeChecked htyped hencode
  rw [← Registry.nesting_restore (r := r) m]
  have hrefused : 8 < (r.restore m).nesting →
      FailsAs (Decoder.decode { registry := r } frame) .invalidStructure :=
    fun hdeep => decode_too_deep (d := { registry := r }) hspells hdeep
  refine ⟨⟨?_, fun hdepth => ⟨_, decode_eq_ok_iff.mpr ⟨⟨truths, hspells⟩, hdepth⟩⟩⟩, hrefused⟩
  rintro ⟨found, hfound⟩
  by_contra hdeep
  exact (hrefused (Nat.lt_of_not_le hdeep)).ne_ok found hfound

/-- Eight envelopes around a ninth can be read. -/
theorem decodable_iff_nesting_envelope :
    ∃ frame, (envelope 8).encodeChecked envelopes = .ok frame
      ∧ ∃ found, Decoder.decode { registry := envelopes } frame = .ok found := by
  obtain ⟨frame, hencode⟩ := envelope_encodes 8 (by decide)
  have hread := (decodable_iff_nesting (wellTyped_envelope 8) hencode).1
  exact ⟨frame, hencode, hread.mpr (Nat.le_of_eq (nesting_envelope 8))⟩

/-- **The check does not bound the nesting.**  Nine envelopes around a tenth pass the check and are
written, and the decoder as it comes does not read them. -/
theorem not_always_decodable :
    ¬ ∀ (r : Registry) (m : Message) (frame : Bytes), m.WellTyped →
      m.encodeChecked r = .ok frame →
      ∃ found, Decoder.decode { registry := r } frame = .ok found := by
  intro hclaim
  obtain ⟨frame, hencode⟩ := envelope_encodes 9 (by decide)
  obtain ⟨found, hfound⟩ := hclaim envelopes (envelope 9) frame (wellTyped_envelope 9) hencode
  obtain ⟨truths, hspells, -⟩ := spells_of_encodeChecked (wellTyped_envelope 9) hencode
  have hdeep : 8 < (envelopes.restore (envelope 9)).nesting := by
    rw [Registry.nesting_restore, nesting_envelope]
    decide
  exact (decode_too_deep (d := { registry := envelopes }) hspells hdeep).ne_ok found hfound

/-- **Reading, then writing.**  Whatever a decoder accepts passes the check and is written again, in
as many octets, which are read as the same message.  They are the same octets exactly if each octet
that was read as a truth value is the one that is written for it, zero or one. -/
theorem encodeChecked_decode {limit : Nat} {octets : Bytes}
    (hdecode : Decoder.decode ⟨r, limit⟩ octets = .ok m) :
    ∃ written, m.encodeChecked r = .ok written ∧ written.length = octets.length
      ∧ Decoder.decode ⟨r, limit⟩ written = .ok m
      ∧ (∃ truths, SpellsMessage r octets m truths)
      ∧ ∀ truths, SpellsMessage r octets m truths → (written = octets ↔ Canonical truths) := by
  obtain ⟨⟨truths, hspells⟩, hdepth⟩ := decode_eq_ok_iff.mp hdecode
  obtain ⟨written, hencode, hlength, -⟩ := hspells.encode
  have hchecked : m.encodeChecked r = .ok written :=
    Message.encodeChecked_eq_ok_iff.mpr ⟨hspells.conforms, hencode⟩
  obtain ⟨others, hrewritten, -⟩ := spells_of_encodeChecked hspells.wellTyped hchecked
  rw [hspells.restored] at hrewritten
  refine ⟨written, hchecked, hlength, decode_eq_ok_iff.mpr ⟨⟨others, hrewritten⟩, hdepth⟩,
    ⟨truths, hspells⟩, ?_⟩
  -- Each derivation has a rewriting of its own, but there is one outcome of writing.
  intro t ht
  obtain ⟨same, hsame, -, hcanonical⟩ := ht.encode
  rw [hencode, Except.ok.injEq] at hsame
  rw [hsame, hcanonical]

/-- A seal of two is read as a truth value, and written again as one. -/
theorem encodeChecked_decode_envelope :
    Decoder.decode ⟨envelopes, 0⟩ [1, 1, 0, 1, 222, 154, 2] = .ok (envelope 0)
      ∧ ∃ written, (envelope 0).encodeChecked envelopes = .ok written ∧ written.length = 7
        ∧ Decoder.decode ⟨envelopes, 0⟩ written = .ok (envelope 0)
        ∧ written = [1, 1, 0, 1, 238, 249, 1] := by
  have hdecode : Decoder.decode ⟨envelopes, 0⟩ [1, 1, 0, 1, 222, 154, 2] = .ok (envelope 0) := by
    decide +kernel
  have hseal : (envelope 0).encodeChecked envelopes = .ok [1, 1, 0, 1, 238, 249, 1] := by
    decide +kernel
  obtain ⟨written, hencode, hlength, hagain, -⟩ := encodeChecked_decode hdecode
  exact ⟨hdecode, written, hencode, hlength, hagain, Except.ok.inj (hencode.symm.trans hseal)⟩

end SatWire
