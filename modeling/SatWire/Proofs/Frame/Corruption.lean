import SatWire.Proofs.Frame.RoundTrip
import SatWire.Proofs.Octets.Checksum

/-!
# What becomes of corrupted frames

A frame has an even number of bits set, since its checksum has the parity of everything else in it
(`Header.parity_framed`).  So a change in an odd number of bits that leaves the announced length alone
is noticed by the checksum, however long the frame is and whether or not the checksum itself is hit.

A change to the announced length moves the stretch that the checksum is taken of, and the checksum
may then happen to fit.  It is noticed all the same: a frame that announces more than is there fails
for its size, and a frame that announces less leaves octets behind, which a decoder of single frames
does not pass over (`length_of_decode`).
-/

namespace SatWire

open Header (declared lengthOctets front framed framed_eq)

/-- **A frame has an even number of bits set.** -/
theorem Header.parity_framed (serviceId messageId : UInt8) (payload : Bytes) :
    parity (bits (framed serviceId messageId payload)) = false := by
  have hmoved := Checksum.parity_withChecksum (front serviceId messageId payload ++ payload)
  simp only [Checksum.withChecksum, bits_append, parity_append] at hmoved
  rw [framed_eq, bits_append, bits_append, parity_append, parity_append, Bool.xor_assoc,
    Bool.xor_comm (parity (bits (BigEndian.ofNat _ _))), ← Bool.xor_assoc, hmoved]

variable {d : Decoder} {octets other : Bytes} {m : Message}

/-- What a decoder accepts is one whole frame. -/
theorem framed_of_decode (hdecode : d.decode octets = .ok m) :
    ∃ serviceId messageId payload, payload.length ≤ maxLength
      ∧ octets = framed serviceId messageId payload := by
  obtain ⟨⟨truths, hspells⟩, -⟩ := decode_eq_ok_iff.mp hdecode
  cases hspells with
  | framed hlookup hfields hshort => exact ⟨_, _, _, hshort, rfl⟩

/-- What a decoder accepts is as long as it announces. -/
theorem length_of_decode (hdecode : d.decode octets = .ok m) :
    octets.length = headerSize + declared octets := by
  obtain ⟨serviceId, messageId, payload, hshort, rfl⟩ := framed_of_decode hdecode
  exact Header.length_framed_eq hshort

/-- A decoder fails where the header does, in the same way. -/
theorem decode_fails {kind : ParseError.Kind} (hfails : FailsAs (Header.parse octets) kind) :
    FailsAs (d.decode octets) kind := by
  obtain ⟨fault, hfault, hkind⟩ := hfails
  refine ⟨fault, ?_, hkind⟩
  unfold Decoder.decode Decoder.decodePrefix readFrame
  rw [hfault]

/-- Octets that are as long as they announce are one frame, or fail for their checksum. -/
theorem framed_or_fails (hlength : octets.length = headerSize + declared octets) :
    (∃ serviceId messageId payload, payload.length ≤ maxLength
        ∧ octets = framed serviceId messageId payload)
      ∨ FailsAs (Header.parse octets) .invalidChecksum := by
  rcases Header.parse_whole (Nat.le_of_eq hlength.symm) with ⟨h, payload, rest, hparse⟩ | hfails
  · obtain ⟨hshort, -, hframe⟩ := Header.framed_of_parse hparse
    have hsize := congrArg List.length hframe
    rw [hlength, hframe, Header.declared_framed hshort, List.length_append,
      Header.length_framed, headerSize] at hsize
    have hnone : rest = [] := List.length_eq_zero_iff.mp (by omega)
    rw [hnone, List.append_nil] at hframe
    exact .inl ⟨_, _, payload, hshort, hframe⟩
  · exact .inr hfails

/-- A header fails for its checksum in front of octets that it is not the checksum of. -/
theorem parse_mismatch {h : Header} {payload : Bytes}
    (hlength : payload.length = h.payloadLength.toNat)
    (hwrong : frameChecksum h.serviceId h.messageId h.payloadLength payload ≠ h.checksum) :
    FailsAs (Header.parse (h.toBytes ++ payload)) .invalidChecksum := by
  have hwhole : (h.toBytes ++ payload).length = headerSize + declared (h.toBytes ++ payload) := by
    rw [Header.declared_toBytes, List.length_append, h.length_toBytes, hlength]
  rcases framed_or_fails hwhole with ⟨serviceId, messageId, framedPayload, -, hframe⟩ | hfails
  · obtain ⟨rfl, rfl⟩ := Header.toBytes_append_inj.mp hframe
    simp only [Header.ofFitting, ne_eq, not_true_eq_false] at hwrong
  · exact hfails

/-- **Parity decides.**  An octet string as long as it announces, with an odd number of bits set, fails
for its checksum. -/
theorem parse_odd (hlength : octets.length = headerSize + declared octets)
    (hodd : parity (bits octets) = true) : FailsAs (Header.parse octets) .invalidChecksum := by
  rcases framed_or_fails hlength with ⟨serviceId, messageId, payload, -, rfl⟩ | hfails
  · rw [Header.parity_framed] at hodd
    cases hodd
  · exact hfails

/-- **An odd number of bits.**  A change in an odd number of bits that does not touch the announced
length is noticed by the checksum. -/
theorem decode_odd_change (hdecode : d.decode octets = .ok m)
    (hlength : other.length = octets.length) (hsame : lengthOctets other = lengthOctets octets)
    (hodd : differing octets other % 2 = 1) : FailsAs (d.decode other) .invalidChecksum := by
  have hwhole : other.length = headerSize + declared other := by
    rw [hlength, length_of_decode hdecode, declared, declared, hsame]
  have heven : parity (bits octets) = false := by
    obtain ⟨serviceId, messageId, payload, -, rfl⟩ := framed_of_decode hdecode
    exact Header.parity_framed serviceId messageId payload
  have hother : parity (bits other) = true := by
    have hne := (odd_differing_iff hlength.symm).mp hodd
    rw [heven] at hne
    exact Bool.eq_true_of_not_eq_false hne.symm
  exact decode_fails (parse_odd hwhole hother)

/-- **The announced length.**  A change to the announced length is noticed, whatever the checksum
makes of it: by the size if more is announced than before, and by some check if less is. -/
theorem decode_length_change (hdecode : d.decode octets = .ok m)
    (hlength : other.length = octets.length) (hchanged : declared other ≠ declared octets) :
    ∃ fault, d.decode other = .error fault
      ∧ (declared octets < declared other → fault.kind = .invalidSize) := by
  have hsize := length_of_decode hdecode
  by_cases hgrown : declared octets < declared other
  · have hcut : other.length < headerSize + declared other := by omega
    obtain ⟨fault, hfault, hkind⟩ := decode_fails (d := d) (Header.parse_cut hcut)
    exact ⟨fault, hfault, fun _ => hkind⟩
  · cases hother : d.decode other with
    | error fault => exact ⟨fault, rfl, fun h => absurd h hgrown⟩
    | ok found =>
        -- What is accepted is as long as it announces, and both are of one length.
        have hwhole := length_of_decode hother
        omega

/-- Flipping a bit touches the announced length exactly if the bit stands there. -/
theorem lengthOctets_flipBit {place : Nat} (bit : Fin 8) (hplace : place < octets.length) :
    lengthOctets (flipBit octets place bit) = lengthOctets octets ↔ ¬ (2 ≤ place ∧ place < 4) := by
  constructor
  · rintro hsame ⟨hlow, hhigh⟩
    obtain ⟨i, rfl⟩ : ∃ i, place = 2 + i := ⟨place - 2, by omega⟩
    have hi : i < 2 := by omega
    have hat := congrArg (·[i]?) hsame
    simp only [Header.lengthOctets_getElem?, if_pos hi] at hat
    exact getElem?_flipBit_ne bit hplace hat
  · intro hout
    apply List.ext_getElem?
    intro i
    rw [Header.lengthOctets_getElem?, Header.lengthOctets_getElem?]
    by_cases hi : i < 2
    · rw [if_pos hi, if_pos hi, getElem?_flipBit_of_ne bit (by omega)]
    · rw [if_neg hi, if_neg hi]

/-- **One bit of the announced length.** -/
theorem decode_length_flip {place : Nat} (hdecode : d.decode octets = .ok m) (bit : Fin 8)
    (hplace : 2 ≤ place ∧ place < 4) :
    ∃ fault, d.decode (flipBit octets place bit) = .error fault
      ∧ (declared octets < declared (flipBit octets place bit) → fault.kind = .invalidSize) := by
  have hsize := length_of_decode hdecode
  rw [headerSize] at hsize
  have hflipped := length_flipBit (a := octets) place bit
  have hchanged : declared (flipBit octets place bit) ≠ declared octets := by
    intro hsame
    have hoctets := (Header.declared_inj (by omega) (by omega)).mp hsame
    exact (lengthOctets_flipBit bit (by omega)).mp hoctets hplace
  exact decode_length_change hdecode hflipped hchanged

/-- **Corruption is noticed.**  Of an octet string that a decoder accepts, every change in an odd
number of bits that spares the announced length fails for its checksum.  Every flip of one bit of
the announced length fails too: for its size if more is announced than before, and for one reason or
another if less is.  So no flip of a single bit passes. -/
theorem corruption_noticed (hdecode : d.decode octets = .ok m) :
    (∀ other : Bytes, other.length = octets.length → lengthOctets other = lengthOctets octets →
        differing octets other % 2 = 1 → FailsAs (d.decode other) .invalidChecksum)
      ∧ (∀ (place : Nat) (bit : Fin 8), 2 ≤ place ∧ place < 4 →
          ∃ fault, d.decode (flipBit octets place bit) = .error fault
            ∧ (declared octets < declared (flipBit octets place bit) → fault.kind = .invalidSize))
      ∧ ∀ (place : Nat) (bit : Fin 8), place < octets.length →
          ∃ fault, d.decode (flipBit octets place bit) = .error fault := by
  refine ⟨fun other => decode_odd_change hdecode, fun place => decode_length_flip hdecode, ?_⟩
  intro place bit hplace
  by_cases hwithin : 2 ≤ place ∧ place < 4
  · obtain ⟨fault, hfault, -⟩ := decode_length_flip hdecode bit hwithin
    exact ⟨fault, hfault⟩
  · have hsame := (lengthOctets_flipBit bit hplace).mpr hwithin
    have hodd : differing octets (flipBit octets place bit) % 2 = 1 := by
      rw [differing_flipBit hplace bit]
    obtain ⟨fault, hfault, -⟩ := decode_odd_change hdecode (length_flipBit place bit) hsame hodd
    exact ⟨fault, hfault⟩

/-- A frame whose checksum also fits with an empty payload: with one bit of its length flipped, the
front of it is read as another frame, and still the whole is refused.  The same frame with three
other bits changed is refused for its checksum. -/
theorem corruption_noticed_coincidence :
    ∃ (d : Decoder) (octets other : Bytes) (m shorter : Message),
      d.decode octets = .ok m
        ∧ d.decodePrefix (flipBit octets 3 0) = .ok (shorter, 6)
        ∧ (∃ fault, d.decode (flipBit octets 3 0) = .error fault)
        ∧ differing octets other = 3 ∧ FailsAs (d.decode other) .invalidChecksum := by
  let entry : SchemaEntry := ⟨98, 142, "Flag", .forward, [⟨"raised", .bool, true⟩]⟩
  let d : Decoder := ⟨⟨[entry], List.pairwise_singleton _ _⟩, 0⟩
  let octets : Bytes := [98, 142, 0, 1, 16, 33, 1]
  let other : Bytes := [97, 142, 0, 1, 16, 33, 0]
  have hdecode : d.decode octets = .ok ⟨98, 142, .data, true, [.bool true], some "Flag"⟩ := by
    decide +kernel
  have hfront : d.decodePrefix (flipBit octets 3 0)
      = .ok (⟨98, 142, .data, true, [], some "Flag"⟩, 6) := by
    decide +kernel
  have hdiffering : differing octets other = 3 := by decide +kernel
  obtain ⟨hodd, -, hflip⟩ := corruption_noticed hdecode
  exact ⟨d, octets, other, _, _, hdecode, hfront, hflip 3 0 (by decide), hdiffering,
    hodd other rfl rfl (by rw [hdiffering])⟩

end SatWire
