import SatWire.Proofs.Frame.Corruption
import SatWire.Proofs.Octets.Remainder

/-!
# How far frames are apart

Put a frame's checksum behind its payload, and the frame is an octet string that the generator
divides, up to what its length alone decides.  So the bits in which two frames of one length differ
are a multiple of the generator, and no multiple of the generator has few bits set or has them all
close together.

* Frames of one length, of no more than 4089 octets of payload, that differ at all differ in four bits
  or more (`Header.four_le_differing`): two bits would make a power of `x` below the 32767th leave
  one, and the parity excludes odd numbers.  With one octet more there are frames that two bits tell
  apart (`two_flips_unnoticed`).
* A change within sixteen bits in a row changes the checksum, whatever the length
  (`Checksum.run_ne_of_burst`).
-/

namespace SatWire

open Header (declared lengthOctets front framed framed_eq)

section Few

/-- **Two bits do not make another checksum fit**, in strings that are not too long. -/
theorem Checksum.differing_withChecksum_ne_two {octets others : Bytes}
    (hlength : octets.length = others.length) (hshort : octets.length ≤ 4093) :
    differing (withChecksum octets) (withChecksum others) ≠ 2 := by
  have hwhole : (withChecksum octets).length = (withChecksum others).length := by
    rw [length_withChecksum, length_withChecksum, hlength]
  have hcleared : run initial (withChecksum octets) = run initial (withChecksum others) :=
    (crc_withChecksum octets).trans (crc_withChecksum others).symm
  have hnone := (run_eq_iff initial hwhole).mp hcleared
  intro htwo
  apply residue_ne_zero_of_count_two _ htwo hnone
  rw [List.length_zipWith, length_bits, length_bits, ← hwhole, length_withChecksum]
  omega

variable {serviceId messageId serviceId' messageId' : UInt8} {payload payload' : Bytes}

/-- Frames of one length differ where they do with the checksum behind the payload. -/
theorem Header.differing_framed (hlength : payload.length = payload'.length) :
    differing (framed serviceId messageId payload) (framed serviceId' messageId' payload')
      = differing (Checksum.withChecksum (front serviceId messageId payload ++ payload))
        (Checksum.withChecksum (front serviceId' messageId' payload' ++ payload')) := by
  have hfront : (front serviceId messageId payload).length
      = (front serviceId' messageId' payload').length := by
    rw [length_front, length_front]
  have hbefore : (front serviceId messageId payload ++ payload).length
      = (front serviceId' messageId' payload' ++ payload').length := by
    rw [List.length_append, List.length_append, hfront, hlength]
  rw [framed_eq, framed_eq, List.append_assoc, List.append_assoc, differing_append hfront,
    differing_append (by rw [BigEndian.length_ofNat, BigEndian.length_ofNat]),
    Checksum.withChecksum, Checksum.withChecksum, differing_append hbefore,
    differing_append hfront]
  omega

/-- **The distance of frames.**  Frames of one length that are not the same differ in four bits or
more. -/
theorem Header.four_le_differing (hlength : payload.length = payload'.length)
    (hshort : payload.length ≤ 4089)
    (hsome : 1 ≤ differing (framed serviceId messageId payload)
      (framed serviceId' messageId' payload')) :
    4 ≤ differing (framed serviceId messageId payload) (framed serviceId' messageId' payload') := by
  have heven : ¬ differing (framed serviceId messageId payload)
      (framed serviceId' messageId' payload') % 2 = 1 := by
    rw [odd_differing_iff (by rw [length_framed, length_framed, hlength]), parity_framed,
      parity_framed]
    exact fun hne => hne rfl
  have hnot : differing (framed serviceId messageId payload)
      (framed serviceId' messageId' payload') ≠ 2 := by
    rw [differing_framed hlength]
    apply Checksum.differing_withChecksum_ne_two
    · rw [List.length_append, List.length_append, length_front, length_front, hlength]
    · rw [List.length_append, length_front]
      omega
  omega

/-- **Few flips are noticed.**  Of one frame with no more than 4089 octets of payload, every change in
one, two or three bits that spares the announced length fails for its checksum. -/
theorem few_flips_noticed {octets other payload : Bytes} {h : Header}
    (hparse : Header.parse octets = .ok (h, payload, []))
    (hshort : h.payloadLength.toNat ≤ 4089) (hlength : other.length = octets.length)
    (hsame : lengthOctets other = lengthOctets octets) (hsome : 1 ≤ differing octets other)
    (hfew : differing octets other ≤ 3) : FailsAs (Header.parse other) .invalidChecksum := by
  obtain ⟨hfits, hheader, hframe⟩ := Header.framed_of_parse hparse
  rw [List.append_nil] at hframe
  have hpayload : payload.length ≤ 4089 := by
    rw [hheader, Header.ofFitting, Header.toNat_length hfits] at hshort
    exact hshort
  have hwhole : octets.length = headerSize + declared octets := by
    rw [hframe]
    exact Header.length_framed_eq hfits
  have hother : other.length = headerSize + declared other := by
    rw [hlength, hwhole, declared, declared, hsame]
  rcases framed_or_fails hother with ⟨serviceId, messageId, payload', -, rfl⟩ | hfails
  · -- The change would have led to another frame.
    rw [hframe, Header.length_framed, Header.length_framed] at hlength
    rw [hframe] at hsome hfew
    have hfar := Header.four_le_differing (by omega) hpayload hsome
    omega
  · exact hfails

/-- The first bit of a frame and the last bit of its checksum: behind the payload, the farthest apart
that two bits of a frame can be. -/
theorem few_flips_noticed_outermost :
    ∃ (octets other payload : Bytes) (h : Header),
      Header.parse octets = .ok (h, payload, []) ∧ differing octets other = 2
        ∧ FailsAs (Header.parse other) .invalidChecksum := by
  let octets : Bytes := [98, 142, 0, 1, 16, 33, 1]
  let other : Bytes := [226, 142, 0, 1, 16, 32, 1]
  have hparse : Header.parse octets = .ok (⟨98, 142, 1, 0x1021⟩, [1], []) := by decide +kernel
  have hdiffering : differing octets other = 2 := by decide +kernel
  exact ⟨octets, other, _, _, hparse, hdiffering,
    few_flips_noticed hparse (by decide) rfl rfl (by rw [hdiffering]; decide)
      (by rw [hdiffering]; decide)⟩

/-- With one octet more, the first bit and the last one of the checksum make up for one another. -/
theorem Checksum.differing_withChecksum_ends (octet : UInt8) {octets : Bytes}
    (hlength : octets.length = 4093) :
    differing (withChecksum (octet :: octets)) (withChecksum ((octet ^^^ 0x80) :: octets)) = 2 := by
  have hends : crc ((octet ^^^ 0x80) :: octets) = crc (octet :: octets) ^^^ 1 :=
    run_flipped_ends initial octet hlength
  have hfirst : octet ^^^ (octet ^^^ 0x80) = 0x80 := by
    rw [← UInt8.xor_assoc, UInt8.xor_self, UInt8.zero_xor]
  have hlast : crc (octet :: octets) ^^^ (crc (octet :: octets) ^^^ 1) = 1 := by
    rw [← UInt16.xor_assoc, UInt16.xor_self, UInt16.zero_xor]
  rw [withChecksum, withChecksum, differing_append (by rw [List.length_cons, List.length_cons]),
    differing_cons, differing_self, hfirst, differing_ofNat_two, hends, hlast]
  decide

/-- **The bound is exact.**  Of every frame with one octet of payload more, two flips can pass: those of
the first bit and of the last bit of the checksum. -/
theorem two_flips_unnoticed (hlength : payload.length = 4090) :
    ∃ other h, differing (framed serviceId messageId payload) other = 2
      ∧ lengthOctets other = lengthOctets (framed serviceId messageId payload)
      ∧ Header.parse other = .ok (h, payload, []) := by
  have hfits : payload.length ≤ maxLength := by
    rw [hlength, maxLength]
    omega
  have hparse : Header.parse (framed (serviceId ^^^ 0x80) messageId payload ++ []) = _ :=
    Header.parse_framed hfits []
  rw [List.append_nil] at hparse
  refine ⟨framed (serviceId ^^^ 0x80) messageId payload, _, ?_, ?_, hparse⟩
  · rw [Header.differing_framed rfl, front, front, List.cons_append, List.cons_append]
    apply Checksum.differing_withChecksum_ends
    rw [List.length_cons, List.length_append, BigEndian.length_ofNat, hlength]
  · rw [framed, framed, Header.lengthOctets_toBytes, Header.lengthOctets_toBytes]
    rfl

end Few

section Bursts

/-- **A burst changes the register**, wherever it stands and whatever came before. -/
theorem Checksum.run_ne_of_burst (register : UInt16) {octets others : Bytes}
    (hlength : octets.length = others.length) (hne : octets ≠ others) {start : Nat}
    (hwindow : ∀ i, (bits octets)[i]? ≠ (bits others)[i]? → start ≤ i ∧ i < start + 16) :
    run register octets ≠ run register others := by
  have hburst : ∀ i, (List.zipWith xor (bits octets) (bits others))[i]? = some true →
      start ≤ i ∧ i < start + 16 := by
    intro i hset
    apply hwindow
    intro hsame
    rw [List.getElem?_zipWith, hsame] at hset
    cases hbit : (bits others)[i]? with
    | none => simp [hbit] at hset
    | some b => simp [hbit] at hset
  intro hregister
  have hnone := (run_eq_iff register hlength).mp hregister
  have hclear := not_set_of_burst hburst hnone
  have hsame := eq_of_zipWith_xor (length_bits_eq hlength) hclear
  exact hne ((bits_inj hlength).mp hsame)

/-- **Bursts are noticed.**  Of two payloads of one length that differ within sixteen bits in a row,
the checksums of the frames differ, and the second in the frame of the first fails for the checksum. -/
theorem burst_noticed (serviceId messageId : UInt8) {payload payload' : Bytes}
    (hlength : payload.length = payload'.length) (hfits : payload.length ≤ maxLength)
    (hne : payload ≠ payload') {start : Nat}
    (hwindow : ∀ i, (bits payload)[i]? ≠ (bits payload')[i]? → start ≤ i ∧ i < start + 16) :
    (∀ announced, frameChecksum serviceId messageId announced payload
        ≠ frameChecksum serviceId messageId announced payload')
      ∧ ∃ frame, Header.assemble serviceId messageId payload = .ok frame
        ∧ FailsAs (Header.parse (frame.take headerSize ++ payload')) .invalidChecksum := by
  have hchecksum : ∀ announced, frameChecksum serviceId messageId announced payload
      ≠ frameChecksum serviceId messageId announced payload' := by
    intro announced
    unfold frameChecksum Checksum.crc
    rw [Checksum.run_append, Checksum.run_append]
    exact Checksum.run_ne_of_burst _ hlength hne hwindow
  refine ⟨hchecksum, _, Header.assemble_eq_ok_iff.mpr ⟨hfits, rfl⟩, ?_⟩
  have hheader : (framed serviceId messageId payload).take headerSize
      = (Header.ofFitting serviceId messageId payload).toBytes := by
    rw [framed, ← Header.length_toBytes (Header.ofFitting serviceId messageId payload),
      List.take_left]
  rw [hheader]
  apply parse_mismatch
  · rw [Header.ofFitting, Header.toNat_length hfits, hlength]
  · simp only [Header.ofFitting]
    exact (hchecksum (UInt16.ofNat payload.length)).symm

/-- The last bit of one octet and the last but one of the second after it. -/
theorem burst_noticed_unaligned :
    ∃ (payload payload' frame : Bytes),
      differing payload payload' = 2 ∧ frameChecksum 98 142 4 payload ≠ frameChecksum 98 142 4 payload'
        ∧ Header.assemble 98 142 payload = .ok frame
        ∧ FailsAs (Header.parse (frame.take headerSize ++ payload')) .invalidChecksum := by
  let payload : Bytes := [7, 1, 2, 9]
  let payload' : Bytes := [6, 1, 0, 9]
  have hwindow : ∀ i, (bits payload)[i]? ≠ (bits payload')[i]? → 7 ≤ i ∧ i < 7 + 16 := by
    intro i hi
    by_cases hwithin : i < 32
    · have hplaces : ∀ i < 32, (bits payload)[i]? ≠ (bits payload')[i]? → 7 ≤ i ∧ i < 7 + 16 := by
        decide
      exact hplaces i hwithin hi
    · have hbeyond : 32 ≤ i := Nat.le_of_not_lt hwithin
      exact absurd ((List.getElem?_eq_none hbeyond).trans (List.getElem?_eq_none hbeyond).symm) hi
  have hlength : payload.length = payload'.length := rfl
  obtain ⟨hchecksum, frame, hframe, hfails⟩ :=
    burst_noticed 98 142 hlength (by decide) (by decide) hwindow
  exact ⟨payload, payload', frame, by decide, hchecksum 4, hframe, hfails⟩

end Bursts

end SatWire
