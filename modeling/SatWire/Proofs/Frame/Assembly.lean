import SatWire.Proofs.Frame.Corruption

/-!
# What is taken for a frame

A frame is found in front of an octet string exactly if one was put there: every header that is found
is the header its payload calls for, and what stands before the rest is what putting that payload into
a frame gives (`parse_eq_ok_iff`).  Nothing that such a frame begins with is a frame of its own.  Cut
within the header it has no length to go by, and cut behind it the length that was announced is not
there, so that the checksum is never asked (`parse_take`).
-/

namespace SatWire.Header

variable {serviceId messageId : UInt8} {octets payload rest : Bytes} {h : Header}

/-- A payload gets a header exactly if a length can tell how long it is. -/
theorem ofPayload_eq_ok_iff :
    ofPayload serviceId messageId payload = .ok h
      ↔ payload.length ≤ maxLength ∧ h = ofFitting serviceId messageId payload := by
  unfold ofPayload
  by_cases hfits : payload.length ≤ maxLength
  · simp [hfits, ofFitting, eq_comm]
  · simp [hfits, refuse]

/-- **What is found is what was put there.** -/
theorem parse_eq_ok_iff :
    parse octets = .ok (h, payload, rest)
      ↔ payload.length ≤ maxLength ∧ h = ofFitting h.serviceId h.messageId payload
        ∧ octets = framed h.serviceId h.messageId payload ++ rest := by
  constructor
  · exact framed_of_parse
  · rintro ⟨hfits, hheader, rfl⟩
    rw [parse_framed hfits rest, ← hheader]

/-- Octets that are too few for a header are told apart by nothing but their number. -/
theorem parse_short (hshort : octets.length < headerSize) :
    parse octets = refuse (.headerCut octets.length) := by
  unfold parse
  split
  · simp only [headerSize, List.length_cons] at hshort
    omega
  · rfl

/-- A header in front of less than it announces is not looked at further. -/
theorem parse_toBytes_short {body : Bytes} (hshort : body.length < h.payloadLength.toNat) :
    parse (h.toBytes ++ body) = refuse (.payloadCut h.payloadLength.toNat body.length) := by
  obtain ⟨l₁, l₀, hlength⟩ := exists_pair h.payloadLength.toNat
  obtain ⟨c₁, c₀, hchecksum⟩ := exists_pair h.checksum.toNat
  have hdeclared : BigEndian.toNat [l₁, l₀] = h.payloadLength.toNat := by
    rw [← hlength, BigEndian.toNat_ofNat h.payloadLength.toNat_lt]
  have hmissing : ¬ (body.take h.payloadLength.toNat).length = h.payloadLength.toNat := by
    rw [List.length_take]
    omega
  have hoctets : h.toBytes ++ body
      = h.serviceId :: h.messageId :: l₁ :: l₀ :: c₁ :: c₀ :: body := by
    rw [toBytes, hlength, hchecksum]
    rfl
  rw [hoctets, parse, hdeclared]
  exact if_neg hmissing

/-- **A frame cut short** fails for its size, and tells how much of it is there. -/
theorem parse_take {n : Nat} (hfits : payload.length ≤ maxLength)
    (hcut : n < (framed serviceId messageId payload).length) :
    parse ((framed serviceId messageId payload).take n)
      = refuse (if n < headerSize then .headerCut n
          else .payloadCut payload.length (n - headerSize)) := by
  have hsize : ((framed serviceId messageId payload).take n).length = n := by
    rw [List.length_take]
    omega
  by_cases hheader : n < headerSize
  · rw [if_pos hheader, parse_short (hsize.symm ▸ hheader), hsize]
  · have hfront : (framed serviceId messageId payload).take n
        = (ofFitting serviceId messageId payload).toBytes ++ payload.take (n - headerSize) := by
      have hwithin : headerSize ≤ n := Nat.not_lt.mp hheader
      rw [framed, List.take_append, length_toBytes,
        List.take_of_length_le (by rw [length_toBytes]; exact hwithin)]
    have hannounced : (ofFitting serviceId messageId payload).payloadLength.toNat = payload.length :=
      toNat_length hfits
    have hmissing : n - headerSize < payload.length := by
      rw [length_framed] at hcut
      rw [headerSize] at hheader ⊢
      omega
    have hleft : (payload.take (n - headerSize)).length = n - headerSize := by
      rw [List.length_take]
      omega
    have hless : (payload.take (n - headerSize)).length
        < (ofFitting serviceId messageId payload).payloadLength.toNat := by
      rw [hannounced, hleft]
      exact hmissing
    rw [if_neg hheader, hfront, parse_toBytes_short hless, hannounced, hleft]

/-- However it is cut, it is the size that is found wrong. -/
theorem fails_take {n : Nat} (hfits : payload.length ≤ maxLength)
    (hcut : n < (framed serviceId messageId payload).length) :
    FailsAs (parse ((framed serviceId messageId payload).take n)) .invalidSize := by
  rw [parse_take hfits hcut]
  split
  · exact .refuse _
  · exact .refuse _

/-- **Assembled frames only.**  A header and a payload are found in front of an octet string exactly
if the payload fits a frame, the header is the one it calls for, and the octets are the frame that the
two are assembled to, followed by anything; the header then tells how long that frame is.  Of an
assembled frame no part that lacks something at the end is a frame, to the header or to any decoder:
it fails for its size. -/
theorem assembled_only :
    (∀ (octets payload rest : Bytes) (h : Header),
      parse octets = .ok (h, payload, rest)
        ↔ payload.length ≤ 65535 ∧ ofPayload h.serviceId h.messageId payload = .ok h
          ∧ ∃ frame, assemble h.serviceId h.messageId payload = .ok frame ∧ octets = frame ++ rest)
      ∧ (∀ (octets payload rest frame : Bytes) (h : Header),
          parse octets = .ok (h, payload, rest) →
          assemble h.serviceId h.messageId payload = .ok frame → h.frameLength = frame.length)
      ∧ ∀ (serviceId messageId : UInt8) (payload frame : Bytes),
          assemble serviceId messageId payload = .ok frame → ∀ n < frame.length,
            FailsAs (parse (frame.take n)) .invalidSize
              ∧ ∀ d : Decoder, FailsAs (d.decode (frame.take n)) .invalidSize := by
  refine ⟨?_, ?_, ?_⟩
  · intro octets payload rest h
    simp only [parse_eq_ok_iff, ofPayload_eq_ok_iff, assemble_eq_ok_iff]
    constructor
    · rintro ⟨hfits, hheader, hoctets⟩
      exact ⟨hfits, ⟨hfits, hheader⟩, _, ⟨hfits, rfl⟩, hoctets⟩
    · rintro ⟨hfits, ⟨-, hheader⟩, _, ⟨-, rfl⟩, hoctets⟩
      exact ⟨hfits, hheader, hoctets⟩
  · intro octets payload rest frame h hparse hassemble
    obtain ⟨hfits, hheader, -⟩ := parse_eq_ok_iff.mp hparse
    obtain ⟨-, rfl⟩ := assemble_eq_ok_iff.mp hassemble
    rw [hheader]
    exact frameLength_ofFitting hfits
  · intro serviceId messageId payload frame hassemble n hcut
    obtain ⟨hfits, rfl⟩ := assemble_eq_ok_iff.mp hassemble
    have hfails := fails_take hfits hcut
    exact ⟨hfails, fun d => decode_fails hfails⟩

/-- A frame of one octet, whose checksum is also that of an empty payload: in front of another octet
it is found, and cut behind its header it still fails for its size. -/
theorem assembled_only_flag :
    ∃ (octets payload rest frame : Bytes) (h : Header) (d : Decoder),
      parse octets = .ok (h, payload, rest)
        ∧ assemble h.serviceId h.messageId payload = .ok frame
        ∧ octets = frame ++ rest ∧ h.frameLength = frame.length
        ∧ FailsAs (parse (frame.take 6)) .invalidSize
        ∧ FailsAs (d.decode (frame.take 6)) .invalidSize := by
  let h : Header := ⟨98, 142, 1, 0x1021⟩
  let frame : Bytes := [98, 142, 0, 1, 16, 33, 1]
  let entry : SchemaEntry := ⟨98, 142, "Flag", .forward, [⟨"raised", .bool, true⟩]⟩
  let d : Decoder := ⟨⟨[entry], List.pairwise_singleton _ _⟩, 0⟩
  have hassemble : assemble 98 142 [1] = .ok frame := by decide +kernel
  have hheader : ofPayload 98 142 [1] = .ok h := by decide +kernel
  obtain ⟨hfound, hlength, hcut⟩ := assembled_only
  have hparse : parse (frame ++ [7]) = .ok (h, [1], [7]) :=
    (hfound (frame ++ [7]) [1] [7] h).mpr ⟨by decide, hheader, frame, hassemble, rfl⟩
  obtain ⟨hshort, hdecoders⟩ := hcut 98 142 [1] frame hassemble 6 (by decide)
  exact ⟨_, _, _, frame, h, d, hparse, hassemble, rfl, hlength _ _ _ frame h hparse hassemble,
    hshort, hdecoders d⟩

end SatWire.Header
