import Mathlib.Tactic.Common
import SatWire.Frame.Header
import SatWire.Proofs.Octets.Words
import SatWire.Proofs.Outcome

/-!
# Frames taken apart and put together

`framed` is the one frame of a payload.  Putting a payload into a frame gives it, if the payload
fits (`assemble_eq_ok_iff`), and it is all that is ever taken off the front of an octet string
(`parse_framed`, `framed_of_parse`).

`declared` is the length of the payload that the octets announce, whether or not they keep to it.  An
octet string that is shorter than it announces fails for its size, and one that is not can only fail
for its checksum (`parse_cut`, `parse_whole`).
-/

namespace SatWire.Header

/-- The header of a payload. -/
def ofFitting (serviceId messageId : UInt8) (payload : Bytes) : Header :=
  ⟨serviceId, messageId, UInt16.ofNat payload.length,
    frameChecksum serviceId messageId (UInt16.ofNat payload.length) payload⟩

/-- The frame of a payload. -/
def framed (serviceId messageId : UInt8) (payload : Bytes) : Bytes :=
  (ofFitting serviceId messageId payload).toBytes ++ payload

variable {serviceId messageId : UInt8} {payload : Bytes}

@[simp] theorem length_framed :
    (framed serviceId messageId payload).length = 6 + payload.length := by
  simp only [framed, toBytes, List.length_append, List.length_cons, BigEndian.length_ofNat]

/-- The octets of a frame in front of its checksum. -/
def front (serviceId messageId : UInt8) (payload : Bytes) : Bytes :=
  serviceId :: messageId :: BigEndian.ofNat 2 (UInt16.ofNat payload.length).toNat

theorem length_front : (front serviceId messageId payload).length = 4 := by
  rw [front, List.length_cons, List.length_cons, BigEndian.length_ofNat]

/-- The checksum of a frame is that of everything around it. -/
theorem framed_eq :
    framed serviceId messageId payload
      = front serviceId messageId payload
        ++ BigEndian.ofNat 2 (Checksum.crc (front serviceId messageId payload ++ payload)).toNat
        ++ payload := by
  simp only [framed, toBytes, ofFitting, frameChecksum, front, List.cons_append]

/-- A header is written in six octets. -/
@[simp] theorem length_toBytes (h : Header) : h.toBytes.length = headerSize := by
  simp only [toBytes, List.length_cons, List.length_append, BigEndian.length_ofNat, headerSize]

/-- The octets of a header tell the header. -/
theorem toBytes_inj {h h' : Header} : h.toBytes = h'.toBytes ↔ h = h' := by
  constructor
  · intro hsame
    have hword : ∀ word word' : UInt16,
        BigEndian.ofNat 2 word.toNat = BigEndian.ofNat 2 word'.toNat → word = word' := by
      intro word word' hoctets
      have hnumber := congrArg BigEndian.toNat hoctets
      rw [BigEndian.toNat_ofNat word.toNat_lt, BigEndian.toNat_ofNat word'.toNat_lt] at hnumber
      exact UInt16.toNat_inj.mp hnumber
    unfold toBytes at hsame
    obtain ⟨hservice, hothers⟩ := List.cons.inj hsame
    obtain ⟨hmessage, hwords⟩ := List.cons.inj hothers
    obtain ⟨hlength, hchecksum⟩ := List.append_inj hwords
      (by rw [BigEndian.length_ofNat, BigEndian.length_ofNat])
    cases h
    cases h'
    rw [Header.mk.injEq]
    exact ⟨hservice, hmessage, hword _ _ hlength, hword _ _ hchecksum⟩
  · rintro rfl
    rfl

/-- A header and what stands behind it are told apart. -/
theorem toBytes_append_inj {h h' : Header} {rest rest' : Bytes} :
    h.toBytes ++ rest = h'.toBytes ++ rest' ↔ h = h' ∧ rest = rest' := by
  constructor
  · intro hsame
    obtain ⟨hheader, hrest⟩ := List.append_inj hsame (by rw [length_toBytes, length_toBytes])
    exact ⟨toBytes_inj.mp hheader, hrest⟩
  · rintro ⟨rfl, rfl⟩
    rfl

/-- Frames of one key are equal only if their payloads are. -/
theorem framed_inj {payload' : Bytes} :
    framed serviceId messageId payload = framed serviceId messageId payload'
      ↔ payload = payload' := by
  constructor
  · intro h
    exact (toBytes_append_inj.mp h).2
  · rintro rfl
    rfl

/-- A frame tells its key. -/
theorem key_of_framed_eq {serviceId' messageId' : UInt8} {payload' : Bytes}
    (h : framed serviceId messageId payload = framed serviceId' messageId' payload') :
    serviceId = serviceId' ∧ messageId = messageId' := by
  have hheader := (toBytes_append_inj.mp h).1
  exact ⟨congrArg Header.serviceId hheader, congrArg Header.messageId hheader⟩

/-- The length of a payload that fits is not cut off by its word. -/
theorem toNat_length (h : payload.length ≤ maxLength) :
    (UInt16.ofNat payload.length).toNat = payload.length :=
  UInt16.toNat_ofNat_of_lt' (Nat.lt_succ_of_le h)

/-- A header announces the frame that it stands in front of. -/
theorem frameLength_ofFitting (h : payload.length ≤ maxLength) :
    (ofFitting serviceId messageId payload).frameLength
      = (framed serviceId messageId payload).length := by
  rw [frameLength, length_framed, ofFitting, toNat_length h, headerSize]

/-- A frame is assembled exactly if its payload fits, and there is one to assemble. -/
theorem assemble_eq_ok_iff {frame : Bytes} :
    assemble serviceId messageId payload = .ok frame
      ↔ payload.length ≤ maxLength ∧ frame = framed serviceId messageId payload := by
  unfold assemble ofPayload
  by_cases hfits : payload.length ≤ maxLength
  · simp [hfits, Except.map, framed, ofFitting, eq_comm]
  · simp [hfits, Except.map, refuse]

/-- A 16-bit number stands in two octets. -/
theorem exists_pair (n : Nat) : ∃ high low, BigEndian.ofNat 2 n = [high, low] :=
  ⟨_, _, rfl⟩

/-- **A frame is found again**, whatever stands behind it. -/
theorem parse_framed (hfits : payload.length ≤ maxLength) (rest : Bytes) :
    parse (framed serviceId messageId payload ++ rest)
      = .ok (ofFitting serviceId messageId payload, payload, rest) := by
  obtain ⟨l₁, l₀, hlength⟩ := exists_pair payload.length
  obtain ⟨c₁, c₀, hchecksum⟩ := exists_pair (ofFitting serviceId messageId payload).checksum.toNat
  have hdeclared : BigEndian.toNat [l₁, l₀] = payload.length := by
    rw [← hlength, BigEndian.toNat_ofNat (Nat.lt_succ_of_le hfits)]
  have hcarried : UInt16.ofNat (BigEndian.toNat [c₁, c₀])
      = (ofFitting serviceId messageId payload).checksum := by
    rw [← hchecksum, BigEndian.toNat_ofNat (UInt16.toNat_lt _), UInt16.ofNat_toNat]
  have hframe : framed serviceId messageId payload ++ rest
      = serviceId :: messageId :: l₁ :: l₀ :: c₁ :: c₀ :: (payload ++ rest) := by
    have hwritten := toNat_length hfits
    simp only [framed, toBytes, hchecksum]
    simp [ofFitting, hwritten, hlength]
  rw [hframe, parse, hdeclared, hcarried]
  simp [ofFitting]

/-- **What is found is a frame**, and it stood in front of what follows it. -/
theorem framed_of_parse {octets rest : Bytes} {h : Header}
    (hparse : parse octets = .ok (h, payload, rest)) :
    payload.length ≤ maxLength ∧ h = ofFitting h.serviceId h.messageId payload
      ∧ octets = framed h.serviceId h.messageId payload ++ rest := by
  unfold parse at hparse
  split at hparse
  · rename_i s i l₁ l₀ c₁ c₀ body
    dsimp only at hparse
    split at hparse
    · rename_i hfull
      split at hparse
      · rename_i hsame
        cases hparse
        have hdeclared : BigEndian.toNat [l₁, l₀] < BigEndian.wordCount 2 :=
          BigEndian.toNat_lt [l₁, l₀]
        have hcarried : BigEndian.toNat [c₁, c₀] < BigEndian.wordCount 2 :=
          BigEndian.toNat_lt [c₁, c₀]
        have hlength : BigEndian.ofNat 2 (BigEndian.toNat [l₁, l₀]) = [l₁, l₀] :=
          BigEndian.ofNat_toNat [l₁, l₀]
        have hchecksum : BigEndian.ofNat 2 (BigEndian.toNat [c₁, c₀]) = [c₁, c₀] :=
          BigEndian.ofNat_toNat [c₁, c₀]
        have hheader : ofFitting s i (body.take (BigEndian.toNat [l₁, l₀]))
            = ⟨s, i, UInt16.ofNat (BigEndian.toNat [l₁, l₀]),
                UInt16.ofNat (BigEndian.toNat [c₁, c₀])⟩ := by
          rw [ofFitting, hfull, hsame]
        refine ⟨by rw [hfull]; exact Nat.le_of_lt_succ hdeclared, hheader.symm, ?_⟩
        rw [framed, hheader, toBytes, UInt16.toNat_ofNat_of_lt' hdeclared,
          UInt16.toNat_ofNat_of_lt' hcarried, hlength, hchecksum]
        simp
      · exact absurd hparse refuse_ne_ok
    · exact absurd hparse refuse_ne_ok
  · exact absurd hparse refuse_ne_ok

/-- The two octets that tell the length of the payload. -/
def lengthOctets (octets : Bytes) : Bytes :=
  (octets.drop 2).take 2

/-- The length of the payload that the octets announce. -/
def declared (octets : Bytes) : Nat :=
  BigEndian.toNat (lengthOctets octets)

/-- The octets of the length are the third and the fourth. -/
theorem lengthOctets_getElem? (octets : Bytes) (i : Nat) :
    (lengthOctets octets)[i]? = if i < 2 then octets[2 + i]? else none := by
  rw [lengthOctets, List.getElem?_take, List.getElem?_drop]

/-- Other octets announce another length. -/
theorem declared_inj {a b : Bytes} (ha : 4 ≤ a.length) (hb : 4 ≤ b.length) :
    declared a = declared b ↔ lengthOctets a = lengthOctets b := by
  have htwo : ∀ octets : Bytes, 4 ≤ octets.length →
      BigEndian.ofNat 2 (declared octets) = lengthOctets octets := by
    intro octets hlength
    have hsize : (lengthOctets octets).length = 2 := by
      rw [lengthOctets, List.length_take, List.length_drop]
      omega
    rw [← hsize]
    exact BigEndian.ofNat_toNat _
  constructor
  · intro hsame
    rw [← htwo a ha, ← htwo b hb, hsame]
  · intro hsame
    rw [declared, declared, hsame]

/-- Octets that are enough to announce a length announce the same in front of others. -/
theorem declared_append {octets : Bytes} (hlength : 4 ≤ octets.length) (rest : Bytes) :
    declared (octets ++ rest) = declared octets := by
  have htwo : 2 ≤ octets.length := by omega
  have hleft : 2 ≤ (octets.drop 2).length := by
    rw [List.length_drop]
    omega
  rw [declared, declared, lengthOctets, lengthOctets, List.drop_append_of_le_length htwo,
    List.take_append_of_le_length hleft]

/-- A header holds its length in the two octets that announce it. -/
theorem lengthOctets_toBytes (h : Header) (rest : Bytes) :
    lengthOctets (h.toBytes ++ rest) = BigEndian.ofNat 2 h.payloadLength.toNat :=
  rfl

/-- A header announces the length that it holds. -/
theorem declared_toBytes (h : Header) (rest : Bytes) :
    declared (h.toBytes ++ rest) = h.payloadLength.toNat := by
  rw [declared, lengthOctets_toBytes, BigEndian.toNat_ofNat h.payloadLength.toNat_lt]

/-- A frame announces the length of its payload. -/
theorem declared_framed (hfits : payload.length ≤ maxLength) (rest : Bytes) :
    declared (framed serviceId messageId payload ++ rest) = payload.length := by
  rw [framed, List.append_assoc, declared_toBytes, ofFitting, toNat_length hfits]

/-- A frame is as long as it announces. -/
theorem length_framed_eq (hfits : payload.length ≤ maxLength) :
    (framed serviceId messageId payload).length
      = headerSize + declared (framed serviceId messageId payload) := by
  have hdeclared : declared (framed serviceId messageId payload ++ []) = payload.length :=
    declared_framed hfits []
  rw [List.append_nil] at hdeclared
  rw [hdeclared, length_framed, headerSize]

/-- Fewer octets than announced fail for their size. -/
theorem parse_cut {octets : Bytes} (hcut : octets.length < headerSize + declared octets) :
    FailsAs (parse octets) .invalidSize := by
  unfold parse
  split
  · rename_i s i l₁ l₀ c₁ c₀ body
    have hdeclared : declared (s :: i :: l₁ :: l₀ :: c₁ :: c₀ :: body)
        = BigEndian.toNat [l₁, l₀] := rfl
    have hshort : ¬ (body.take (BigEndian.toNat [l₁, l₀])).length = BigEndian.toNat [l₁, l₀] := by
      simp only [hdeclared, headerSize, List.length_cons] at hcut
      rw [List.length_take]
      omega
    dsimp only
    rw [if_neg hshort]
    exact .refuse _
  · exact .refuse _

/-- **A part of a frame** that lacks something at the end fails for its size, even with an end that
looks like a whole payload. -/
theorem parse_part {front back : Bytes} (hfits : payload.length ≤ maxLength) (hback : back ≠ [])
    (hframe : framed serviceId messageId payload = front ++ back) :
    FailsAs (parse front) .invalidSize := by
  have hmissing := List.length_pos_iff.mpr hback
  apply parse_cut
  by_cases hheader : headerSize ≤ front.length
  · rw [headerSize] at hheader ⊢
    have hwhole : (framed serviceId messageId payload).length = _ := length_framed_eq hfits
    rw [hframe, declared_append (by omega), List.length_append, headerSize] at hwhole
    omega
  · omega

/-- As many octets as announced, or more, can only fail for their checksum. -/
theorem parse_whole {octets : Bytes} (hwhole : headerSize + declared octets ≤ octets.length) :
    (∃ h payload rest, parse octets = .ok (h, payload, rest))
      ∨ FailsAs (parse octets) .invalidChecksum := by
  unfold parse
  split
  · rename_i s i l₁ l₀ c₁ c₀ body
    have hdeclared : declared (s :: i :: l₁ :: l₀ :: c₁ :: c₀ :: body)
        = BigEndian.toNat [l₁, l₀] := rfl
    have hfull : (body.take (BigEndian.toNat [l₁, l₀])).length = BigEndian.toNat [l₁, l₀] := by
      simp only [hdeclared, headerSize, List.length_cons] at hwhole
      rw [List.length_take]
      omega
    dsimp only
    rw [if_pos hfull]
    split
    · exact .inl ⟨_, _, _, rfl⟩
    · exact .inr (.refuse _)
  · rename_i hnone
    -- An octet string of six octets or more has the shape of the first case.
    have hsix : 6 ≤ octets.length := Nat.le_trans (Nat.le_add_right _ _) hwhole
    rcases octets with _ | ⟨s, _ | ⟨i, _ | ⟨l₁, _ | ⟨l₀, _ | ⟨c₁, _ | ⟨c₀, body⟩⟩⟩⟩⟩⟩
    case cons.cons.cons.cons.cons.cons => exact absurd rfl (hnone s i l₁ l₀ c₁ c₀ body)
    all_goals simp at hsix

end SatWire.Header
