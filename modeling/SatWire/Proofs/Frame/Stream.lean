import SatWire.Frame.Stream
import SatWire.Proofs.Frame.RoundTrip

/-!
# Streams of frames

A frame is read off the front of a stream without a look at what follows it, so frames that stand
back to back are found again one by one, each where it starts (`cutFrom_frames`).

`Cutting` is the cutting of a stream step by step: it goes on as long as there are octets left and a
frame can be read off their front.  A step takes up a header at least and never more than there is,
so whatever the octets are, the cutting comes to an end, and to the one that `Decoder.cut` tells
(`cutting_iff`).
-/

namespace SatWire

open Header (declared)

/-- Cutting frames off the front of a stream that starts at an offset, up to its end or to what is
no frame. -/
inductive Cutting (d : Decoder) : Nat → Bytes → Cuts → Prop
  | ended (offset : Nat) : Cutting d offset [] ⟨[], offset, none⟩
  | stuck {offset : Nat} {octets : Bytes} {fault : ParseError} (hleft : octets ≠ [])
      (hread : d.decodePrefix octets = .error fault) :
      Cutting d offset octets ⟨[], offset, some fault⟩
  | taken {offset size : Nat} {octets : Bytes} {m : Message} {cuts : Cuts}
      (hread : d.decodePrefix octets = .ok (m, size))
      (hrest : Cutting d (offset + size) (octets.drop size) cuts) :
      Cutting d offset octets { cuts with pieces := ⟨offset, size, m⟩ :: cuts.pieces }

/-- A message with the frame that was written for it, which a decoder is able to read. -/
structure Readable (d : Decoder) (p : Message × Bytes) : Prop where
  typed : p.1.WellTyped
  written : p.1.encodeChecked d.registry = .ok p.2
  shallow : p.1.nesting ≤ d.limit

/-- Messages as they come back, each with the place of its frame, if the frames stand back to back
from an offset on. -/
def laid (r : Registry) (offset : Nat) : List (Message × Bytes) → List Piece
  | [] => []
  | (m, frame) :: rest =>
    ⟨offset, frame.length, r.restore m⟩ :: laid r (offset + frame.length) rest

variable {d : Decoder} {octets : Bytes} {m : Message} {size offset : Nat}

/-- **A frame at the front of a stream is read**, whatever follows it. -/
theorem Readable.decodePrefix {p : Message × Bytes} (hreadable : Readable d p) (rest : Bytes) :
    d.decodePrefix (p.2 ++ rest) = .ok (d.registry.restore p.1, p.2.length) := by
  obtain ⟨htyped, hencode, hdepth⟩ := hreadable
  obtain ⟨truths, hspells, -⟩ := spells_of_encodeChecked htyped hencode
  rw [← Registry.nesting_restore (r := d.registry) p.1] at hdepth
  exact hspells.read d.limit rest hdepth

/-- **A step takes up what the header announces**, which is no less than the header and no more than
there is. -/
theorem size_of_decodePrefix (hread : d.decodePrefix octets = .ok (m, size)) :
    size = headerSize + declared octets ∧ headerSize ≤ size ∧ size ≤ octets.length := by
  obtain ⟨frame, truths, rest, hspells, rfl, rfl, -⟩ :=
    spells_of_readFrame (sound_readFields d.limit) hread
  cases hspells with
  | @framed payload _ serviceId messageId entry fs hlookup hfields hshort =>
      have hdeclared : declared (Header.framed serviceId messageId payload ++ rest)
          = payload.length := Header.declared_framed hshort rest
      rw [hdeclared, Header.length_framed, headerSize]
      refine ⟨rfl, Nat.le_add_right _ _, ?_⟩
      rw [List.length_append, Header.length_framed]
      exact Nat.le_add_right _ _

/-- A frame is not read from nothing. -/
theorem ne_nil_of_decodePrefix (hread : d.decodePrefix octets = .ok (m, size)) : octets ≠ [] := by
  obtain ⟨-, hlow, hhigh⟩ := size_of_decodePrefix hread
  rw [headerSize] at hlow
  exact List.length_pos_iff.mp (by omega)

section Steps

theorem cutFrom_nil : d.cutFrom offset [] = ⟨[], offset, none⟩ := by
  rw [Decoder.cutFrom]
  rfl

/-- A frame in front is cut off, and what is behind it is cut in turn. -/
theorem cutFrom_eq (hleft : octets ≠ []) :
    d.cutFrom offset octets = match d.decodePrefix octets with
      | .error fault => ⟨[], offset, some fault⟩
      | .ok (m, size) =>
        { d.cutFrom (offset + size) (octets.drop size) with
          pieces := ⟨offset, size, m⟩ :: (d.cutFrom (offset + size) (octets.drop size)).pieces } := by
  rw [Decoder.cutFrom, List.isEmpty_eq_false_iff.mpr hleft]
  simp only [Bool.false_eq_true, if_false]
  split
  · rename_i fault hfault
    rw [hfault]
  · rename_i m size hfound
    rw [hfound]

/-- Cutting stops where no frame is found, and tells the fault. -/
theorem cutFrom_stuck {fault : ParseError} (hleft : octets ≠ [])
    (hread : d.decodePrefix octets = .error fault) :
    d.cutFrom offset octets = ⟨[], offset, some fault⟩ := by
  rw [cutFrom_eq hleft, hread]

/-- Cutting goes on behind a frame that was found. -/
theorem cutFrom_taken (hread : d.decodePrefix octets = .ok (m, size)) :
    d.cutFrom offset octets
      = { d.cutFrom (offset + size) (octets.drop size) with
          pieces := ⟨offset, size, m⟩ :: (d.cutFrom (offset + size) (octets.drop size)).pieces } := by
  rw [cutFrom_eq (ne_nil_of_decodePrefix hread), hread]

/-- What the cutting comes to is what the function tells. -/
theorem Cutting.eq_cutFrom {cuts : Cuts} (hcutting : Cutting d offset octets cuts) :
    d.cutFrom offset octets = cuts := by
  induction hcutting with
  | ended offset => exact cutFrom_nil
  | stuck hleft hread => exact cutFrom_stuck hleft hread
  | taken hread hrest ih => rw [cutFrom_taken hread, ih]

/-- **The cutting ends on every input.**  The induction is on the number of octets left, which every
step makes smaller. -/
theorem cutting_cutFrom (offset : Nat) (octets : Bytes) :
    Cutting d offset octets (d.cutFrom offset octets) := by
  induction hlength : octets.length using Nat.strongRecOn generalizing offset octets with
  | ind length ih =>
      by_cases hempty : octets = []
      · rw [hempty, cutFrom_nil]
        exact .ended offset
      · cases hread : d.decodePrefix octets with
        | error fault =>
            rw [cutFrom_stuck hempty hread]
            exact .stuck hempty hread
        | ok found =>
            obtain ⟨m, size⟩ := found
            obtain ⟨-, hlow, hhigh⟩ := size_of_decodePrefix hread
            have hshorter : (octets.drop size).length < length := by
              rw [headerSize] at hlow
              rw [List.length_drop]
              omega
            rw [cutFrom_taken hread]
            exact .taken hread (ih _ hshorter (offset + size) (octets.drop size) rfl)

/-- **One end.**  On every input the cutting ends, and in one way. -/
theorem cutting_iff {cuts : Cuts} :
    Cutting d offset octets cuts ↔ d.cutFrom offset octets = cuts := by
  constructor
  · exact Cutting.eq_cutFrom
  · rintro rfl
    exact cutting_cutFrom offset octets

/-- Every piece takes up a header at least, and the cutting never leaves the stream. -/
theorem Cutting.bounded {cuts : Cuts} (hcutting : Cutting d offset octets cuts) :
    offset + headerSize * cuts.pieces.length ≤ cuts.stop
      ∧ cuts.stop ≤ offset + octets.length := by
  induction hcutting with
  | ended offset => exact ⟨Nat.le_refl _, Nat.le_refl _⟩
  | stuck hleft hread => exact ⟨Nat.le_refl _, Nat.le_add_right _ _⟩
  | @taken offset size octets m cuts hread hrest ih =>
      obtain ⟨-, hlow, hhigh⟩ := size_of_decodePrefix hread
      rw [List.length_drop] at ih
      simp only [List.length_cons, headerSize] at hlow ih ⊢
      omega

end Steps

/-- Frames back to back are cut one by one, and the cutting goes on with what follows them. -/
theorem cutFrom_frames {sent : List (Message × Bytes)} (hsent : ∀ p ∈ sent, Readable d p)
    (offset : Nat) (rest : Bytes) :
    d.cutFrom offset (sent.flatMap Prod.snd ++ rest)
      = { d.cutFrom (offset + (sent.flatMap Prod.snd).length) rest with
          pieces := laid d.registry offset sent
            ++ (d.cutFrom (offset + (sent.flatMap Prod.snd).length) rest).pieces } := by
  induction sent generalizing offset with
  | nil => rfl
  | cons p sent ih =>
      obtain ⟨m, frame⟩ := p
      obtain ⟨hfirst, hothers⟩ := List.forall_mem_cons.mp hsent
      have hread := hfirst.decodePrefix (sent.flatMap Prod.snd ++ rest)
      have hrest := ih hothers (offset + frame.length)
      rw [List.flatMap_cons, List.append_assoc, cutFrom_taken hread, List.drop_left, hrest,
        List.length_append, ← Nat.add_assoc]
      rfl

/-- **Frames back to back.**  A stream of written frames is cut into the messages as they come back,
each at the place of its frame, and nothing else: the cutting stops behind the last of them, with no
fault if the stream ends there, and with the fault of what follows if that is no frame.  The messages
may nest as deep as the decoder goes, which is eight levels for the decoder as it comes.

On any stream at all the cutting ends, in one way; a step takes up what its header announces, and
with it no less than a header and no more than is left. -/
theorem cut_frames {sent : List (Message × Bytes)} (hsent : ∀ p ∈ sent, Readable d p) :
    d.cut (sent.flatMap Prod.snd)
        = ⟨laid d.registry 0 sent, (sent.flatMap Prod.snd).length, none⟩
      ∧ (∀ (rest : Bytes) (fault : ParseError), rest ≠ [] → d.decodePrefix rest = .error fault →
        d.cut (sent.flatMap Prod.snd ++ rest)
          = ⟨laid d.registry 0 sent, (sent.flatMap Prod.snd).length, some fault⟩)
      ∧ (∀ (octets : Bytes) (m : Message) (size : Nat), d.decodePrefix octets = .ok (m, size) →
        size = headerSize + declared octets ∧ headerSize ≤ size ∧ size ≤ octets.length)
      ∧ ∀ octets : Bytes, (∀ cuts, Cutting d 0 octets cuts ↔ d.cut octets = cuts)
        ∧ headerSize * (d.cut octets).pieces.length ≤ (d.cut octets).stop
        ∧ (d.cut octets).stop ≤ octets.length := by
  refine ⟨?_, ?_, fun octets m size => size_of_decodePrefix, fun octets => ⟨?_, ?_⟩⟩
  · have hframes := cutFrom_frames hsent 0 []
    rw [List.append_nil, Nat.zero_add, cutFrom_nil, List.append_nil] at hframes
    exact hframes
  · intro rest fault hleft hread
    have hframes := cutFrom_frames hsent 0 rest
    rw [Nat.zero_add, cutFrom_stuck hleft hread, List.append_nil] at hframes
    exact hframes
  · exact fun cuts => cutting_iff
  · have hbounded := (cutting_cutFrom (d := d) 0 octets).bounded
    rwa [Nat.zero_add, Nat.zero_add] at hbounded

/-- Two envelopes, one in bad marks, and an octet too many. -/
theorem cut_frames_envelopes :
    ∃ (d : Decoder) (sent : List (Message × Bytes)),
      (∀ p ∈ sent, Readable d p)
        ∧ d.cut (sent.flatMap Prod.snd ++ [7])
          = ⟨[⟨0, 7, envelope 0⟩, ⟨7, 14, envelope 1⟩], 21, some ⟨[], .headerCut 1⟩⟩ := by
  let d : Decoder := { registry := envelopes }
  let m : Message := ⟨1, 1, .nack, false, [.bool true, .message (envelope 0)], none⟩
  let one : Message × Bytes := (envelope 0, [1, 1, 0, 1, 238, 249, 1])
  let two : Message × Bytes := (m, [1, 1, 0, 8, 184, 212, 1, 1, 1, 0, 1, 238, 249, 1])
  let sent := [one, two]
  have hone : Readable d one :=
    { typed := wellTyped_envelope 0
      written := by decide +kernel
      shallow := Nat.le_trans (Nat.le_of_eq (nesting_envelope 0)) (by decide) }
  have htwo : Readable d two :=
    { typed := wellTyped_envelope 1
      written := by decide +kernel
      shallow := Nat.le_trans (Nat.le_of_eq (nesting_envelope 1)) (by decide) }
  have hsent : ∀ p ∈ sent, Readable d p :=
    List.forall_mem_cons.mpr ⟨hone, List.forall_mem_singleton.mpr htwo⟩
  have hlaid : laid d.registry 0 sent = [⟨0, 7, envelope 0⟩, ⟨7, 14, envelope 1⟩] := by
    decide +kernel
  have hcut := (cut_frames hsent).2.1 [7] ⟨[], .headerCut 1⟩ (List.cons_ne_nil _ _) rfl
  rw [hlaid] at hcut
  exact ⟨d, sent, hsent, hcut⟩

end SatWire
