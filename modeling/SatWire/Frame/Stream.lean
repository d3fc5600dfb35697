import SatWire.Frame.Decode
/-!
# Frames back to back

A stream is read by taking frames off its front until it ends or a frame cannot be read.  Every
frame takes at least the octets of its header, so the reading ends.
-/

namespace SatWire

/-- A frame found in a stream: where it starts, how many octets it takes, and its message. -/
structure Piece where
  offset : Nat
  size : Nat
  message : Message
  deriving DecidableEq

/-- What a stream was cut into: its frames, where the cutting stopped, and why, unless the stream
was used up. -/
structure Cuts where
  pieces : List Piece
  stop : Nat
  fault : Option ParseError
  deriving DecidableEq

/-- A frame that was read takes up a header at least, and no more than there is. -/
theorem size_of_readFrame {registry : Registry} {inner : FieldReader} {octets : Bytes} {m : Message}
    {size : Nat} (h : readFrame registry inner octets = .ok (m, size)) :
    headerSize ≤ size ∧ size ≤ octets.length := by
  simp only [readFrame] at h
  split at h
  · cases h
  · rename_i header payload rest parsed
    have bound := Header.frameLength_le parsed
    split at h
    · cases h
    · split at h
      · simp at h
      · split at h
        · simp only [located_ok, Except.ok.injEq, Prod.mk.injEq] at h
          obtain ⟨-, rfl⟩ := h
          exact ⟨Nat.le_add_right _ _, bound⟩
        · simp [refuse] at h

namespace Decoder

/-- Cuts a stream that starts at `offset`. -/
def cutFrom (d : Decoder) (offset : Nat) (octets : Bytes) : Cuts :=
  if octets.isEmpty then ⟨[], offset, none⟩
  else
    match _h : d.decodePrefix octets with
    | .error fault => ⟨[], offset, some fault⟩
    | .ok (m, size) =>
      let rest := d.cutFrom (offset + size) (octets.drop size)
      { rest with pieces := ⟨offset, size, m⟩ :: rest.pieces }
termination_by octets.length
decreasing_by
  have := size_of_readFrame _h
  simp only [headerSize] at this
  rw [List.length_drop]
  omega

/-- Cuts a stream into frames. -/
def cut (d : Decoder) (octets : Bytes) : Cuts :=
  d.cutFrom 0 octets

end Decoder

end SatWire
