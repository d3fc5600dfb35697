import SatWire.Fault
/-!
# Reading a buffer piece by piece

A cursor is a place in a buffer: its offset, which faults report, and the octets from there on.
Nothing before the cursor can be read again, so what a reader returns depends on the offset only
through the faults it reports.

* `take_append` — a piece that is there is taken, whatever stands behind it;
* `rest_of_take` and its companions — what was taken stood in front of what is left.
-/

namespace SatWire

/-- A place in a buffer. -/
structure Cursor where
  offset : Nat
  rest : Bytes
  deriving DecidableEq

namespace Cursor

/-- The place `offset` octets into a buffer; past its end nothing is left. -/
def ofOffset (buffer : Bytes) (offset : Nat) : Cursor :=
  ⟨offset, buffer.drop offset⟩

/-- The start of a buffer. -/
def start (buffer : Bytes) : Cursor :=
  ⟨0, buffer⟩

/-- The place behind the next `count` octets. -/
def skip (c : Cursor) (count : Nat) : Cursor :=
  ⟨c.offset + count, c.rest.drop count⟩

/-- The next `count` octets and the place behind them. -/
def take (c : Cursor) (count : Nat) (part : Part) : Except ParseError (Bytes × Cursor) :=
  let piece := c.rest.take count
  if piece.length = count then .ok (piece, c.skip count)
  else refuse (.bufferEnds part count c.offset c.rest.length)

/-- The next octet. -/
def takeOctet (c : Cursor) (part : Part) : Except ParseError (UInt8 × Cursor) :=
  match c.rest with
  | octet :: rest => .ok (octet, ⟨c.offset + 1, rest⟩)
  | [] => refuse (.bufferEnds part 1 c.offset 0)

/-- A number of `width` octets. -/
def takeNat (c : Cursor) (width : Nat) (part : Part) : Except ParseError (Nat × Cursor) :=
  (c.take width part).map fun (octets, next) => (BigEndian.toNat octets, next)

/-- A block: a 16-bit length, then that many octets.  Faults in the length and in the block itself
bear their own names. -/
def takeBlock (c : Cursor) (length body : Part) : Except ParseError (Bytes × Cursor) :=
  (c.takeNat 2 length).bind fun (size, next) => next.take size body

/-- A piece that was taken stood in front of what is left. -/
theorem rest_of_take {c next : Cursor} {count : Nat} {part : Part} {piece : Bytes}
    (h : c.take count part = .ok (piece, next)) :
    piece.length = count ∧ c.rest = piece ++ next.rest ∧ next.offset = c.offset + count := by
  simp only [take, refuse] at h
  split at h
  · cases h
    exact ⟨‹_›, by simp [skip], rfl⟩
  · cases h

/-- An octet that was taken stood in front of what is left. -/
theorem rest_of_takeOctet {c next : Cursor} {part : Part} {octet : UInt8}
    (h : c.takeOctet part = .ok (octet, next)) :
    c.rest = octet :: next.rest ∧ next.offset = c.offset + 1 := by
  simp only [takeOctet, refuse] at h
  split at h
  · cases h
    exact ⟨‹_›, rfl⟩
  · cases h

/-- A number takes up its width. -/
theorem rest_of_takeNat {c next : Cursor} {width n : Nat} {part : Part}
    (h : c.takeNat width part = .ok (n, next)) :
    c.rest.length = width + next.rest.length ∧ next.offset = c.offset + width := by
  simp only [takeNat] at h
  cases taken : c.take width part with
  | error fault => simp [taken, Except.map] at h
  | ok piece =>
    obtain ⟨octets, place⟩ := piece
    obtain ⟨size, rest, offset⟩ := rest_of_take taken
    simp only [taken, Except.map, Except.ok.injEq, Prod.mk.injEq] at h
    obtain ⟨-, rfl⟩ := h
    exact ⟨by rw [rest, List.length_append, size], offset⟩

/-- A block takes up its body and the two octets of its length. -/
theorem rest_of_takeBlock {c next : Cursor} {length body : Part} {block : Bytes}
    (h : c.takeBlock length body = .ok (block, next)) :
    c.rest.length = 2 + block.length + next.rest.length
      ∧ next.offset = c.offset + 2 + block.length := by
  simp only [takeBlock] at h
  cases taken : c.takeNat 2 length with
  | error fault => simp [taken, Except.bind] at h
  | ok piece =>
    obtain ⟨size, place⟩ := piece
    obtain ⟨first, start⟩ := rest_of_takeNat taken
    simp only [taken, Except.bind] at h
    obtain ⟨second, rest, offset⟩ := rest_of_take h
    have := congrArg List.length rest
    rw [List.length_append] at this
    exact ⟨by omega, by omega⟩

/-- A piece that stands in front is what is taken. -/
theorem take_append {part : Part} (offset : Nat) (piece rest : Bytes) :
    (Cursor.mk offset (piece ++ rest)).take piece.length part
      = .ok (piece, ⟨offset + piece.length, rest⟩) := by
  simp [take, skip]

end Cursor

end SatWire
