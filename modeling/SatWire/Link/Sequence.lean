import SatWire.Link.Fault
/-!
# Sequence numbers

Numbers run through all 16-bit words and start over.  A receiver takes any number first and then
only the successor of the last one it took; a sender hands out each number and moves on.
-/

namespace SatWire

/-- What a receiver remembers: the last number it took, if it took any. -/
structure History where
  last : Option UInt16 := none
  deriving DecidableEq, Repr

namespace History

/-- The only number that will be taken next, if there is a last one. -/
def expected (h : History) : Option UInt16 :=
  h.last.map (· + 1)

/-- Whether a number may come next. -/
def check (h : History) (number : UInt16) : Except LinkError Unit :=
  match h.expected with
  | none => .ok ()
  | some next => if number = next then .ok () else .error (.outOfSequence number next)

/-- The memory after taking a number. -/
def commit (_ : History) (number : UInt16) : History :=
  ⟨some number⟩

/-- Takes a number if it may come next. -/
def take (h : History) (number : UInt16) : Except LinkError History :=
  (h.check number).map fun () => h.commit number

end History

/-- The number that a sender hands out next. -/
structure Counter where
  current : UInt16 := 0
  deriving DecidableEq, Repr

/-- Hands out a number and moves on to its successor. -/
def Counter.next (c : Counter) : UInt16 × Counter :=
  (c.current, ⟨c.current + 1⟩)

end SatWire
