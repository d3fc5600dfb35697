import SatWire.Link.Fault
/-!
# Connections and their observers

A connection moves between four states on the categories of messages; `target` is the whole table.
At most one observer is attached to each state.  It is told of every move into its state, moves
from the state to itself included, after the move was made.
-/

namespace SatWire

/-- The state a category leads to, if it is allowed. -/
def LinkState.target : LinkState → Category → Option LinkState
  | disconnected, .data => some connecting
  | connecting, .ack => some connected
  | connecting, .nack => some disconnecting
  | connected, .control => some disconnecting
  | connected, .data => some connected
  | connected, .ack => some connected
  | disconnecting, .nack => some disconnected
  | _, _ => none

/-- A move of a connection. -/
structure Move where
  source : LinkState
  category : Category
  target : LinkState
  deriving DecidableEq, Repr

/-- A state and the observer of each state.  Observers are known by labels of type `ω`. -/
structure Connection (ω : Type) where
  state : LinkState := .disconnected
  observer : LinkState → Option ω := fun _ => none

namespace Connection

variable {ω : Type}

/-- A move as told to an observer. -/
structure Notice (ω : Type) where
  observer : ω
  move : Move
  deriving DecidableEq

/-- The state that a category leads to. -/
def nextState (c : Connection ω) (category : Category) : Except LinkError LinkState :=
  match c.state.target category with
  | some next => .ok next
  | none => .error (.notAllowed category c.state)

/-- Makes a move, and tells the observer of the state it leads to. -/
def enter (c : Connection ω) (category : Category) (next : LinkState) :
    Connection ω × List (Notice ω) :=
  ({ c with state := next },
    ((c.observer next).map fun label => ⟨label, ⟨c.state, category, next⟩⟩).toList)

/-- Makes the move of a category, if the table has one. -/
def handle (c : Connection ω) (category : Category) :
    Except LinkError (Connection ω × List (Notice ω)) :=
  (c.nextState category).map fun next => c.enter category next

/-- Refuses an action outside the state it requires. -/
def require (c : Connection ω) (action : LinkAction) : Except LinkError Unit :=
  if c.state = action.required then .ok () else .error (.wrongState action c.state)

/-- Connects, disconnects or sends data: the move of the action's category, in its state only. -/
def perform (c : Connection ω) (action : LinkAction) :
    Except LinkError (Connection ω × List (Notice ω)) :=
  (c.require action).bind fun () => c.handle action.category

/-- Attaches an observer to a state, in place of the one there. -/
def observe (c : Connection ω) (state : LinkState) (label : ω) : Connection ω :=
  { c with observer := fun s => if s = state then some label else c.observer s }

/-- Detaches the observer of a state, and tells whether there was one. -/
def ignore (c : Connection ω) (state : LinkState) : Bool × Connection ω :=
  ((c.observer state).isSome,
    { c with observer := fun s => if s = state then none else c.observer s })

/-- The states that have an observer. -/
def observed (c : Connection ω) : List LinkState :=
  [.disconnected, .connecting, .connected, .disconnecting].filter fun s => (c.observer s).isSome

/-- The connection as diagnostics show it. -/
def summary (c : Connection ω) : String :=
  let states := ", ".intercalate (c.observed.map LinkState.name)
  "ConnectionStateMachine \x7b state: " ++ c.state.name ++ ", callbacks: [" ++ states ++ "] \x7d"

end Connection

end SatWire
