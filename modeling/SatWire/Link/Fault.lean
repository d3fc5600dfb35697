import SatWire.Fault
/-!
# What can be wrong between messages

A message may be fine alone and still not be allowed where it arrives: its number is not the next
one, or the state of the connection has no place for its category.
-/

namespace SatWire

/-- The states of a connection. -/
inductive LinkState where
  | disconnected
  | connecting
  | connected
  | disconnecting
  deriving DecidableEq, Repr

/-- The name of a state in reports. -/
def LinkState.name : LinkState → String
  | disconnected => "Disconnected"
  | connecting => "Connecting"
  | connected => "Connected"
  | disconnecting => "Disconnecting"

/-- The name of a category in reports. -/
def Category.name : Category → String
  | data => "Data"
  | control => "Control"
  | ack => "Ack"
  | nack => "Nack"

/-- What can be asked of a connection in one state only. -/
inductive LinkAction where
  | connect
  | disconnect
  | sendData
  deriving DecidableEq, Repr

namespace LinkAction

/-- An action in words. -/
def text : LinkAction → String
  | connect => "connect"
  | disconnect => "disconnect"
  | sendData => "send data"

/-- The state that an action requires. -/
def required : LinkAction → LinkState
  | connect => .disconnected
  | disconnect | sendData => .connected

/-- The category an action sends. -/
def category : LinkAction → Category
  | connect | sendData => .data
  | disconnect => .control

end LinkAction

/-- The kinds of link fault, in the order of their codes. -/
inductive LinkError.Kind where
  | versionMismatch
  | sequenceError
  | handshakeFailed
  | protocolTimeout
  | syncError
  | protocolViolation
  deriving DecidableEq, Repr

namespace LinkError.Kind

/-- The numeric code under which devices report the kind. -/
def code : Kind → Nat
  | versionMismatch => 100
  | sequenceError => 101
  | handshakeFailed => 102
  | protocolTimeout => 103
  | syncError => 104
  | protocolViolation => 105

/-- The words that introduce the kind. -/
def heading : Kind → String
  | versionMismatch => "protocol version mismatch"
  | sequenceError => "sequence error"
  | handshakeFailed => "handshake failed"
  | protocolTimeout => "protocol timeout"
  | syncError => "synchronization error"
  | protocolViolation => "protocol violation"

end LinkError.Kind

/-- A fault of a message against the link it arrives on. -/
inductive LinkError where
  /-- The sequence number is not the successor of the last one. -/
  | outOfSequence (received expected : UInt16)
  /-- The state has no move on the category. -/
  | notAllowed (category : Category) (state : LinkState)
  /-- The action is not possible in the state. -/
  | wrongState (action : LinkAction) (state : LinkState)
  /-- A fault found elsewhere, in its own words. -/
  | reported (kind : LinkError.Kind) (words : String)
  deriving DecidableEq

namespace LinkError

/-- The kind of the fault. -/
def kind : LinkError → Kind
  | outOfSequence .. => .sequenceError
  | notAllowed .. | wrongState .. => .protocolViolation
  | reported kind _ => kind

/-- The numeric code of the fault. -/
def code (e : LinkError) : Nat :=
  e.kind.code

/-- The fault in words, without its kind. -/
def text : LinkError → String
  | outOfSequence received expected => s!"received {received.toNat}, expected {expected.toNat}"
  | notAllowed category state => s!"{category.name} message not allowed in state {state.name}"
  | wrongState action state =>
    s!"cannot {action.text} in state {state.name}, requires {action.required.name}"
  | reported _ words => words

/-- The whole fault in words. -/
def message (e : LinkError) : String :=
  s!"{e.kind.heading}: {e.text}"

end LinkError

/-- What a session can fail with. -/
inductive SessionError where
  | parse (fault : ParseError)
  | link (fault : LinkError)
  deriving DecidableEq

namespace SessionError

/-- The numeric code of the fault. -/
def code : SessionError → Nat
  | parse fault => fault.code
  | link fault => fault.code

/-- The fault in words. -/
def message : SessionError → String
  | parse fault => fault.message
  | link fault => fault.message

end SessionError

end SatWire
