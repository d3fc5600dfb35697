import SatWire.Frame.Decode
import SatWire.Frame.Encode
import SatWire.Link.Connection
import SatWire.Link.Sequence
/-!
# Sessions

A session joins a registry, the settings, the numbers received, the numbers sent and a connection.
Receiving and sending make all their checks first and change the session last, so a call that fails
changes nothing.
-/

namespace SatWire

/-- One end of a link. -/
structure Session (ω : Type) where
  registry : Registry
  settings : LinkSettings := {}
  /-- The part a received message plays; without other advice, the one it carries. -/
  classify : Message → Category := Message.category
  history : History := {}
  connection : Connection ω := {}
  outbound : Counter := {}

namespace Session

variable {ω : Type}

/-- The decoder that the settings call for. -/
def decoder (s : Session ω) : Decoder :=
  ⟨s.registry, s.settings.maxNesting.toNat⟩

/-- A fault of one message as a fault of the session. -/
def liftParse (r : Except ParseError α) : Except SessionError α :=
  r.mapError .parse

/-- A fault of the link as a fault of the session. -/
def liftLink (r : Except LinkError α) : Except SessionError α :=
  r.mapError .link

/-- What an accepted call leaves: an answer, the session after it, and what observers were told. -/
structure Reply (ω α : Type) where
  answer : α
  session : Session ω
  notices : List (Connection.Notice ω)

/-- Takes a frame with its number.  The checks, in order: size, frame, number, connection. -/
def receive (s : Session ω) (frame : Bytes) (number : UInt16) (mode : PowerMode) :
    Except SessionError (Reply ω Message) := do
  liftParse (s.settings.sizeLimits.check frame.length mode)
  let m ← liftParse (s.decoder.decode frame)
  let category := s.classify m
  liftLink (s.history.check number)
  let next ← liftLink (s.connection.nextState category)
  let (connection, notices) := s.connection.enter category next
  return { answer := { m with category }, notices,
           session := { s with history := s.history.commit number, connection } }

/-- Sends a message and tells its number and frame.  The checks, in order: connection, schema,
encoding, size. -/
def send (s : Session ω) (m : Message) (mode : PowerMode) :
    Except SessionError (Reply ω (UInt16 × Bytes)) := do
  liftLink (s.connection.require .sendData)
  let frame ← liftParse (m.encodeChecked s.registry)
  liftParse (s.settings.sizeLimits.check frame.length mode)
  let (connection, notices) ← liftLink (s.connection.perform .sendData)
  let (number, outbound) := s.outbound.next
  return { answer := (number, frame), notices, session := { s with connection, outbound } }

/-- Forgets the numbers received. -/
def reset (s : Session ω) : Session ω :=
  { s with history := {} }

/-- The session as diagnostics show it. -/
def summary (s : Session ω) : String :=
  let last :=
    match s.history.last with
    | some number => "Some(" ++ toString number.toNat ++ ")"
    | none => "None"
  "ProtocolSession \x7b schema_entries: " ++ toString s.registry.size
    ++ ", limits: MessageSizeLimits \x7b normal: " ++ toString s.settings.sizeLimits.normal.toNat
    ++ ", low_power: " ++ toString s.settings.sizeLimits.lowPower.toNat
    ++ " \x7d, max_nesting_depth: " ++ toString s.settings.maxNesting.toNat
    ++ ", sequence: SequenceState \x7b last_sequence: " ++ last
    ++ " \x7d, connection: " ++ s.connection.summary
    ++ ", next_outbound: " ++ toString s.outbound.current.toNat ++ ", .. \x7d"

end Session

end SatWire
