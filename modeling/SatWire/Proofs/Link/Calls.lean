import SatWire.Link.Session
import SatWire.Proofs.Outcome

/-!
# Calls on a session

What a session can be asked, as data, and the session after it.  A call that fails leaves the
session as it was, whatever call it is.

Receiving and sending succeed exactly if all their checks do, and then tell everything that they
leave (`receive_eq_ok_iff`, `send_eq_ok_iff`); nothing later looks inside them.
-/

namespace SatWire

/-- A number may come next if there is no last one, or if it is the successor. -/
theorem History.check_eq_ok_iff {h : History} {number : UInt16} :
    h.check number = .ok () ↔ ∀ next, h.expected = some next → number = next := by
  unfold History.check
  cases h.expected with
  | none => simp
  | some next =>
      by_cases hsame : number = next <;> simp [hsame]

namespace Connection

variable {ω : Type} {c : Connection ω} {category : Category} {action : LinkAction}
  {next : LinkState}

/-- The table says where a category leads. -/
theorem nextState_of_some (hmove : c.state.target category = some next) :
    c.nextState category = .ok next := by
  unfold nextState
  rw [hmove]

/-- An action is allowed in the state that it requires. -/
theorem require_of_eq (hstate : c.state = action.required) : c.require action = .ok () :=
  if_pos hstate

/-- In any other state it is refused, and both states are told. -/
theorem require_of_ne (hstate : c.state ≠ action.required) :
    c.require action = .error (.wrongState action c.state) :=
  if_neg hstate

/-- In the state that it requires, an action is the move of its category. -/
theorem perform_of_eq (hstate : c.state = action.required)
    (hmove : c.state.target action.category = some next) :
    c.perform action = .ok (c.enter action.category next) := by
  unfold perform handle
  rw [require_of_eq hstate, nextState_of_some hmove]
  rfl

end Connection

namespace Session

variable {ω : Type} {s : Session ω}

/-- Something that a session can be asked. -/
inductive Call (ω : Type) where
  | receive (frame : Bytes) (number : UInt16) (mode : PowerMode)
  | send (m : Message) (mode : PowerMode)
  | reset
  /-- Another classifier for the messages received from now on. -/
  | classify (f : Message → Category)
  /-- The move of a category, asked of the connection. -/
  | handle (category : Category)
  /-- An action, asked of the connection. -/
  | perform (action : LinkAction)
  | observe (state : LinkState) (label : ω)
  | ignore (state : LinkState)

/-- The session with a new connection, if the connection accepted what it was asked. -/
def withConnection (s : Session ω)
    (r : Except LinkError (Connection ω × List (Connection.Notice ω))) : Session ω :=
  match r with
  | .ok (connection, _) => { s with connection }
  | .error _ => s

/-- The session after a call. -/
def after (s : Session ω) : Call ω → Session ω
  | .receive frame number mode =>
    match s.receive frame number mode with
    | .ok reply => reply.session
    | .error _ => s
  | .send m mode =>
    match s.send m mode with
    | .ok reply => reply.session
    | .error _ => s
  | .reset => s.reset
  | .classify f => { s with classify := f }
  | .handle category => s.withConnection (s.connection.handle category)
  | .perform action => s.withConnection (s.connection.perform action)
  | .observe state label => { s with connection := s.connection.observe state label }
  | .ignore state => { s with connection := (s.connection.ignore state).2 }

/-- Faults of parsing are passed on, and successes as they are. -/
theorem liftParse_eq_ok_iff {α : Type} {r : Except ParseError α} {a : α} :
    liftParse r = .ok a ↔ r = .ok a :=
  mapError_eq_ok_iff

/-- Faults of the link are passed on, and successes as they are. -/
theorem liftLink_eq_ok_iff {α : Type} {r : Except LinkError α} {a : α} :
    liftLink r = .ok a ↔ r = .ok a :=
  mapError_eq_ok_iff

/-- The reply to a frame that passed every check. -/
def accept (s : Session ω) (m : Message) (number : UInt16) (next : LinkState) :
    Reply ω Message where
  answer := { m with category := s.classify m }
  session :=
    { s with history := s.history.commit number,
             connection := (s.connection.enter (s.classify m) next).1 }
  notices := (s.connection.enter (s.classify m) next).2

/-- Without other advice the message stays as it came. -/
theorem answer_accept (hplain : s.classify = Message.category) (m : Message) (number : UInt16)
    (next : LinkState) : (s.accept m number next).answer = m := by
  unfold accept
  rw [hplain]
  cases m
  rfl

/-- **Receiving.**  A frame is accepted exactly if its size, its content, its number and the state
of the connection allow it. -/
theorem receive_eq_ok_iff {frame : Bytes} {number : UInt16} {mode : PowerMode}
    {reply : Reply ω Message} :
    s.receive frame number mode = .ok reply ↔
      ∃ m next, s.settings.sizeLimits.check frame.length mode = .ok ()
        ∧ s.decoder.decode frame = .ok m ∧ s.history.check number = .ok ()
        ∧ s.connection.nextState (s.classify m) = .ok next ∧ s.accept m number next = reply := by
  constructor
  · intro h
    obtain ⟨_, hsize, h⟩ := bind_eq_ok_iff.mp h
    obtain ⟨m, hdecode, h⟩ := bind_eq_ok_iff.mp h
    obtain ⟨_, hnumber, h⟩ := bind_eq_ok_iff.mp h
    obtain ⟨next, hnext, h⟩ := bind_eq_ok_iff.mp h
    exact ⟨m, next, liftParse_eq_ok_iff.mp hsize, liftParse_eq_ok_iff.mp hdecode,
      liftLink_eq_ok_iff.mp hnumber, liftLink_eq_ok_iff.mp hnext, Except.ok.inj h⟩
  · rintro ⟨m, next, hsize, hdecode, hnumber, hnext, rfl⟩
    exact bind_eq_ok_iff.mpr ⟨(), liftParse_eq_ok_iff.mpr hsize,
      bind_eq_ok_iff.mpr ⟨m, liftParse_eq_ok_iff.mpr hdecode,
        bind_eq_ok_iff.mpr ⟨(), liftLink_eq_ok_iff.mpr hnumber,
          bind_eq_ok_iff.mpr ⟨next, liftLink_eq_ok_iff.mpr hnext, rfl⟩⟩⟩⟩

/-- The reply to a message that passed every check. -/
def dispatch (s : Session ω) (frame : Bytes) (connection : Connection ω)
    (notices : List (Connection.Notice ω)) : Reply ω (UInt16 × Bytes) where
  answer := (s.outbound.current, frame)
  session := { s with connection, outbound := ⟨s.outbound.current + 1⟩ }
  notices := notices

/-- **Sending.**  A message is sent exactly if the connection, the schema and the size of its frame
allow it. -/
theorem send_eq_ok_iff {m : Message} {mode : PowerMode} {reply : Reply ω (UInt16 × Bytes)} :
    s.send m mode = .ok reply ↔
      ∃ frame connection notices, s.connection.require .sendData = .ok ()
        ∧ m.encodeChecked s.registry = .ok frame
        ∧ s.settings.sizeLimits.check frame.length mode = .ok ()
        ∧ s.connection.perform .sendData = .ok (connection, notices)
        ∧ s.dispatch frame connection notices = reply := by
  constructor
  · intro h
    obtain ⟨_, hstate, h⟩ := bind_eq_ok_iff.mp h
    obtain ⟨frame, hencode, h⟩ := bind_eq_ok_iff.mp h
    obtain ⟨_, hsize, h⟩ := bind_eq_ok_iff.mp h
    obtain ⟨⟨connection, notices⟩, hmove, h⟩ := bind_eq_ok_iff.mp h
    exact ⟨frame, connection, notices, liftLink_eq_ok_iff.mp hstate,
      liftParse_eq_ok_iff.mp hencode, liftParse_eq_ok_iff.mp hsize, liftLink_eq_ok_iff.mp hmove,
      Except.ok.inj h⟩
  · rintro ⟨frame, connection, notices, hstate, hencode, hsize, hmove, rfl⟩
    exact bind_eq_ok_iff.mpr ⟨(), liftLink_eq_ok_iff.mpr hstate,
      bind_eq_ok_iff.mpr ⟨frame, liftParse_eq_ok_iff.mpr hencode,
        bind_eq_ok_iff.mpr ⟨(), liftParse_eq_ok_iff.mpr hsize,
          bind_eq_ok_iff.mpr ⟨(connection, notices), liftLink_eq_ok_iff.mpr hmove, rfl⟩⟩⟩⟩

/-- What a call leaves as it was: a session keeps its registry and its settings for good, and each
other part changes only by the calls that are about it. -/
structure Kept (s : Session ω) (call : Call ω) (t : Session ω) : Prop where
  registry : t.registry = s.registry
  settings : t.settings = s.settings
  classify : (∀ f, call ≠ .classify f) → t.classify = s.classify
  history : (∀ frame number mode, call ≠ .receive frame number mode) → call ≠ .reset →
    t.history = s.history
  outbound : (∀ m mode, call ≠ .send m mode) → t.outbound = s.outbound

/-- What only changes the connection keeps everything else. -/
theorem Kept.of_connection {call : Call ω} (connection : Connection ω) :
    Kept s call { s with connection } :=
  ⟨rfl, rfl, fun _ => rfl, fun _ _ => rfl, fun _ => rfl⟩

/-- A move changes the connection alone, and one that fails changes nothing. -/
theorem Kept.of_withConnection {call : Call ω}
    (r : Except LinkError (Connection ω × List (Connection.Notice ω))) :
    Kept s call (s.withConnection r) := by
  cases r with
  | ok made => exact .of_connection made.1
  | error fault => exact .of_connection s.connection

/-- **Each call keeps what it is not about.** -/
theorem kept_after (call : Call ω) : Kept s call (s.after call) := by
  cases call with
  | receive frame number mode =>
      rw [after]
      split
      · rename_i reply hreceive
        obtain ⟨m, next, -, -, -, -, rfl⟩ := receive_eq_ok_iff.mp hreceive
        exact ⟨rfl, rfl, fun _ => rfl, fun hother _ => absurd rfl (hother frame number mode),
          fun _ => rfl⟩
      · exact .of_connection s.connection
  | send m mode =>
      rw [after]
      split
      · rename_i reply hsend
        obtain ⟨frame, connection, notices, -, -, -, -, rfl⟩ := send_eq_ok_iff.mp hsend
        exact ⟨rfl, rfl, fun _ => rfl, fun _ _ => rfl, fun hother => absurd rfl (hother m mode)⟩
      · exact .of_connection s.connection
  | reset => exact ⟨rfl, rfl, fun _ => rfl, fun _ hother => absurd rfl hother, fun _ => rfl⟩
  | classify f =>
      exact ⟨rfl, rfl, fun hother => absurd rfl (hother f), fun _ _ => rfl, fun _ => rfl⟩
  | handle category => exact .of_withConnection _
  | perform action => exact .of_withConnection _
  | observe state label => exact .of_connection _
  | ignore state => exact .of_connection _

end Session

end SatWire
