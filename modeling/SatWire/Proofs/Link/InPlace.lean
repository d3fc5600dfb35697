import SatWire.Proofs.InPlace
import SatWire.Proofs.Link.Calls

/-!
# Sessions changed in place

A device does not make a new session for each call; it changes the one it has, a part at a time.
Then the order of checks and changes matters, for what a call has changed stays changed if a later
check fails.

A `Script` spells out a call that way.  Every script ends as the call does on sessions that are
values: with the same answer, session and notices if the call succeeds, and with everything as it
was if it fails (`Script.carryOut_run`).  So no script changes anything before its last check.
-/

namespace SatWire

open Session (Call Reply)

/-- A session in use, and everything its observers were told so far. -/
structure Live (ω : Type) where
  session : Session ω
  told : List (Connection.Notice ω) := []

/-- What works on a session in place. -/
abbrev Script (ω α : Type) : Type :=
  InPlace SessionError (Live ω) α

/-- What a call is answered with. -/
inductive Answer where
  | done
  | message (m : Message)
  /-- The number and the frame of what was sent. -/
  | parcel (number : UInt16) (frame : Bytes)
  | state (state : LinkState)
  /-- Whether there was an observer. -/
  | observed (present : Bool)
  deriving DecidableEq

/-- The same reply with its answer told otherwise. -/
def Session.Reply.map {ω α β : Type} (f : α → β) (reply : Reply ω α) : Reply ω β :=
  ⟨f reply.answer, reply.session, reply.notices⟩

namespace Script

variable {ω α β : Type}

/-- Reads something off the session. -/
def look (f : Session ω → α) : Script ω α :=
  InPlace.look fun l => f l.session

/-- Asks the session something that it may refuse. -/
def check (f : Session ω → Except SessionError α) : Script ω α :=
  InPlace.check fun l => f l.session

/-- Changes the session. -/
def change (f : Session ω → Session ω) : Script ω Unit :=
  modify fun l => { l with session := f l.session }

/-- Moves the connection, and then tells the observer of the state that it moved to. -/
def enter (category : Category) (next : LinkState) : Script ω Unit := do
  let move ← look fun s => ⟨s.connection.state, category, next⟩
  change fun s => { s with connection := { s.connection with state := next } }
  modify fun l =>
    let notices := ((l.session.connection.observer next).map fun label => ⟨label, move⟩).toList
    { l with told := l.told ++ notices }

/-- Moves the connection on a category, if the table has a move for it. -/
def handle (category : Category) : Script ω LinkState := do
  let next ← check fun s => Session.liftLink (s.connection.nextState category)
  enter category next
  return next

/-- Takes an action, if the connection is in the state that it requires. -/
def perform (action : LinkAction) : Script ω LinkState := do
  check fun s => Session.liftLink (s.connection.require action)
  handle action.category

/-- Takes a frame: four checks, then the number is committed and the connection moved. -/
def receive (frame : Bytes) (number : UInt16) (mode : PowerMode) : Script ω Message := do
  check fun s => Session.liftParse (s.settings.sizeLimits.check frame.length mode)
  let m ← check fun s => Session.liftParse (s.decoder.decode frame)
  let category ← look fun s => s.classify m
  check fun s => Session.liftLink (s.history.check number)
  let next ← check fun s => Session.liftLink (s.connection.nextState category)
  change fun s => { s with history := s.history.commit number }
  enter category next
  return { m with category }

/-- Sends a message: four checks, then the connection is moved, which checks once more, and a number
is handed out. -/
def send (m : Message) (mode : PowerMode) : Script ω (UInt16 × Bytes) := do
  check fun s => Session.liftLink (s.connection.require .sendData)
  let _ ← check fun s => Session.liftParse (s.registry.conform m)
  let frame ← check fun _ => Session.liftParse m.encode
  check fun s => Session.liftParse (s.settings.sizeLimits.check frame.length mode)
  let _ ← perform .sendData
  let number ← look fun s => s.outbound.next.1
  change fun s => { s with outbound := s.outbound.next.2 }
  return (number, frame)

/-- The script of a call. -/
def carryOut : Call ω → Script ω Answer
  | .receive frame number mode => do
    let m ← receive frame number mode
    return .message m
  | .send m mode => do
    let (number, frame) ← send m mode
    return .parcel number frame
  | .reset => do
    change Session.reset
    return .done
  | .classify f => do
    change fun s => { s with classify := f }
    return .done
  | .handle category => do
    let next ← handle category
    return .state next
  | .perform action => do
    let next ← perform action
    return .state next
  | .observe state label => do
    change fun s => { s with connection := s.connection.observe state label }
    return .done
  | .ignore state => do
    let present ← look fun s => (s.connection.ignore state).1
    change fun s => { s with connection := (s.connection.ignore state).2 }
    return .observed present

end Script

namespace Session

variable {ω : Type}

/-- A move of the connection as a reply of the session. -/
def moved (s : Session ω) (made : Connection ω × List (Connection.Notice ω)) :
    Reply ω LinkState :=
  ⟨made.1.state, { s with connection := made.1 }, made.2⟩

/-- The reply to a call. -/
def reply (s : Session ω) : Call ω → Except SessionError (Reply ω Answer)
  | .receive frame number mode => (s.receive frame number mode).map (Reply.map .message)
  | .send m mode =>
    (s.send m mode).map (Reply.map fun (number, frame) => .parcel number frame)
  | .reset => .ok ⟨.done, s.reset, []⟩
  | .classify f => .ok ⟨.done, { s with classify := f }, []⟩
  | .handle category =>
    ((liftLink (s.connection.handle category)).map s.moved).map (Reply.map .state)
  | .perform action =>
    ((liftLink (s.connection.perform action)).map s.moved).map (Reply.map .state)
  | .observe state label => .ok ⟨.done, { s with connection := s.connection.observe state label }, []⟩
  | .ignore state =>
    let (present, connection) := s.connection.ignore state
    .ok ⟨.observed present, { s with connection }, []⟩

/-- The session after a call is the one that the reply leaves, and the same one if there is none. -/
theorem after_eq (s : Session ω) (call : Call ω) :
    s.after call = match s.reply call with
      | .ok reply => reply.session
      | .error _ => s := by
  cases call with
  | receive frame number mode =>
      rw [after, reply]
      cases s.receive frame number mode <;> rfl
  | send m mode =>
      rw [after, reply]
      cases s.send m mode <;> rfl
  | handle category =>
      rw [after, reply]
      cases s.connection.handle category <;> rfl
  | perform action =>
      rw [after, reply]
      cases s.connection.perform action <;> rfl
  | reset | classify | observe | ignore => rfl

end Session

/-- A session in use after a reply, or without one. -/
def Live.settle {ω α : Type} (l : Live ω) (r : Except SessionError (Reply ω α)) :
    Except SessionError α × Live ω :=
  InPlace.settle l (r.map fun reply => (reply.answer, ⟨reply.session, l.told ++ reply.notices⟩))

namespace Script

variable {ω α β : Type} {l : Live ω}

/-- What follows a look starts from the same session. -/
theorem look_bind (f : Session ω → β) (script : β → Script ω α) :
    (look f >>= script).run l = (script (f l.session)).run l :=
  InPlace.look_bind _ script l

/-- A script that begins with a check ends as the reply does if it does so after the check. -/
theorem check_bind {f : Session ω → Except SessionError β} {script : β → Script ω α}
    {reply : β → Except SessionError (Reply ω α)}
    (hrest : ∀ b, (script b).run l = l.settle (reply b)) :
    (check f >>= script).run l = l.settle (f l.session >>= reply) := by
  refine (InPlace.settle_check hrest).trans (congrArg (InPlace.settle l) ?_)
  cases f l.session <;> rfl

/-- What fails for the frame first fails for it within the session. -/
theorem liftParse_bind {r : Except ParseError α} {f : α → Except ParseError β} :
    Session.liftParse (r.bind f) = Session.liftParse r >>= fun a => Session.liftParse (f a) := by
  cases r <;> rfl

/-- Telling an answer otherwise changes nothing else. -/
theorem bind_pure_settle {script : Script ω α} {f : α → β}
    {reply : Except SessionError (Reply ω α)} (hscript : script.run l = l.settle reply) :
    (script >>= fun a => pure (f a)).run l = l.settle (reply.map (Reply.map f)) := by
  refine (InPlace.settle_bind_pure hscript f).trans (congrArg (InPlace.settle l) ?_)
  cases reply <;> rfl

/-- Moving in place is moving. -/
theorem enter_run (category : Category) (next : LinkState) (l : Live ω) :
    (enter category next).run l
      = (.ok (), ⟨{ l.session with connection := (l.session.connection.enter category next).1 },
          l.told ++ (l.session.connection.enter category next).2⟩) :=
  rfl

/-- Handling in place is handling. -/
theorem handle_run (category : Category) (l : Live ω) :
    (handle category).run l
      = l.settle ((Session.liftLink (l.session.connection.handle category)).map l.session.moved) := by
  have hrest : ∀ next, (enter category next >>= fun _ => pure next).run l
      = l.settle (.ok (l.session.moved (l.session.connection.enter category next))) := by
    intro next
    rw [InPlace.bind_of_ok (enter_run category next l)]
    rfl
  refine (check_bind hrest).trans (congrArg l.settle ?_)
  unfold Connection.handle
  cases l.session.connection.nextState category <;> rfl

/-- Acting in place is acting. -/
theorem perform_run (action : LinkAction) (l : Live ω) :
    (perform action).run l
      = l.settle ((Session.liftLink (l.session.connection.perform action)).map l.session.moved) := by
  refine (check_bind fun _ => handle_run action.category l).trans (congrArg l.settle ?_)
  unfold Connection.perform
  cases l.session.connection.require action <;> rfl

/-- **Receiving in place** is receiving. -/
theorem receive_run (frame : Bytes) (number : UInt16) (mode : PowerMode) (l : Live ω) :
    (receive frame number mode).run l = l.settle (l.session.receive frame number mode) := by
  apply check_bind
  intro _
  apply check_bind
  intro m
  rw [look_bind]
  apply check_bind
  intro _
  apply check_bind
  intro next
  -- Nothing is checked any more.  The connection does not look at the number committed before it.
  let committed : Session ω :=
    { l.session with history := l.session.history.commit number }
  have hchange : (change fun s => { s with history := s.history.commit number }).run l
      = (.ok (), { l with session := committed }) := rfl
  rw [InPlace.bind_of_ok hchange, InPlace.bind_of_ok (enter_run _ next _)]
  rfl

/-- **Sending in place** is sending. -/
theorem send_run (m : Message) (mode : PowerMode) (l : Live ω) :
    (send m mode).run l = l.settle (l.session.send m mode) := by
  apply check_bind
  intro _
  unfold Message.encodeChecked
  rw [liftParse_bind, bind_assoc]
  apply check_bind
  intro _
  apply check_bind
  intro frame
  apply check_bind
  intro _
  have hperform := perform_run .sendData l
  cases hmove : l.session.connection.perform .sendData with
  | ok made =>
      rw [hmove] at hperform
      rw [InPlace.bind_of_ok hperform]
      rfl
  | error fault =>
      rw [hmove] at hperform
      rw [InPlace.bind_of_error hperform]
      rfl

/-- **What a script leaves is the reply to its call**, and everything as it was if there is none. -/
theorem carryOut_run (call : Call ω) (l : Live ω) :
    (carryOut call).run l = l.settle (l.session.reply call) := by
  cases call with
  | receive frame number mode => exact bind_pure_settle (receive_run frame number mode l)
  | send m mode => exact bind_pure_settle (send_run m mode l)
  | handle category => exact bind_pure_settle (handle_run category l)
  | perform action => exact bind_pure_settle (perform_run action l)
  | reset | classify f | observe state label | ignore state =>
      simp only [Session.reply, Live.settle, Except.map, InPlace.settle, List.append_nil]
      rfl

/-- A script leaves the session that its call leaves. -/
theorem session_carryOut (call : Call ω) (l : Live ω) :
    ((carryOut call).run l).2.session = l.session.after call := by
  rw [carryOut_run, Session.after_eq]
  cases l.session.reply call <;> rfl

end Script

end SatWire
