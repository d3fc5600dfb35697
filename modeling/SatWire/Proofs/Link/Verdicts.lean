import SatWire.Proofs.Link.InPlace

/-!
# Which calls succeed

A call is made of checks in an order, and its fault is that of the first check that fails.
`Accepts` and `Refuses` say so call by call, in terms of sizes, numbers and the table of states.
Every call meets one of the two (`accepts_or_refuses`), and the reply follows (`reply_eq_ok_iff`,
`reply_eq_error_iff`).
-/

namespace SatWire

open Session (Call)

/-- A frame within the ceiling passes. -/
theorem SizeLimits.check_of_le {l : SizeLimits} {size : Nat} {mode : PowerMode}
    (hsize : size ≤ (l.limit mode).toNat) : l.check size mode = .ok () :=
  if_neg (Nat.not_lt.mpr hsize)

/-- A frame above the ceiling is refused with its size and the ceiling. -/
theorem SizeLimits.check_of_lt {l : SizeLimits} {size : Nat} {mode : PowerMode}
    (hsize : (l.limit mode).toNat < size) :
    l.check size mode = .error ⟨[], .overCeiling size (l.limit mode).toNat mode⟩ :=
  if_pos hsize

/-- A number that is not expected is refused with the one that is. -/
theorem History.check_of_ne {h : History} {number next : UInt16} (hnext : h.expected = some next)
    (hother : number ≠ next) : h.check number = .error (.outOfSequence number next) := by
  unfold History.check
  rw [hnext]
  exact if_neg hother

/-- Each action finds a move in the state that it requires. -/
theorem LinkAction.target_required (action : LinkAction) :
    ∃ next, action.required.target action.category = some next := by
  cases action <;> exact ⟨_, rfl⟩

namespace Connection

variable {ω : Type} {c : Connection ω} {category : Category} {action : LinkAction}

/-- Where the table leads nowhere the category is not allowed. -/
theorem nextState_of_none (hmove : c.state.target category = none) :
    c.nextState category = .error (.notAllowed category c.state) := by
  unfold nextState
  rw [hmove]

/-- A category is handled by entering where the table leads. -/
theorem handle_of_some {next : LinkState} (hmove : c.state.target category = some next) :
    c.handle category = .ok (c.enter category next) := by
  unfold handle
  rw [nextState_of_some hmove]
  rfl

/-- A category that leads nowhere is refused. -/
theorem handle_of_none (hmove : c.state.target category = none) :
    c.handle category = .error (.notAllowed category c.state) := by
  unfold handle
  rw [nextState_of_none hmove]
  rfl

/-- An action that the state does not allow is refused before it is handled. -/
theorem perform_of_ne (hstate : c.state ≠ action.required) :
    c.perform action = .error (.wrongState action c.state) := by
  unfold perform
  rw [require_of_ne hstate]
  rfl

end Connection

namespace Session

variable {ω : Type} {s : Session ω}

/-- Calls that succeed, with their replies. -/
inductive Accepts (s : Session ω) : Call ω → Reply ω Answer → Prop
  | receive {frame : Bytes} {number : UInt16} {mode : PowerMode} {m : Message} {next : LinkState}
      (hsize : frame.length ≤ (s.settings.sizeLimits.limit mode).toNat)
      (hframe : s.decoder.decode frame = .ok m)
      (hnumber : ∀ next, s.history.expected = some next → number = next)
      (hmove : s.connection.state.target (s.classify m) = some next) :
      Accepts s (.receive frame number mode) ((s.accept m number next).map .message)
  | send {m : Message} {mode : PowerMode} {entry : SchemaEntry} {frame : Bytes}
      (hstate : s.connection.state = .connected)
      (hconform : s.registry.conform m = .ok entry)
      (hencode : m.encode = .ok frame)
      (hsize : frame.length ≤ (s.settings.sizeLimits.limit mode).toNat) :
      Accepts s (.send m mode)
        ((s.dispatch frame (s.connection.enter .data .connected).1
          (s.connection.enter .data .connected).2).map fun (number, frame) => .parcel number frame)
  | handle {category : Category} {next : LinkState}
      (hmove : s.connection.state.target category = some next) :
      Accepts s (.handle category) ((s.moved (s.connection.enter category next)).map .state)
  | perform {action : LinkAction} {next : LinkState}
      (hstate : s.connection.state = action.required)
      (hmove : s.connection.state.target action.category = some next) :
      Accepts s (.perform action) ((s.moved (s.connection.enter action.category next)).map .state)
  | reset : Accepts s .reset ⟨.done, s.reset, []⟩
  | classify (f : Message → Category) : Accepts s (.classify f) ⟨.done, { s with classify := f }, []⟩
  | observe (state : LinkState) (label : ω) :
      Accepts s (.observe state label)
        ⟨.done, { s with connection := s.connection.observe state label }, []⟩
  | ignore (state : LinkState) :
      Accepts s (.ignore state)
        ⟨.observed (s.connection.ignore state).1,
          { s with connection := (s.connection.ignore state).2 }, []⟩

/-- Calls that fail, with their faults: what comes before the fault was fine. -/
inductive Refuses (s : Session ω) : Call ω → SessionError → Prop
  | tooLong {frame : Bytes} {number : UInt16} {mode : PowerMode}
      (hsize : (s.settings.sizeLimits.limit mode).toNat < frame.length) :
      Refuses s (.receive frame number mode)
        (.parse ⟨[], .overCeiling frame.length (s.settings.sizeLimits.limit mode).toNat mode⟩)
  | unreadable {frame : Bytes} {number : UInt16} {mode : PowerMode} {fault : ParseError}
      (hsize : frame.length ≤ (s.settings.sizeLimits.limit mode).toNat)
      (hframe : s.decoder.decode frame = .error fault) :
      Refuses s (.receive frame number mode) (.parse fault)
  | unexpected {frame : Bytes} {number next : UInt16} {mode : PowerMode} {m : Message}
      (hsize : frame.length ≤ (s.settings.sizeLimits.limit mode).toNat)
      (hframe : s.decoder.decode frame = .ok m)
      (hnext : s.history.expected = some next) (hnumber : number ≠ next) :
      Refuses s (.receive frame number mode) (.link (.outOfSequence number next))
  | misplaced {frame : Bytes} {number : UInt16} {mode : PowerMode} {m : Message}
      (hsize : frame.length ≤ (s.settings.sizeLimits.limit mode).toNat)
      (hframe : s.decoder.decode frame = .ok m)
      (hnumber : ∀ next, s.history.expected = some next → number = next)
      (hmove : s.connection.state.target (s.classify m) = none) :
      Refuses s (.receive frame number mode)
        (.link (.notAllowed (s.classify m) s.connection.state))
  | unconnected {m : Message} {mode : PowerMode} (hstate : s.connection.state ≠ .connected) :
      Refuses s (.send m mode) (.link (.wrongState .sendData s.connection.state))
  | nonconforming {m : Message} {mode : PowerMode} {fault : ParseError}
      (hstate : s.connection.state = .connected)
      (hconform : s.registry.conform m = .error fault) :
      Refuses s (.send m mode) (.parse fault)
  | unwritable {m : Message} {mode : PowerMode} {entry : SchemaEntry} {fault : ParseError}
      (hstate : s.connection.state = .connected)
      (hconform : s.registry.conform m = .ok entry) (hencode : m.encode = .error fault) :
      Refuses s (.send m mode) (.parse fault)
  | tooLongToSend {m : Message} {mode : PowerMode} {entry : SchemaEntry} {frame : Bytes}
      (hstate : s.connection.state = .connected)
      (hconform : s.registry.conform m = .ok entry) (hencode : m.encode = .ok frame)
      (hsize : (s.settings.sizeLimits.limit mode).toNat < frame.length) :
      Refuses s (.send m mode)
        (.parse ⟨[], .overCeiling frame.length (s.settings.sizeLimits.limit mode).toNat mode⟩)
  | notAllowed {category : Category} (hmove : s.connection.state.target category = none) :
      Refuses s (.handle category) (.link (.notAllowed category s.connection.state))
  | wrongState {action : LinkAction} (hstate : s.connection.state ≠ action.required) :
      Refuses s (.perform action) (.link (.wrongState action s.connection.state))

/-- **Every call is accepted or refused.** -/
theorem accepts_or_refuses (s : Session ω) (call : Call ω) :
    (∃ reply, Accepts s call reply) ∨ ∃ fault, Refuses s call fault := by
  cases call with
  | receive frame number mode =>
      rcases Nat.lt_or_ge (s.settings.sizeLimits.limit mode).toNat frame.length with hlong | hsize
      · exact .inr ⟨_, .tooLong hlong⟩
      cases hframe : s.decoder.decode frame with
      | error fault => exact .inr ⟨_, .unreadable hsize hframe⟩
      | ok m =>
          by_cases hnumber : ∀ next, s.history.expected = some next → number = next
          · cases hmove : s.connection.state.target (s.classify m) with
            | none => exact .inr ⟨_, .misplaced hsize hframe hnumber hmove⟩
            | some next => exact .inl ⟨_, .receive hsize hframe hnumber hmove⟩
          · obtain ⟨next, hother⟩ := Classical.not_forall.mp hnumber
            obtain ⟨hnext, hother⟩ := Classical.not_imp.mp hother
            exact .inr ⟨_, .unexpected hsize hframe hnext hother⟩
  | send m mode =>
      by_cases hstate : s.connection.state = .connected
      · cases hconform : s.registry.conform m with
        | error fault => exact .inr ⟨_, .nonconforming hstate hconform⟩
        | ok entry =>
            cases hencode : m.encode with
            | error fault => exact .inr ⟨_, .unwritable hstate hconform hencode⟩
            | ok frame =>
                rcases Nat.lt_or_ge (s.settings.sizeLimits.limit mode).toNat frame.length with
                  hlong | hsize
                · exact .inr ⟨_, .tooLongToSend hstate hconform hencode hlong⟩
                · exact .inl ⟨_, .send hstate hconform hencode hsize⟩
      · exact .inr ⟨_, .unconnected hstate⟩
  | handle category =>
      cases hmove : s.connection.state.target category with
      | none => exact .inr ⟨_, .notAllowed hmove⟩
      | some next => exact .inl ⟨_, .handle hmove⟩
  | perform action =>
      by_cases hstate : s.connection.state = action.required
      · obtain ⟨next, hmove⟩ := action.target_required
        rw [← hstate] at hmove
        exact .inl ⟨_, .perform hstate hmove⟩
      · exact .inr ⟨_, .wrongState hstate⟩
  | reset => exact .inl ⟨_, .reset⟩
  | classify f => exact .inl ⟨_, .classify f⟩
  | observe state label => exact .inl ⟨_, .observe state label⟩
  | ignore state => exact .inl ⟨_, .ignore state⟩

/-- A frame that is fine alone, and with the next number, is taken if the connection has a move. -/
theorem receive_of_checks {frame : Bytes} {number : UInt16} {mode : PowerMode} {m : Message}
    (hsize : frame.length ≤ (s.settings.sizeLimits.limit mode).toNat)
    (hframe : s.decoder.decode frame = .ok m)
    (hnumber : ∀ next, s.history.expected = some next → number = next) :
    s.receive frame number mode
      = (liftLink (s.connection.nextState (s.classify m))).map (s.accept m number) := by
  rw [receive, SizeLimits.check_of_le hsize, hframe, History.check_eq_ok_iff.mpr hnumber]
  change (liftLink (s.connection.nextState (s.classify m))).bind _ = _
  cases liftLink (s.connection.nextState (s.classify m)) <;> rfl

/-- A message that is fine to write is sent if its frame is not too long. -/
theorem send_of_checks {m : Message} {mode : PowerMode} {entry : SchemaEntry} {frame : Bytes}
    (hstate : s.connection.state = .connected) (hconform : s.registry.conform m = .ok entry)
    (hencode : m.encode = .ok frame) :
    s.send m mode = (liftParse (s.settings.sizeLimits.check frame.length mode)).map fun () =>
      s.dispatch frame (s.connection.enter .data .connected).1
        (s.connection.enter .data .connected).2 := by
  have hchecked : m.encodeChecked s.registry = .ok frame :=
    bind_eq_ok_iff.mpr ⟨entry, hconform, hencode⟩
  have hmove : s.connection.state.target .data = some .connected := by
    rw [hstate]
    rfl
  rw [send, Connection.require_of_eq hstate, hchecked, Connection.perform_of_eq hstate hmove]
  change (liftParse (s.settings.sizeLimits.check frame.length mode)).bind _ = _
  cases liftParse (s.settings.sizeLimits.check frame.length mode) <;> rfl

/-- What is accepted is replied to. -/
theorem Accepts.reply_eq {call : Call ω} {reply : Reply ω Answer} (haccept : Accepts s call reply) :
    s.reply call = .ok reply := by
  cases haccept with
  | receive hsize hframe hnumber hmove =>
      rw [reply, receive_of_checks hsize hframe hnumber, Connection.nextState_of_some hmove]
      rfl
  | send hstate hconform hencode hsize =>
      rw [reply, send_of_checks hstate hconform hencode, SizeLimits.check_of_le hsize]
      rfl
  | handle hmove =>
      rw [reply, Connection.handle_of_some hmove]
      rfl
  | perform hstate hmove =>
      rw [reply, Connection.perform_of_eq hstate hmove]
      rfl
  | reset | classify | observe | ignore => rfl

/-- What is refused is answered with the fault. -/
theorem Refuses.reply_eq {call : Call ω} {fault : SessionError} (hrefuse : Refuses s call fault) :
    s.reply call = .error fault := by
  cases hrefuse with
  | tooLong hsize =>
      rw [reply, receive, SizeLimits.check_of_lt hsize]
      rfl
  | unreadable hsize hframe =>
      rw [reply, receive, SizeLimits.check_of_le hsize, hframe]
      rfl
  | unexpected hsize hframe hnext hnumber =>
      rw [reply, receive, SizeLimits.check_of_le hsize, hframe, History.check_of_ne hnext hnumber]
      rfl
  | misplaced hsize hframe hnumber hmove =>
      rw [reply, receive_of_checks hsize hframe hnumber, Connection.nextState_of_none hmove]
      rfl
  | unconnected hstate =>
      rw [reply, send, Connection.require_of_ne hstate]
      rfl
  | nonconforming hstate hconform =>
      rw [reply, send, Connection.require_of_eq hstate, Message.encodeChecked, hconform]
      rfl
  | unwritable hstate hconform hencode =>
      rw [reply, send, Connection.require_of_eq hstate, Message.encodeChecked, hconform,
        Except.bind, hencode]
      rfl
  | tooLongToSend hstate hconform hencode hsize =>
      rw [reply, send_of_checks hstate hconform hencode, SizeLimits.check_of_lt hsize]
      rfl
  | notAllowed hmove =>
      rw [reply, Connection.handle_of_none hmove]
      rfl
  | wrongState hstate =>
      rw [reply, Connection.perform_of_ne hstate]
      rfl

/-- **A call succeeds exactly if it is accepted**, with that reply. -/
theorem reply_eq_ok_iff {call : Call ω} {reply : Reply ω Answer} :
    s.reply call = .ok reply ↔ Accepts s call reply := by
  constructor
  · intro hreply
    rcases accepts_or_refuses s call with ⟨other, haccept⟩ | ⟨fault, hrefuse⟩
    · rw [haccept.reply_eq, Except.ok.injEq] at hreply
      rwa [← hreply]
    · rw [hrefuse.reply_eq] at hreply
      cases hreply
  · exact Accepts.reply_eq

/-- **A call fails exactly if it is refused**, with that fault. -/
theorem reply_eq_error_iff {call : Call ω} {fault : SessionError} :
    s.reply call = .error fault ↔ Refuses s call fault := by
  constructor
  · intro hreply
    rcases accepts_or_refuses s call with ⟨reply, haccept⟩ | ⟨other, hrefuse⟩
    · rw [haccept.reply_eq] at hreply
      cases hreply
    · rw [hrefuse.reply_eq, Except.error.injEq] at hreply
      rwa [← hreply]
  · exact Refuses.reply_eq

end Session

namespace Script

variable {ω : Type} {l l' : Live ω} {call : Call ω}

/-- A script succeeds exactly if its call is accepted, and leaves what the reply leaves. -/
theorem carryOut_eq_ok_iff {answer : Answer} :
    (carryOut call).run l = (.ok answer, l') ↔
      ∃ reply, Session.Accepts l.session call reply ∧ reply.answer = answer
        ∧ ⟨reply.session, l.told ++ reply.notices⟩ = l' := by
  rw [carryOut_run, Live.settle, InPlace.settle_eq_ok_iff, map_eq_ok_iff]
  simp only [Session.reply_eq_ok_iff, Prod.mk.injEq]

/-- A script fails exactly if its call is refused, and leaves everything as it was. -/
theorem carryOut_eq_error_iff {fault : SessionError} :
    (carryOut call).run l = (.error fault, l')
      ↔ Session.Refuses l.session call fault ∧ l' = l := by
  rw [← Session.reply_eq_error_iff, carryOut_run, Live.settle, InPlace.settle_eq_error_iff]
  cases l.session.reply call <;> simp [Except.map]

end Script

end SatWire
