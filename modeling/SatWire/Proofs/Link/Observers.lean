import Mathlib.Data.List.Induction
import SatWire.Proofs.Link.Log
import SatWire.Proofs.Link.Verdicts

/-!
# What observers are told

A connection in use is asked for moves, and observers are attached to its states and detached
again.  The log of what it was asked tells everything else.  `stateAfter` follows the table along
the calls that moved it, `watcher` looks for the observer that was attached last, and `notices` has
one notice for each move to a state that was watched when it was made.  A connection agrees with its
log (`FollowsLog`), and one more call keeps it so (`FollowsLog.ask`).

A connection that started disconnected can send data only if it was acknowledged since it last left
that state.  The table alone says so (`LinkState.exists_handshake`), and the log is a walk through
the table.
-/

namespace SatWire

namespace LinkState

/-- A walk that leads somewhere else has a last step. -/
theorem exists_last_step {start state : LinkState} {categories : List Category}
    (hwalk : categories.foldlM target start = some state) (hother : state ≠ start) :
    ∃ before last source, categories = before ++ [last]
      ∧ before.foldlM target start = some source ∧ source.target last = some state := by
  rcases List.eq_nil_or_concat' categories with rfl | ⟨before, last, rfl⟩
  · exact absurd (Option.some.inj hwalk).symm hother
  · rw [List.foldlM_append] at hwalk
    obtain ⟨source, hbefore, hlast⟩ := Option.bind_eq_some_iff.mp hwalk
    simp only [List.foldlM_cons, List.foldlM_nil, bind_pure] at hlast
    exact ⟨before, last, source, rfl, hbefore, hlast⟩

/-- Connecting begins with data, when disconnected. -/
theorem eq_of_target_eq_connecting {source : LinkState} {category : Category}
    (hmove : source.target category = some connecting) :
    source = disconnected ∧ category = .data := by
  cases source <;> cases category <;> simp [target] at hmove ⊢

/-- A connection is made by an acknowledgement, and kept by those and by data. -/
theorem eq_of_target_eq_connected {source : LinkState} {category : Category}
    (hmove : source.target category = some connected) :
    (source = connecting ∧ category = .ack)
      ∨ (source = connected ∧ (category = .data ∨ category = .ack)) := by
  cases source <;> cases category <;> simp [target] at hmove ⊢

/-- Data and acknowledgements keep a connection. -/
theorem foldlM_target_connected {categories : List Category}
    (hkeep : ∀ category ∈ categories, category = .data ∨ category = .ack) :
    categories.foldlM target connected = some connected := by
  induction categories with
  | nil => rfl
  | cons category categories ih =>
      have hmove : connected.target category = some connected := by
        rcases hkeep category List.mem_cons_self with rfl | rfl <;> rfl
      rw [List.foldlM_cons, hmove]
      exact ih fun other hother => hkeep other (List.mem_cons_of_mem _ hother)

/-- Behind the first move of a handshake nothing leads back to disconnected. -/
theorem foldlM_target_ne_disconnected {past kept : List Category}
    (hkept : ∀ category ∈ kept, category = .data ∨ category = .ack)
    (hpast : past <+: .ack :: kept) : past.foldlM target connecting ≠ some disconnected := by
  cases past with
  | nil => exact fun hsame => nomatch hsame
  | cons first others =>
      obtain ⟨rfl, hothers⟩ := List.cons_prefix_cons.mp hpast
      have hconnected : others.foldlM target connected = some connected :=
        foldlM_target_connected fun category hmem => hkept category (hothers.subset hmem)
      exact fun hsame => nomatch hconnected.symm.trans hsame

/-- **Handshake.**  A walk from disconnected to connected ends with data and an acknowledgement, and
then only with what keeps the connection. -/
theorem exists_handshake {categories : List Category}
    (hwalk : categories.foldlM target disconnected = some connected) :
    ∃ before behind, categories = before ++ .data :: .ack :: behind
      ∧ before.foldlM target disconnected = some disconnected
      ∧ ∀ category ∈ behind, category = .data ∨ category = .ack := by
  induction categories using List.reverseRecOn with
  | nil => cases hwalk
  | append_singleton front last ih =>
      obtain ⟨front', last', source, heq, hfront, hlast⟩ :=
        exists_last_step hwalk (by decide)
      obtain ⟨rfl, hsame⟩ := List.append_inj' heq rfl
      obtain rfl := List.singleton_inj.mp hsame
      -- Either the last step made the connection, or the handshake lies further back.
      rcases eq_of_target_eq_connected hlast with ⟨rfl, rfl⟩ | ⟨rfl, hkeep⟩
      · obtain ⟨before, first, source, rfl, hbefore, hfirst⟩ :=
          exists_last_step hfront (by decide)
        obtain ⟨rfl, rfl⟩ := eq_of_target_eq_connecting hfirst
        exact ⟨before, [], by simp, hbefore, by simp⟩
      · obtain ⟨before, behind, rfl, hbefore, hbehind⟩ := ih hfront
        refine ⟨before, behind ++ [last], by simp, hbefore, ?_⟩
        intro category hmem
        rcases List.mem_append.mp hmem with hmem | hmem
        · exact hbehind category hmem
        · obtain rfl := List.mem_singleton.mp hmem
          exact hkeep

end LinkState

namespace Connection

/-- Something that a connection can be asked. -/
inductive Call (ω : Type) where
  /-- The move of a category. -/
  | handle (category : Category)
  | perform (action : LinkAction)
  | observe (state : LinkState) (label : ω)
  | ignore (state : LinkState)
  deriving DecidableEq

/-- A connection in use, and everything its observers were told so far, oldest first. -/
structure Wire (ω : Type) where
  connection : Connection ω
  told : List (Notice ω) := []

namespace Wire

variable {ω : Type} {w : Wire ω} {category : Category} {action : LinkAction} {next : LinkState}

/-- Moves the connection, and then tells the observer of the state that it moved to. -/
def enter (category : Category) (next : LinkState) : InPlace LinkError (Wire ω) Unit := do
  let source := (← get).connection.state
  modify fun w => { w with connection := { w.connection with state := next } }
  modify fun w =>
    let label? := w.connection.observer next
    { w with told := w.told ++ (label?.map fun label => ⟨label, ⟨source, category, next⟩⟩).toList }

/-- Moves the connection on a category, if the table has a move for it. -/
def handle (category : Category) : InPlace LinkError (Wire ω) LinkState := do
  let next ← InPlace.check fun w => w.connection.nextState category
  enter category next
  return next

/-- Takes an action, if the connection is in the state that it requires. -/
def perform (action : LinkAction) : InPlace LinkError (Wire ω) LinkState := do
  InPlace.check fun w => w.connection.require action
  handle action.category

/-- What a connection does when it is called. -/
def carryOut : Call ω → InPlace LinkError (Wire ω) Answer
  | .handle category => do
    let next ← handle category
    return .state next
  | .perform action => do
    let next ← perform action
    return .state next
  | .observe state label => do
    modify fun w => { w with connection := w.connection.observe state label }
    return .done
  | .ignore state => do
    let (present, _) := (← get).connection.ignore state
    modify fun w => { w with connection := (w.connection.ignore state).2 }
    return .observed present

/-- A connection in use after a move was made, or refused. -/
def settle (w : Wire ω) (r : Except LinkError (Connection ω × List (Notice ω))) :
    Except LinkError LinkState × Wire ω :=
  InPlace.settle w (r.map fun (connection, notices) =>
    (connection.state, ⟨connection, w.told ++ notices⟩))

/-- **Moving in place** is moving. -/
theorem handle_run (category : Category) (w : Wire ω) :
    (handle category).run w = w.settle (w.connection.handle category) := by
  rw [handle, InPlace.check_bind]
  unfold Connection.handle
  cases w.connection.nextState category <;> rfl

/-- **Acting in place** is acting. -/
theorem perform_run (action : LinkAction) (w : Wire ω) :
    (perform action).run w = w.settle (w.connection.perform action) := by
  rw [perform, InPlace.check_bind]
  unfold Connection.perform
  cases w.connection.require action with
  | ok => exact handle_run action.category w
  | error fault => rfl

/-- A connection in use after a move. -/
def entered (w : Wire ω) (category : Category) (next : LinkState) : Wire ω where
  connection := (w.connection.enter category next).1
  told := w.told ++ (w.connection.enter category next).2

/-- How a call ends. -/
inductive Ends (w : Wire ω) : Call ω → Except LinkError Answer → Wire ω → Prop
  | handle {category : Category} {next : LinkState}
      (hmove : w.connection.state.target category = some next) :
      Ends w (.handle category) (.ok (.state next)) (w.entered category next)
  | perform {action : LinkAction} {next : LinkState}
      (hstate : w.connection.state = action.required)
      (hmove : w.connection.state.target action.category = some next) :
      Ends w (.perform action) (.ok (.state next)) (w.entered action.category next)
  | notAllowed {category : Category} (hmove : w.connection.state.target category = none) :
      Ends w (.handle category) (.error (.notAllowed category w.connection.state)) w
  | wrongState {action : LinkAction} (hstate : w.connection.state ≠ action.required) :
      Ends w (.perform action) (.error (.wrongState action w.connection.state)) w
  | observe (state : LinkState) (label : ω) :
      Ends w (.observe state label) (.ok .done)
        { w with connection := w.connection.observe state label }
  | ignore (state : LinkState) :
      Ends w (.ignore state) (.ok (.observed (w.connection.observer state).isSome))
        { w with connection := (w.connection.ignore state).2 }

/-- **Every call ends** in one of these ways. -/
theorem ends_carryOut (w : Wire ω) (call : Call ω) :
    Ends w call ((carryOut call).run w).1 ((carryOut call).run w).2 := by
  cases call with
  | handle category =>
      have hrun := handle_run category w
      cases hmove : w.connection.state.target category with
      | some next =>
          rw [handle_of_some hmove] at hrun
          rw [carryOut, InPlace.bind_of_ok hrun]
          exact .handle hmove
      | none =>
          rw [handle_of_none hmove] at hrun
          rw [carryOut, InPlace.bind_of_error hrun]
          exact .notAllowed hmove
  | perform action =>
      have hrun := perform_run action w
      by_cases hstate : w.connection.state = action.required
      · obtain ⟨next, hmove⟩ := action.target_required
        rw [← hstate] at hmove
        rw [perform_of_eq hstate hmove] at hrun
        rw [carryOut, InPlace.bind_of_ok hrun]
        exact .perform hstate hmove
      · rw [perform_of_ne hstate] at hrun
        rw [carryOut, InPlace.bind_of_error hrun]
        exact .wrongState hstate
  | observe state label => exact .observe state label
  | ignore state => exact .ignore state

/-- An action succeeds only in the state that it requires. -/
theorem Ends.state_eq_required {answer : Answer} {after : Wire ω}
    (hends : Ends w (.perform action) (.ok answer) after) :
    w.connection.state = action.required := by
  cases hends with
  | perform hstate hmove => exact hstate

end Wire

/-- The log of a connection. -/
abbrev Log (ω : Type) := List (Dealing LinkError (Call ω) Answer)

namespace Log

variable {ω : Type}

/-- The category that the connection moved on. -/
def moved : Dealing LinkError (Call ω) Answer → Option Category
  | ⟨.handle category, .ok _⟩ => some category
  | ⟨.perform action, .ok _⟩ => some action.category
  | _ => none

/-- The state that the table leads to along the moves made. -/
def stateAfter (start : LinkState) (log : Log ω) : Option LinkState :=
  (log.filterMap moved).foldlM LinkState.target start

/-- The observer that a state has since the call, or that it has none since then. -/
def sets (state : LinkState) : Dealing LinkError (Call ω) Answer → Option (Option ω)
  | ⟨.observe watched label, _⟩ => if state = watched then some (some label) else none
  | ⟨.ignore watched, _⟩ => if state = watched then some none else none
  | _ => none

/-- The observer of a state: the one attached last, if it was not detached since. -/
def watcher (log : Log ω) (state : LinkState) : Option ω :=
  (log.reverse.findSome? (sets state)).join

/-- The notice that a call gives rise to, behind the calls before it. -/
def notice (start : LinkState) (before : Log ω) (d : Dealing LinkError (Call ω) Answer) :
    Option (Notice ω) := do
  let category ← moved d
  let source ← stateAfter start before
  let target ← source.target category
  let label ← watcher before target
  return ⟨label, ⟨source, category, target⟩⟩

/-- One notice for each move to a state that had an observer then. -/
def notices (start : LinkState) (log : Log ω) : List (Notice ω) :=
  gather (notice start) log

/-- A move is told to who watches the state it leads to. -/
theorem notice_of_moved {start source target : LinkState} {before : Log ω}
    {d : Dealing LinkError (Call ω) Answer} {category : Category} (hmoved : moved d = some category)
    (hsource : stateAfter start before = some source)
    (hmove : source.target category = some target) :
    notice start before d
      = (watcher before target).map fun label => ⟨label, ⟨source, category, target⟩⟩ := by
  simp only [notice, hmoved, hsource, hmove, Option.bind_eq_bind, Option.bind_some,
    Option.map_eq_bind]
  rfl

/-- Moves go on from the state that the moves before have led to. -/
theorem stateAfter_append (start : LinkState) (log more : Log ω) :
    stateAfter start (log ++ more)
      = (stateAfter start log).bind fun state => stateAfter state more := by
  rw [stateAfter, List.filterMap_append, List.foldlM_append]
  rfl

/-- The last call that sets or takes back an observer decides. -/
theorem watcher_concat (log : Log ω) (d : Dealing LinkError (Call ω) Answer) (state : LinkState) :
    watcher (log ++ [d]) state = ((sets state d).getD (watcher log state)) := by
  rw [watcher, List.reverse_concat, List.findSome?_cons]
  cases sets state d <;> rfl

/-- The acknowledgement that a connection rests on: it was handled while connecting, behind the last
call that made the connection leave the disconnected state. -/
structure RestsOn (log before between behind : Log ω) (out ack : Dealing LinkError (Call ω) Answer) :
    Prop where
  log_eq : log = before ++ out :: (between ++ ack :: behind)
  source : stateAfter .disconnected before = some .disconnected
  leaves : moved out = some .data
  /-- The connection was never disconnected since. -/
  since : ∀ past, past <+: between ++ ack :: behind →
    stateAfter .disconnected (before ++ out :: past) ≠ some .disconnected
  connecting : stateAfter .disconnected (before ++ out :: between) = some .connecting
  ack_eq : ∃ answer, ack = ⟨.handle .ack, .ok answer⟩

/-- Only handling an acknowledgement moves on it. -/
theorem eq_of_moved_eq_ack {d : Dealing LinkError (Call ω) Answer} (hmoved : moved d = some .ack) :
    ∃ answer, d = ⟨.handle .ack, .ok answer⟩ := by
  obtain ⟨request, result⟩ := d
  cases result with
  | error fault => cases request <;> cases hmoved
  | ok answer =>
      cases request with
      | handle category =>
          obtain rfl := Option.some.inj hmoved
          exact ⟨answer, rfl⟩
      | perform action =>
          cases action <;> cases hmoved
      | observe | ignore => cases hmoved

/-- **A connection rests on an acknowledgement**, if it was disconnected at first. -/
theorem exists_restsOn {log : Log ω} (hstate : stateAfter .disconnected log = some .connected) :
    ∃ before between behind out ack, RestsOn log before between behind out ack := by
  obtain ⟨walk, kept, hmoves, hwalk, hkept⟩ := LinkState.exists_handshake hstate
  obtain ⟨front, rest, rfl, hfront, hrest⟩ := List.filterMap_eq_append_iff.mp hmoves
  obtain ⟨still, out, rest, rfl, hstill, hout, hrest⟩ := List.filterMap_eq_cons_iff.mp hrest
  obtain ⟨between, ack, behind, rfl, hbetween, hack, hbehind⟩ := List.filterMap_eq_cons_iff.mp hrest
  -- Calls that moved nothing lie between the moves of the walk.
  have hbefore : (front ++ still).filterMap moved = walk := by
    rw [List.filterMap_append, hfront, List.filterMap_eq_nil_iff.mpr hstill, List.append_nil]
  have hleft (past : Log ω) : stateAfter .disconnected (front ++ still ++ out :: past)
      = stateAfter .connecting past := by
    rw [stateAfter_append, stateAfter, hbefore, hwalk, Option.bind_some, stateAfter,
      List.filterMap_cons_some hout]
    rfl
  refine ⟨front ++ still, between, behind, out, ack, by simp, ?_, hout, ?_, ?_,
    eq_of_moved_eq_ack hack⟩
  · rw [stateAfter, hbefore, hwalk]
  · intro past hpast
    have hmoved := hpast.filterMap moved
    rw [List.filterMap_append, List.filterMap_eq_nil_iff.mpr hbetween, List.nil_append,
      List.filterMap_cons_some hack, hbehind] at hmoved
    rw [hleft]
    exact LinkState.foldlM_target_ne_disconnected hkept hmoved
  · rw [hleft, stateAfter, List.filterMap_eq_nil_iff.mpr hbetween]
    rfl

end Log

open Log Wire

variable {ω : Type} {start : LinkState} {a : Asked LinkError (Wire ω) (Call ω) Answer}

/-- A connection is what its log says. -/
structure FollowsLog (start : LinkState) (a : Asked LinkError (Wire ω) (Call ω) Answer) : Prop where
  state : stateAfter start a.log = some a.state.connection.state
  observer : watcher a.log = a.state.connection.observer
  told : a.state.told = notices start a.log

/-- **A move** goes along the table, and the observer of the state it leads to is told. -/
theorem FollowsLog.move (hfollows : FollowsLog start a) {d : Dealing LinkError (Call ω) Answer}
    {category : Category} {next : LinkState} (hmoved : moved d = some category)
    (hsets : ∀ state, sets state d = none)
    (hmove : a.state.connection.state.target category = some next) :
    FollowsLog start ⟨a.state.entered category next, a.log ++ [d]⟩ where
  state := by
    rw [stateAfter_append, hfollows.state, Option.bind_some, stateAfter,
      List.filterMap_cons_some hmoved, List.filterMap_nil, List.foldlM_cons, hmove]
    rfl
  observer := by
    funext state
    rw [watcher_concat, hsets, hfollows.observer]
    rfl
  told := by
    rw [notices, gather_concat, notice_of_moved hmoved hfollows.state hmove, hfollows.observer,
      entered, hfollows.told]
    rfl

/-- **What does not move** the connection tells nobody. -/
theorem FollowsLog.stay (hfollows : FollowsLog start a) {d : Dealing LinkError (Call ω) Answer}
    {observer : LinkState → Option ω} (hmoved : moved d = none)
    (hsets : ∀ state, (sets state d).getD (a.state.connection.observer state) = observer state) :
    FollowsLog start ⟨⟨⟨a.state.connection.state, observer⟩, a.state.told⟩, a.log ++ [d]⟩ where
  state := by
    rw [stateAfter_append, hfollows.state, Option.bind_some, stateAfter,
      List.filterMap_cons_none hmoved]
    rfl
  observer := by
    funext state
    rw [watcher_concat, hfollows.observer, hsets]
  told := by
    have hnotice : notice start a.log d = none := by
      rw [notice, hmoved]
      rfl
    rw [notices, gather_concat, hnotice, hfollows.told]
    exact (List.append_nil _).symm

/-- **One more call** keeps a connection to its log. -/
theorem FollowsLog.ask (hfollows : FollowsLog start a) (call : Call ω) :
    FollowsLog start (a.ask Wire.carryOut call) := by
  have hends := ends_carryOut a.state call
  unfold Asked.ask
  generalize (Wire.carryOut call).run a.state = made at hends ⊢
  obtain ⟨result, w⟩ := made
  cases hends with
  | handle hmove => exact hfollows.move rfl (fun _ => rfl) hmove
  | perform hstate hmove => exact hfollows.move rfl (fun _ => rfl) hmove
  | notAllowed | wrongState => exact hfollows.stay rfl fun _ => rfl
  | observe watched label =>
      refine hfollows.stay rfl fun state => ?_
      by_cases hsame : state = watched <;> simp [sets, hsame]
  | ignore watched =>
      refine hfollows.stay rfl fun state => ?_
      by_cases hsame : state = watched <;> simp [sets, hsame]

/-- A connection in a state, with no observers yet. -/
def resumed (start : LinkState) : Asked LinkError (Wire ω) (Call ω) Answer where
  state := { connection := { state := start } }

/-- Nothing was moved yet, so the state is the one started from. -/
theorem followsLog_resumed (start : LinkState) :
    FollowsLog start (resumed start : Asked LinkError (Wire ω) (Call ω) Answer) :=
  ⟨rfl, rfl, rfl⟩

/-- The fault of a call that is not allowed in a state. -/
def refusal (state : LinkState) : Call ω → Option LinkError
  | .handle category =>
    if state.target category = none then some (.notAllowed category state) else none
  | .perform action => if state = action.required then none else some (.wrongState action state)
  | .observe .. | .ignore .. => none

/-- The answer to a call that is allowed: the state that it led to, or whether there was an observer
to detach. -/
def answer (log : Log ω) (after : LinkState) : Call ω → Answer
  | .handle _ | .perform _ => .state after
  | .observe .. => .done
  | .ignore state => .observed (watcher log state).isSome

/-- How a call ends behind a log: one that is not allowed fails and leaves everything as it was, and
the others are answered. -/
structure EndsBehind (log : Log ω) (w : Wire ω) (call : Call ω) (result : Except LinkError Answer)
    (after : Wire ω) : Prop where
  refused : ∀ fault, refusal w.connection.state call = some fault →
    fault.kind = .protocolViolation ∧ result = .error fault ∧ after = w
  allowed : refusal w.connection.state call = none →
    result = .ok (answer log after.connection.state call)

/-- **How a call ends** shows in the log. -/
theorem FollowsLog.endsBehind (hfollows : FollowsLog start a) {call : Call ω}
    {result : Except LinkError Answer} {after : Wire ω} (hends : Ends a.state call result after) :
    EndsBehind a.log a.state call result after := by
  cases hends with
  | handle hmove => exact ⟨by simp [refusal, hmove], fun _ => rfl⟩
  | perform hstate hmove => exact ⟨by simp [refusal, hstate], fun _ => rfl⟩
  | notAllowed hmove => exact ⟨by simp [refusal, hmove, LinkError.kind], by simp [refusal, hmove]⟩
  | wrongState hstate => exact ⟨by simp [refusal, hstate, LinkError.kind], by simp [refusal, hstate]⟩
  | observe state label => exact ⟨fun _ hfault => (nomatch hfault), fun _ => rfl⟩
  | ignore state =>
      refine ⟨fun _ hfault => (nomatch hfault), fun _ => ?_⟩
      rw [answer, hfollows.observer]

/-- **Observers are told of every move** to their states.  Whatever a connection is asked, its state
is where the table leads along the moves made, and its observers were told of exactly the moves to
states that were watched, each by the observer attached last.  A call that is not allowed is a
violation of the protocol and leaves everything as it was.

A connection that was disconnected at first sends data only behind an acknowledgement that was
handled while connecting, after it last left the disconnected state. -/
theorem moves_tell_observers (start : LinkState) (calls : List (Call ω)) :
    let a := (resumed start).askAll Wire.carryOut calls
    a.log.map Dealing.request = calls ∧ FollowsLog start a
      ∧ (∀ call, EndsBehind a.log a.state call ((Wire.carryOut call).run a.state).1
        ((Wire.carryOut call).run a.state).2)
      ∧ ∀ answer, start = .disconnected →
        ((Wire.carryOut (.perform .sendData)).run a.state).1 = .ok answer →
        ∃ before between behind out ack, RestsOn a.log before between behind out ack := by
  intro a
  have hfollows : FollowsLog start a :=
    Asked.askAll_keeps (followsLog_resumed start) (fun _ call hfollows => hfollows.ask call) calls
  refine ⟨Asked.map_request_askAll (resumed start) calls, hfollows,
    fun call => hfollows.endsBehind (ends_carryOut a.state call), ?_⟩
  rintro answer rfl hanswer
  have hends := ends_carryOut a.state (.perform .sendData)
  rw [hanswer] at hends
  apply exists_restsOn
  rw [hfollows.state, hends.state_eq_required]
  rfl

/-- A connection is made and kept; two calls are not allowed.  The observer of connected is replaced
by another and then detached, so the last move is told to nobody. -/
theorem moves_tell_observers_handshake :
    let calls : List (Call Nat) :=
      [.observe .connecting 1, .observe .connected 2, .perform .connect, .handle .control,
        .handle .ack, .perform .sendData, .observe .connected 3, .perform .connect, .handle .data,
        .ignore .connected, .handle .ack, .ignore .connected]
    let a := (resumed .disconnected).askAll Wire.carryOut calls
    a.log.map Dealing.result
        = [.ok .done, .ok .done, .ok (.state .connecting),
          .error (.notAllowed .control .connecting), .ok (.state .connected),
          .ok (.state .connected), .ok .done,
          .error (.wrongState .connect .connected), .ok (.state .connected), .ok (.observed true),
          .ok (.state .connected), .ok (.observed false)]
      ∧ a.state.told
        = [⟨1, ⟨.disconnected, .data, .connecting⟩⟩, ⟨2, ⟨.connecting, .ack, .connected⟩⟩,
          ⟨2, ⟨.connected, .data, .connected⟩⟩, ⟨3, ⟨.connected, .data, .connected⟩⟩]
      ∧ FollowsLog .disconnected a
      ∧ (Wire.carryOut (.perform .connect)).run a.state
        = (.error (.wrongState .connect .connected), a.state)
      ∧ ∃ before between behind out ack, RestsOn a.log before between behind out ack := by
  intro calls a
  obtain ⟨-, hfollows, hends, hrests⟩ := moves_tell_observers .disconnected calls
  obtain ⟨-, hfault, hsame⟩ := (hends (.perform .connect)).refused _ rfl
  exact ⟨by decide, by decide, hfollows, Prod.ext hfault hsame,
    hrests (.state .connected) rfl (by decide)⟩

end Connection

end SatWire
