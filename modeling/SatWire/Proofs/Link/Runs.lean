import SatWire.Proofs.Frame.RoundTrip
import SatWire.Proofs.Link.Log
import SatWire.Proofs.Link.Verdicts

/-!
# What a log tells of a session

Keep a log of the calls on a session, each with what came of it, and the session itself need not be
looked at: the log alone tells the last number taken, the state of the connection and the number
sent next.  One entry tells how the session after its call differs from the one before
(`Entry.Tells`); an entry of a call that failed tells that nothing differs.  A run of calls, however
long, adds one entry after the other (`askAll_follows_log`).
-/

namespace SatWire

open Session (Call Reply Accepts Refuses)

/-- A call and what came of it. -/
abbrev Entry (ω : Type) : Type :=
  Dealing SessionError (Call ω) Answer

namespace Entry

variable {ω : Type}

/-- Whether the numbers received were forgotten. -/
def forgets : Entry ω → Bool
  | ⟨.reset, _⟩ => true
  | _ => false

/-- The number of the frame that was taken. -/
def taken : Entry ω → Option UInt16
  | ⟨.receive _ number _, .ok _⟩ => some number
  | _ => none

/-- The category that the connection moved on: the one a message was taken for, data for what was
sent, and otherwise the one that was asked for. -/
def moved : Entry ω → Option Category
  | ⟨.receive .., .ok (.message m)⟩ => some m.category
  | ⟨.send .., .ok _⟩ => some .data
  | ⟨.handle category, .ok _⟩ => some category
  | ⟨.perform action, .ok _⟩ => some action.category
  | _ => none

/-- Whether a message was sent. -/
def sends : Entry ω → Bool
  | ⟨.send .., .ok _⟩ => true
  | _ => false

/-- The classifier that was given. -/
def classifier : Entry ω → Option (Message → Category)
  | ⟨.classify f, .ok _⟩ => some f
  | _ => none

/-- How an entry tells what a session is after its call from what it was before. -/
structure Tells (e : Entry ω) (s t : Session ω) : Prop where
  classify : t.classify = e.classifier.getD s.classify
  last : t.history.last = if e.forgets then none else e.taken.or s.history.last
  state : e.moved.elim (some s.connection.state) s.connection.state.target
    = some t.connection.state
  outbound : t.outbound.current = s.outbound.current + if e.sends then 1 else 0

variable {s : Session ω} {call : Call ω}

/-- The entry of a call that succeeded tells what its reply leaves. -/
theorem tells_of_accepts {reply : Reply ω Answer} (haccept : Accepts s call reply) :
    Tells ⟨call, .ok reply.answer⟩ s reply.session := by
  have hsame : s.outbound.current = s.outbound.current + 0 := (UInt16.add_zero _).symm
  cases haccept with
  | receive hsize hframe hnumber hmove => exact ⟨rfl, rfl, hmove, hsame⟩
  | send hstate hconform hencode hsize =>
      refine ⟨rfl, rfl, ?_, rfl⟩
      rw [hstate]
      rfl
  | handle hmove => exact ⟨rfl, rfl, hmove, hsame⟩
  | perform hstate hmove => exact ⟨rfl, rfl, hmove, hsame⟩
  | reset | classify f | observe state label | ignore state => exact ⟨rfl, rfl, rfl, hsame⟩

/-- The entry of a call that failed tells that nothing changed. -/
theorem tells_of_refuses {fault : SessionError} (hrefuse : Refuses s call fault) :
    Tells ⟨call, .error fault⟩ s s := by
  have hsame : s.outbound.current = s.outbound.current + 0 := (UInt16.add_zero _).symm
  cases hrefuse <;> exact ⟨rfl, rfl, rfl, hsame⟩

/-- **One call.**  Its entry tells what its script leaves. -/
theorem tells_carryOut (call : Call ω) (l : Live ω) :
    Tells ⟨call, ((Script.carryOut call).run l).1⟩ l.session
      ((Script.carryOut call).run l).2.session := by
  rw [Script.carryOut_run]
  rcases Session.accepts_or_refuses l.session call with ⟨reply, haccept⟩ | ⟨fault, hrefuse⟩
  · rw [haccept.reply_eq]
    exact tells_of_accepts haccept
  · rw [hrefuse.reply_eq]
    exact tells_of_refuses hrefuse

/-- The number of the last frame taken since numbers were last forgotten, if there is one. -/
def lastTaken (log : List (Entry ω)) : Option UInt16 :=
  (log.reverse.takeWhile fun e => !e.forgets).findSome? taken

/-- A frame that is taken puts its number in place of the last one, and forgetting leaves none. -/
theorem lastTaken_append (log : List (Entry ω)) (e : Entry ω) :
    lastTaken (log ++ [e]) = if e.forgets then none else e.taken.or (lastTaken log) := by
  unfold lastTaken
  rw [List.reverse_append, List.reverse_singleton, List.singleton_append, List.takeWhile_cons]
  cases e.forgets with
  | true => rfl
  | false =>
      rw [Bool.not_false, if_pos rfl, List.findSome?_cons]
      cases e.taken <;> rfl

end Entry

/-- A session in use, and the log of the calls on it, oldest first. -/
abbrev Logged (ω : Type) : Type :=
  Asked SessionError (Live ω) (Call ω) Answer

namespace Logged

variable {ω : Type}

/-- A session that was asked nothing yet. -/
def fresh (registry : Registry) (settings : LinkSettings) (classify : Message → Category) :
    Logged ω where
  state := { session := { registry, settings, classify } }

/-- A session is what the log of its calls tells, if it was fresh before them. -/
structure FollowsLog (registry : Registry) (settings : LinkSettings)
    (classify : Message → Category) (r : Logged ω) : Prop where
  registry : r.state.session.registry = registry
  settings : r.state.session.settings = settings
  /-- The classifier is the one given last. -/
  classify : r.state.session.classify = (r.log.filterMap Entry.classifier).getLast?.getD classify
  last : r.state.session.history.last = Entry.lastTaken r.log
  /-- The connection has made the moves of all calls that succeeded. -/
  state : (r.log.filterMap Entry.moved).foldlM LinkState.target .disconnected
    = some r.state.session.connection.state
  /-- The number sent next counts the messages sent, and starts over. -/
  outbound : r.state.session.outbound.current.toNat = r.log.countP Entry.sends % 65536

variable {registry : Registry} {settings : LinkSettings} {classify : Message → Category} {r : Logged ω}

/-- A session that was asked nothing is what an empty log tells. -/
theorem followsLog_fresh :
    FollowsLog registry settings classify (fresh (ω := ω) registry settings classify) :=
  ⟨rfl, rfl, rfl, rfl, rfl, rfl⟩

/-- What an entry tells is what it adds to the log. -/
theorem FollowsLog.append (hfollows : FollowsLog registry settings classify r) {e : Entry ω}
    {l : Live ω} (hregistry : l.session.registry = r.state.session.registry)
    (hsettings : l.session.settings = r.state.session.settings)
    (htells : e.Tells r.state.session l.session) :
    FollowsLog registry settings classify ⟨l, r.log ++ [e]⟩ where
  registry := hregistry.trans hfollows.registry
  settings := hsettings.trans hfollows.settings
  classify := by
    rw [htells.classify, hfollows.classify, List.filterMap_append]
    cases hgiven : e.classifier <;> simp [hgiven]
  last := by
    rw [htells.last, hfollows.last, Entry.lastTaken_append]
  state := by
    rw [← htells.state, List.filterMap_append, List.foldlM_append, hfollows.state]
    cases hmoved : e.moved <;> simp [hmoved]
  outbound := by
    rw [htells.outbound, UInt16.toNat_add, hfollows.outbound, List.countP_append,
      List.countP_singleton]
    cases e.sends <;> simp

/-- **One more call** is one more entry. -/
theorem FollowsLog.ask (hfollows : FollowsLog registry settings classify r) (call : Call ω) :
    FollowsLog registry settings classify (r.ask Script.carryOut call) := by
  have hkept := Session.kept_after (s := r.state.session) call
  rw [← Script.session_carryOut] at hkept
  exact hfollows.append hkept.registry hkept.settings (Entry.tells_carryOut call r.state)

/-- **The log tells the session, and a call that fails leaves no trace in it.**  After any calls on a
fresh session, whatever came of each, the log tells the last number taken, the state of the
connection and the number sent next.  Whatever is asked then succeeds exactly if it is accepted, and
leaves what its reply says; it fails exactly if it is refused, with the fault of the first check that
fails, and leaves the session and all that its observers were told as they were. -/
theorem askAll_follows_log (registry : Registry) (settings : LinkSettings)
    (classify : Message → Category) (calls : List (Call ω)) :
    let r := (fresh registry settings classify).askAll Script.carryOut calls
    r.log.map Dealing.request = calls ∧ FollowsLog registry settings classify r
      ∧ ∀ call : Call ω,
        (∀ answer l, (Script.carryOut call).run r.state = (.ok answer, l) ↔
          ∃ reply, Accepts r.state.session call reply ∧ reply.answer = answer
            ∧ ⟨reply.session, r.state.told ++ reply.notices⟩ = l)
        ∧ ∀ fault l, (Script.carryOut call).run r.state = (.error fault, l) ↔
          Refuses r.state.session call fault ∧ l = r.state := by
  intro r
  have hfollows : FollowsLog registry settings classify r :=
    Asked.askAll_keeps followsLog_fresh (fun _ call hfollows => hfollows.ask call) calls
  refine ⟨Asked.map_request_askAll _ calls, hfollows, fun call => ⟨?_, ?_⟩⟩
  · intro answer l
    exact Script.carryOut_eq_ok_iff
  · intro fault l
    exact Script.carryOut_eq_error_iff

/-- A session that takes every message for an acknowledgement: it connects, takes one envelope,
refuses another whose number is not the next, sends one, forgets the numbers, takes the one that it
refused, and disconnects.  Nothing can be sent before or after. -/
theorem askAll_follows_log_envelopes :
    let frame : Bytes := [1, 1, 0, 1, 238, 249, 1]
    let r := (fresh (ω := Unit) envelopes {} fun _ => .ack).askAll Script.carryOut
      [.send (envelope 0) .normal, .perform .connect, .receive frame 7 .normal,
        .receive frame 9 .normal, .send (envelope 0) .lowPower, .reset, .receive frame 9 .normal,
        .perform .disconnect]
    r.log.map Dealing.result
        = [.error (.link (.wrongState .sendData .disconnected)), .ok (.state .connecting),
          .ok (.message { envelope 0 with category := .ack }),
          .error (.link (.outOfSequence 9 8)), .ok (.parcel 0 frame), .ok .done,
          .ok (.message { envelope 0 with category := .ack }), .ok (.state .disconnecting)]
      ∧ r.state.session.history.last = some 9 ∧ r.state.session.connection.state = .disconnecting
      ∧ FollowsLog envelopes {} (fun _ => .ack) r
      ∧ (Script.carryOut (.send (envelope 0) .normal)).run r.state
        = (.error (.link (.wrongState .sendData .disconnecting)), r.state) := by
  intro frame r
  obtain ⟨-, hfollows, hcalls⟩ := askAll_follows_log (ω := Unit) envelopes {} (fun _ => .ack) _
  have hstate : r.state.session.connection.state = .disconnecting := by decide +kernel
  have hrefuse : Refuses r.state.session (.send (envelope 0) .normal)
      (.link (.wrongState .sendData r.state.session.connection.state)) :=
    .unconnected (by rw [hstate]; decide)
  rw [hstate] at hrefuse
  refine ⟨by decide +kernel, by decide +kernel, hstate, hfollows, ?_⟩
  exact ((hcalls (.send (envelope 0) .normal)).2 _ _).mpr ⟨hrefuse, rfl⟩

end Logged

end SatWire
