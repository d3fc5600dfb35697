import SatWire.Proofs.Link.Delivery

/-!
# A link that loses nothing

Where everything that is sent arrives, and in order, nothing that was sent is ever refused.  The
sender has made every check that the receiver makes, the number sent next is the one that is
expected, and both come round at the same place.  `InStep` says so of two sessions, and one message
sent and received keeps it (`InStep.step`); so there is no bound on how many may follow.

What the receiver checks and the sender does not is the nesting.
-/

namespace SatWire

namespace Session

variable {ω : Type}

/-- Sends messages in turn, each in a power mode, and tells the parcels if all could be sent. -/
def sendAll (s : Session ω) :
    List (Message × PowerMode) → Except SessionError (List (Parcel × PowerMode) × Session ω)
  | [] => .ok ([], s)
  | (m, mode) :: rest =>
    (s.send m mode).bind fun reply =>
      (reply.session.sendAll rest).map fun (parcels, last) =>
        ((⟨m, reply.answer.1, reply.answer.2⟩, mode) :: parcels, last)

/-- Receives parcels in turn, and tells the messages if all could be received. -/
def receiveAll (s : Session ω) :
    List (Parcel × PowerMode) → Except SessionError (List Message × Session ω)
  | [] => .ok ([], s)
  | (p, mode) :: rest =>
    (s.receive p.frame p.number mode).bind fun reply =>
      (reply.session.receiveAll rest).map fun (messages, last) => (reply.answer :: messages, last)

/-- Two connected sessions of one registry and one set of settings, the second of which takes
messages for what they say they are and expects the number that the first hands out next, or any. -/
structure InStep (registry : Registry) (settings : LinkSettings) (s r : Session ω) : Prop where
  senderRegistry : s.registry = registry
  receiverRegistry : r.registry = registry
  senderSettings : s.settings = settings
  receiverSettings : r.settings = settings
  senderState : s.connection.state = .connected
  receiverState : r.connection.state = .connected
  plain : r.classify = Message.category
  number : r.history.last = none ∨ r.history.last = some (s.outbound.current - 1)

variable {registry : Registry} {settings : LinkSettings} {s r s' : Session ω} {m : Message}
  {mode : PowerMode}

/-- Traffic is sent exactly if the first message is and those behind it are. -/
theorem sendAll_cons_eq_ok_iff {traffic : List (Message × PowerMode)}
    {parcels : List (Parcel × PowerMode)} :
    s.sendAll ((m, mode) :: traffic) = .ok (parcels, s') ↔
      ∃ reply others, s.send m mode = .ok reply
        ∧ reply.session.sendAll traffic = .ok (others, s')
        ∧ (⟨m, reply.answer.1, reply.answer.2⟩, mode) :: others = parcels := by
  rw [sendAll, bind_eq_ok_iff]
  simp only [map_eq_ok_iff, Prod.exists, Prod.mk.injEq]
  constructor
  · rintro ⟨reply, hsend, others, last, hothers, rfl, rfl⟩
    exact ⟨reply, others, hsend, hothers, rfl⟩
  · rintro ⟨reply, others, hsend, hothers, rfl⟩
    exact ⟨reply, hsend, others, s', hothers, rfl, rfl⟩

/-- Parcels are received exactly if the first is and those behind it are. -/
theorem receiveAll_cons_eq_ok_iff {p : Parcel} {parcels : List (Parcel × PowerMode)}
    {messages : List Message} :
    r.receiveAll ((p, mode) :: parcels) = .ok (messages, s') ↔
      ∃ reply others, r.receive p.frame p.number mode = .ok reply
        ∧ reply.session.receiveAll parcels = .ok (others, s') ∧ reply.answer :: others = messages := by
  rw [receiveAll, bind_eq_ok_iff]
  simp only [map_eq_ok_iff, Prod.exists, Prod.mk.injEq]
  constructor
  · rintro ⟨reply, hreceive, others, last, hothers, rfl, rfl⟩
    exact ⟨reply, others, hreceive, hothers, rfl⟩
  · rintro ⟨reply, others, hreceive, hothers, rfl⟩
    exact ⟨reply, hreceive, others, s', hothers, rfl, rfl⟩

/-- Data keeps a connected session connected. -/
theorem target_data {state : LinkState} (hstate : state = .connected) :
    state.target .data = some .connected := by
  rw [hstate]
  rfl

/-- The number handed out next may come next. -/
theorem InStep.check (hstep : InStep registry settings s r) :
    r.history.check s.outbound.current = .ok () := by
  apply History.check_eq_ok_iff.mpr
  intro next hnext
  unfold History.expected at hnext
  rcases hstep.number with hnone | hlast
  · rw [hnone] at hnext
    cases hnext
  · rw [hlast, Option.map_some, Option.some.injEq] at hnext
    rw [← hnext, UInt16.sub_add_cancel]

/-- **One message.**  What the first of two sessions in step sends, the second takes, and they are in
step again. -/
theorem InStep.step (hstep : InStep registry settings s r) (htyped : m.WellTyped)
    (hdepth : m.nesting ≤ settings.maxNesting.toNat)
    {sent : Reply ω (UInt16 × Bytes)} (hsend : s.send m mode = .ok sent) :
    ∃ taken, r.receive sent.answer.2 sent.answer.1 mode = .ok taken
      ∧ taken.answer = registry.restore m ∧ InStep registry settings sent.session taken.session := by
  obtain ⟨frame, connection, notices, -, hencode, hsize, hmove, rfl⟩ := send_eq_ok_iff.mp hsend
  rw [hstep.senderRegistry] at hencode
  rw [hstep.senderSettings, ← hstep.receiverSettings] at hsize
  rw [Connection.perform_of_eq hstep.senderState (target_data hstep.senderState),
    Except.ok.injEq] at hmove
  have hdecode : r.decoder.decode frame = .ok (registry.restore m) := by
    unfold decoder
    rw [hstep.receiverRegistry, hstep.receiverSettings]
    exact (decode_encodeChecked settings.maxNesting.toNat htyped hencode).1 hdepth
  have hnext : r.connection.nextState (r.classify (registry.restore m)) = .ok .connected := by
    rw [hstep.plain, category_of_decode hdecode]
    exact Connection.nextState_of_some (target_data hstep.receiverState)
  refine ⟨r.accept (registry.restore m) s.outbound.current .connected, ?_, ?_, ?_⟩
  · exact receive_eq_ok_iff.mpr ⟨_, _, hsize, hdecode, hstep.check, hnext, rfl⟩
  · exact answer_accept hstep.plain _ _ _
  · exact
      { senderRegistry := hstep.senderRegistry
        receiverRegistry := hstep.receiverRegistry
        senderSettings := hstep.senderSettings
        receiverSettings := hstep.receiverSettings
        senderState := congrArg (fun made => made.1.state) hmove.symm
        receiverState := rfl
        plain := hstep.plain
        number := .inr (congrArg some (UInt16.add_sub_cancel _ 1).symm) }

/-- **Any number of messages** are taken as they are sent, and leave the sessions in step. -/
theorem InStep.steps (hstep : InStep registry settings s r)
    {traffic : List (Message × PowerMode)} {parcels : List (Parcel × PowerMode)}
    (htyped : ∀ p ∈ traffic, p.1.WellTyped)
    (hdepth : ∀ p ∈ traffic, p.1.nesting ≤ settings.maxNesting.toNat)
    (hsend : s.sendAll traffic = .ok (parcels, s')) :
    ∃ r', r.receiveAll parcels = .ok (traffic.map fun p => registry.restore p.1, r')
      ∧ InStep registry settings s' r' := by
  induction traffic generalizing s r parcels with
  | nil =>
      rw [sendAll, Except.ok.injEq, Prod.mk.injEq] at hsend
      obtain ⟨rfl, rfl⟩ := hsend
      exact ⟨r, rfl, hstep⟩
  | cons p traffic ih =>
      obtain ⟨m, mode⟩ := p
      obtain ⟨sent, others, hfirst, hrest, rfl⟩ := sendAll_cons_eq_ok_iff.mp hsend
      obtain ⟨hfirstTyped, hrestTyped⟩ := List.forall_mem_cons.mp htyped
      obtain ⟨hfirstDepth, hrestDepth⟩ := List.forall_mem_cons.mp hdepth
      obtain ⟨taken, htaken, hanswer, hafter⟩ := hstep.step hfirstTyped hfirstDepth hfirst
      obtain ⟨r', hothers, hlast⟩ := ih hafter hrestTyped hrestDepth hrest
      refine ⟨r', ?_, hlast⟩
      let p : Parcel := ⟨m, sent.answer.1, sent.answer.2⟩
      have hcons := (receiveAll_cons_eq_ok_iff (p := p)).mpr ⟨taken, _, htaken, hothers, rfl⟩
      rw [hanswer] at hcons
      exact hcons

/-- Of messages that can all be sent, the first ones can. -/
theorem sendAll_take {traffic : List (Message × PowerMode)} {parcels : List (Parcel × PowerMode)}
    (hsend : s.sendAll traffic = .ok (parcels, s')) (count : Nat) :
    ∃ between, s.sendAll (traffic.take count) = .ok (parcels.take count, between) := by
  induction count generalizing s traffic parcels with
  | zero => exact ⟨s, rfl⟩
  | succ count ih =>
      cases traffic with
      | nil =>
          rw [sendAll, Except.ok.injEq, Prod.mk.injEq] at hsend
          obtain ⟨rfl, rfl⟩ := hsend
          exact ⟨s, rfl⟩
      | cons p traffic =>
          obtain ⟨m, mode⟩ := p
          obtain ⟨sent, others, hfirst, hrest, rfl⟩ := sendAll_cons_eq_ok_iff.mp hsend
          obtain ⟨between, hfront⟩ := ih hrest
          exact ⟨between, sendAll_cons_eq_ok_iff.mpr ⟨sent, _, hfirst, hfront, rfl⟩⟩

/-- **Lossless traffic is always accepted.**  Of two sessions in step, whatever the first sends, and
however much, the second takes in the same order and the same power modes, as long as the messages
nest no deeper than the settings allow.  Every message comes back with the marks of its entry, and
both sessions are connected after each of them. -/
theorem receiveAll_sendAll (hstep : InStep registry settings s r)
    {traffic : List (Message × PowerMode)} {parcels : List (Parcel × PowerMode)}
    (htyped : ∀ p ∈ traffic, p.1.WellTyped)
    (hdepth : ∀ p ∈ traffic, p.1.nesting ≤ settings.maxNesting.toNat)
    (hsend : s.sendAll traffic = .ok (parcels, s')) (count : Nat) :
    ∃ between r', s.sendAll (traffic.take count) = .ok (parcels.take count, between)
      ∧ r.receiveAll (parcels.take count)
        = .ok ((traffic.take count).map fun p => registry.restore p.1, r')
      ∧ between.connection.state = .connected ∧ r'.connection.state = .connected := by
  obtain ⟨between, hfront⟩ := sendAll_take hsend count
  have hsome : ∀ p ∈ traffic.take count, p ∈ traffic := fun p => List.mem_of_mem_take
  obtain ⟨r', hreceive, hafter⟩ := hstep.steps (fun p hmem => htyped p (hsome p hmem))
    (fun p hmem => hdepth p (hsome p hmem)) hfront
  exact ⟨between, r', hfront, hreceive, hafter.senderState, hafter.receiverState⟩

/-- Two envelopes between sessions that are in step where the numbers start over, the second at
reduced power. -/
theorem receiveAll_sendAll_envelopes :
    ∃ (s r s' r' : Session Unit) (parcels : List (Parcel × PowerMode)),
      InStep envelopes {} s r
        ∧ s.sendAll [(envelope 0, .normal), (envelope 1, .lowPower)] = .ok (parcels, s')
        ∧ r.receiveAll parcels = .ok ([envelope 0, envelope 1], r')
        ∧ r'.connection.state = .connected := by
  let s : Session Unit :=
    { registry := envelopes, connection := { state := .connected }, outbound := ⟨65535⟩ }
  let r : Session Unit :=
    { registry := envelopes, connection := { state := .connected }, history := ⟨some 65534⟩ }
  let traffic : List (Message × PowerMode) := [(envelope 0, .normal), (envelope 1, .lowPower)]
  have hstep : InStep envelopes {} s r :=
    ⟨rfl, rfl, rfl, rfl, rfl, rfl, rfl, .inr (by decide +kernel)⟩
  have htyped : ∀ p ∈ traffic, p.1.WellTyped :=
    List.forall_mem_cons.mpr ⟨wellTyped_envelope 0,
      List.forall_mem_singleton.mpr (wellTyped_envelope 1)⟩
  have hdepth : ∀ p ∈ traffic, p.1.nesting ≤ ({} : LinkSettings).maxNesting.toNat :=
    List.forall_mem_cons.mpr ⟨Nat.le_trans (Nat.le_of_eq (nesting_envelope 0)) (by decide),
      List.forall_mem_singleton.mpr
        (Nat.le_trans (Nat.le_of_eq (nesting_envelope 1)) (by decide))⟩
  have hparcels : (s.sendAll traffic).map Prod.fst
      = .ok [(⟨envelope 0, 65535, [1, 1, 0, 1, 238, 249, 1]⟩, .normal),
          (⟨envelope 1, 0, [1, 1, 0, 8, 184, 212, 1, 1, 1, 0, 1, 238, 249, 1]⟩, .lowPower)] := by
    decide +kernel
  obtain ⟨⟨parcels, s'⟩, hsend, rfl⟩ := map_eq_ok_iff.mp hparcels
  obtain ⟨between, r', -, hreceive, -, hstate⟩ :=
    receiveAll_sendAll hstep htyped hdepth hsend 2
  have hmessages : ((traffic.take 2).map fun p => envelopes.restore p.1)
      = [envelope 0, envelope 1] := by
    decide +kernel
  rw [hmessages] at hreceive
  exact ⟨s, r, s', r', _, hstep, hsend, hreceive, hstate⟩

end Session

end SatWire
