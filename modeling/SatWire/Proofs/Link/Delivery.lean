import Mathlib.Logic.Relation
import SatWire.Proofs.Frame.RoundTrip
import SatWire.Proofs.Link.Calls

/-!
# Delivery over a network that promises nothing

One session sends, another receives, and what was sent may arrive late, often, out of order or not
at all.  The numbers alone keep order: after the first message that it takes, the receiver waits for
the next one sent, and for no other as long as the numbers have not come round.

`Ordered` is what every step keeps.  The messages received are a stretch of those sent, and the
number expected next is the one of the message behind that stretch.
-/

namespace SatWire

open Session (Call)

/-- A message with the number and the frame that came of sending it. -/
structure Parcel where
  message : Message
  number : UInt16
  frame : Bytes
  deriving DecidableEq

/-- A sender and a receiver, with everything that was sent and everything that was received so far,
oldest first. -/
structure Line (ω : Type) where
  sender : Session ω
  receiver : Session ω
  sent : List Parcel := []
  received : List Message := []

namespace Line

variable {ω : Type}

/-- Asks the sender something, and keeps what it sends. -/
def ask (l : Line ω) : Call ω → Line ω
  | .send m mode =>
    match l.sender.send m mode with
    | .ok reply =>
      { l with sender := reply.session,
               sent := l.sent ++ [⟨m, reply.answer.1, reply.answer.2⟩] }
    | .error _ => l
  | call => { l with sender := l.sender.after call }

/-- Hands a parcel to the receiver, and keeps the message if it is taken. -/
def deliver (l : Line ω) (p : Parcel) (mode : PowerMode) : Line ω :=
  match l.receiver.receive p.frame p.number mode with
  | .ok reply => { l with receiver := reply.session, received := l.received ++ [reply.answer] }
  | .error _ => l

/-- What may happen to a receiver beside deliveries: frames that it refuses and calls that are not
about receiving.  It does not forget the numbers received, and its classifier stays. -/
def Aside (s : Session ω) : Call ω → Prop
  | .receive frame number mode => ∃ fault, s.receive frame number mode = .error fault
  | .reset | .classify _ => False
  | _ => True

/-- What can happen on a line. -/
inductive Step : Line ω → Line ω → Prop
  /-- Anything is asked of the sender. -/
  | ask (l : Line ω) (call : Call ω) : Step l (l.ask call)
  /-- The network hands over something that was sent, whatever it handed over before. -/
  | deliver (l : Line ω) {p : Parcel} (hsent : p ∈ l.sent) (mode : PowerMode) :
      Step l (l.deliver p mode)
  /-- Something else happens to the receiver. -/
  | aside (l : Line ω) {call : Call ω} (haside : Aside l.receiver call) :
      Step l { l with receiver := l.receiver.after call }

/-- Nothing was sent yet, the two ends share a registry, and the receiver remembers no number and
takes messages for what they say they are. -/
structure Fresh (l : Line ω) : Prop where
  shared : l.sender.registry = l.receiver.registry
  forgetful : l.receiver.history = {}
  plain : l.receiver.classify = Message.category
  unsent : l.sent = []
  unreceived : l.received = []

/-- What holds of a line at any time: parcels bear numbers from `first` on, in order, and hold what
was written for their messages; and the messages received are those of a stretch of the parcels, the
number behind which is expected next. -/
structure Ordered (r : Registry) (first : UInt16) (l : Line ω) : Prop where
  sender : l.sender.registry = r
  receiver : l.receiver.registry = r
  plain : l.receiver.classify = Message.category
  counter : l.sender.outbound.current = first + UInt16.ofNat l.sent.length
  numbered : ∀ k p, l.sent[k]? = some p → p.number = first + UInt16.ofNat k
  written : ∀ p ∈ l.sent, p.message.encodeChecked r = .ok p.frame
  stretch : ∃ before block behind, l.sent = before ++ block ++ behind
    ∧ l.received = block.map (fun p => r.restore p.message)
    ∧ l.receiver.history.expected
        = if block = [] then none else some (first + UInt16.ofNat (before ++ block).length)

variable {r : Registry} {first : UInt16} {l : Line ω}

/-- Deliveries send nothing. -/
theorem sent_deliver {p : Parcel} {mode : PowerMode} : (l.deliver p mode).sent = l.sent := by
  rw [deliver]
  split <;> rfl

/-- Asking the sender takes nothing back. -/
theorem sent_ask (call : Call ω) : l.sent <+: (l.ask call).sent := by
  cases call with
  | send m mode =>
      rw [ask]
      split
      · exact List.prefix_append _ _
      · exact List.prefix_rfl
  | receive | reset | classify | handle | perform | observe | ignore => exact List.prefix_rfl

/-- A fresh line is in order, whatever number the sender starts from. -/
theorem Fresh.ordered (hfresh : l.Fresh) :
    Ordered l.receiver.registry l.sender.outbound.current l where
  sender := hfresh.shared
  receiver := rfl
  plain := hfresh.plain
  counter := by simp [hfresh.unsent]
  numbered := by simp [hfresh.unsent]
  written := by simp [hfresh.unsent]
  stretch := ⟨[], [], [], hfresh.unsent, hfresh.unreceived, by
    simp [hfresh.forgetful, History.expected]⟩

/-- What the sender does without sending keeps the line in order. -/
theorem Ordered.of_sender (hordered : Ordered r first l) {s : Session ω}
    (hregistry : s.registry = l.sender.registry) (houtbound : s.outbound = l.sender.outbound) :
    Ordered r first { l with sender := s } :=
  { hordered with
    sender := hregistry.trans hordered.sender
    counter := by
      rw [houtbound]
      exact hordered.counter }

/-- What is sent goes behind everything sent before, with the next number. -/
theorem Ordered.of_send (hordered : Ordered r first l) {m : Message} {mode : PowerMode}
    {reply : Session.Reply ω (UInt16 × Bytes)} (hsend : l.sender.send m mode = .ok reply) :
    Ordered r first { l with
      sender := reply.session, sent := l.sent ++ [⟨m, reply.answer.1, reply.answer.2⟩] } := by
  obtain ⟨frame, connection, notices, -, hencode, -, -, rfl⟩ := Session.send_eq_ok_iff.mp hsend
  obtain ⟨hsender, hreceiver, hplain, hcounter, hnumbered, hwritten, hstretch⟩ := hordered
  refine ⟨hsender, hreceiver, hplain, ?_, ?_, ?_, ?_⟩
  · rw [List.length_append, List.length_singleton, UInt16.ofNat_add, ← UInt16.add_assoc, ← hcounter]
    rfl
  · intro k p hget
    rcases Nat.lt_or_ge k l.sent.length with hlt | hge
    · rw [List.getElem?_append_left hlt] at hget
      exact hnumbered k p hget
    · rw [List.getElem?_append_right hge, List.getElem?_singleton] at hget
      split at hget
      · rename_i hlast
        cases hget
        obtain rfl : k = l.sent.length := by omega
        exact hcounter
      · cases hget
  · intro p hmem
    rcases List.mem_append.mp hmem with hold | hnew
    · exact hwritten p hold
    · rw [List.mem_singleton.mp hnew, ← hsender]
      exact hencode
  · obtain ⟨before, block, behind, hsent, hreceived, hexpected⟩ := hstretch
    refine ⟨before, block, behind ++ [⟨m, l.sender.outbound.current, frame⟩], ?_, hreceived,
      hexpected⟩
    rw [hsent, List.append_assoc]
    rfl

/-- **Asking the sender keeps the order**, whatever is asked. -/
theorem Ordered.ask (hordered : Ordered r first l) (call : Call ω) :
    Ordered r first (l.ask call) := by
  cases call with
  | send m mode =>
      rw [Line.ask]
      split
      · exact hordered.of_send ‹_›
      · exact hordered
  | receive | reset | classify | handle | perform | observe | ignore =>
      have hkept := Session.kept_after (s := l.sender)
      exact hordered.of_sender (hkept _).registry ((hkept _).outbound (by simp))

/-- **What happens aside keeps the order.** -/
theorem Ordered.aside (hordered : Ordered r first l) {call : Call ω}
    (haside : Aside l.receiver call) :
    Ordered r first { l with receiver := l.receiver.after call } := by
  obtain ⟨hregistry, hclassify, hhistory⟩ : (l.receiver.after call).registry = l.receiver.registry
      ∧ (l.receiver.after call).classify = l.receiver.classify
      ∧ (l.receiver.after call).history = l.receiver.history := by
    have hkept := Session.kept_after (s := l.receiver) call
    cases call with
    | receive frame number mode =>
        obtain ⟨fault, hfault⟩ := haside
        simp [Session.after, hfault]
    | reset | classify => exact haside.elim
    | send | handle | perform | observe | ignore =>
        exact ⟨hkept.registry, hkept.classify (by simp), hkept.history (by simp) (by simp)⟩
  obtain ⟨hsender, hreceiver, hplain, hcounter, hnumbered, hwritten, hstretch⟩ := hordered
  exact ⟨hsender, hregistry.trans hreceiver, hclassify.trans hplain, hcounter, hnumbered, hwritten,
    by simpa only [hhistory] using hstretch⟩

/-- Numbers of parcels are equal only if their places are, as long as the numbers have not come
round. -/
theorem place_inj {j k : Nat} (hj : j < 65536) (hk : k < 65536)
    (hsame : first + UInt16.ofNat j = first + UInt16.ofNat k) : j = k := by
  have hwords := congrArg UInt16.toNat ((UInt16.add_right_inj first).mp hsame)
  rwa [UInt16.toNat_ofNat_of_lt' hj, UInt16.toNat_ofNat_of_lt' hk] at hwords

/-- The number of a parcel is that of its place. -/
theorem Ordered.number_eq (hordered : Ordered r first l) {p : Parcel} {front back : List Parcel}
    (hsent : l.sent = front ++ p :: back) : p.number = first + UInt16.ofNat front.length := by
  apply hordered.numbered front.length p
  rw [hsent, List.getElem?_append_right (Nat.le_refl _), Nat.sub_self]
  rfl

/-- The number expected behind a stretch that ends with a parcel. -/
theorem expected_commit (h : History) {p : Parcel} {front : List Parcel}
    (hnumber : p.number = first + UInt16.ofNat front.length) :
    (h.commit p.number).expected = some (first + UInt16.ofNat (front ++ [p]).length) := by
  rw [List.length_append, List.length_singleton, UInt16.ofNat_add, ← UInt16.add_assoc, ← hnumber]
  rfl

/-- **The stretch grows at its end only.**  A parcel whose number may come next begins the stretch,
or is the one right behind it. -/
theorem Ordered.extends (hordered : Ordered r first l) (hfew : l.sent.length < 65536) {p : Parcel}
    (hmem : p ∈ l.sent) (hnext : l.receiver.history.check p.number = .ok ()) :
    ∃ before block behind, l.sent = before ++ (block ++ [p]) ++ behind
      ∧ l.received = block.map (fun p => r.restore p.message)
      ∧ p.number = first + UInt16.ofNat (before ++ block).length := by
  obtain ⟨front, back, hsplit⟩ := List.append_of_mem hmem
  have hnumber := hordered.number_eq hsplit
  obtain ⟨before, block, behind, hsent, hreceived, hexpected⟩ := hordered.stretch
  by_cases hempty : block = []
  · subst hempty
    refine ⟨front, [], back, by simp [hsplit], hreceived, ?_⟩
    rw [hnumber, List.append_nil]
  · rw [if_neg hempty] at hexpected
    have hsame := History.check_eq_ok_iff.mp hnext _ hexpected
    have hsize : l.sent.length = (before ++ block).length + behind.length := by
      rw [hsent, List.length_append]
    have hplace : l.sent.length = front.length + (back.length + 1) := by
      rw [hsplit, List.length_append, List.length_cons]
    have hlength : front.length = (before ++ block).length :=
      place_inj (by omega) (by omega) (hnumber.symm.trans hsame)
    obtain ⟨rfl, rfl⟩ := List.append_inj (hsplit.symm.trans hsent) hlength
    exact ⟨before, block, back, by simp [hsplit], hreceived, hsame⟩

/-- **Delivering keeps the order**, whatever is delivered, as long as the numbers have not come
round. -/
theorem Ordered.deliver (hordered : Ordered r first l) (hfew : l.sent.length < 65536) {p : Parcel}
    (hmem : p ∈ l.sent) (htyped : p.message.WellTyped) (mode : PowerMode) :
    Ordered r first (l.deliver p mode) := by
  rw [Line.deliver]
  split
  · rename_i reply hreceive
    obtain ⟨m, next, -, hdecode, hnext, -, rfl⟩ := Session.receive_eq_ok_iff.mp hreceive
    obtain ⟨before, block, behind, hsent, hreceived, hnumber⟩ := hordered.extends hfew hmem hnext
    have hanswer : (l.receiver.accept m p.number next).answer = r.restore p.message := by
      have hwritten := hordered.written p hmem
      rw [← hordered.receiver] at hwritten ⊢
      rw [← eq_restore_of_decode htyped hwritten hdecode]
      exact Session.answer_accept hordered.plain m p.number next
    refine { hordered with stretch := ⟨before, block ++ [p], behind, hsent, ?_, ?_⟩ }
    · rw [hreceived, hanswer, List.map_append, List.map_singleton]
    · rw [if_neg (by simp), ← List.append_assoc]
      exact expected_commit l.receiver.history hnumber
  · exact hordered

/-- **One step keeps the order.** -/
theorem Ordered.step (hordered : Ordered r first l) {l' : Line ω} (hstep : Step l l')
    (htyped : ∀ p ∈ l'.sent, p.message.WellTyped) (hfew : l'.sent.length < 65536) :
    Ordered r first l' := by
  cases hstep with
  | ask call => exact hordered.ask call
  | deliver hmem mode =>
      rw [sent_deliver] at htyped hfew
      exact hordered.deliver hfew hmem (htyped _ hmem) mode
  | aside haside => exact hordered.aside haside

/-- What was sent stays sent. -/
theorem Step.sent_prefix {l l' : Line ω} (hstep : Step l l') : l.sent <+: l'.sent := by
  cases hstep with
  | ask call => exact sent_ask call
  | deliver hmem mode => simp only [sent_deliver, List.prefix_rfl]
  | aside haside => exact List.prefix_rfl

/-- **A whole run keeps the order.** -/
theorem Fresh.ordered_of_run {l₀ : Line ω} (hfresh : l₀.Fresh)
    (hrun : Relation.ReflTransGen Step l₀ l) (htyped : ∀ p ∈ l.sent, p.message.WellTyped)
    (hfew : l.sent.length < 65536) :
    Ordered l₀.receiver.registry l₀.sender.outbound.current l := by
  induction hrun with
  | refl => exact hfresh.ordered
  | tail hbefore hstep ih =>
      have hold := hstep.sent_prefix
      have hordered := ih (fun p hmem => htyped p (hold.subset hmem))
        (Nat.lt_of_le_of_lt hold.length_le hfew)
      exact hordered.step hstep htyped hfew

/-- **In order, once each, and unaltered.**  On a line that was fresh, while fewer messages were
sent than there are numbers, what was received is one stretch of what was sent, in the order of
sending: each message once, as it comes back, and none left out in between.  The network may hand
over what was sent late, often, in any order or not at all, both ends may be asked anything else,
and messages need only be such as the constructors of fields make them. -/
theorem received_in_order {l₀ : Line ω} (hfresh : l₀.Fresh)
    (hrun : Relation.ReflTransGen Step l₀ l) (htyped : ∀ p ∈ l.sent, p.message.WellTyped)
    (hfew : l.sent.length < 65536) :
    ∃ before block behind, l.sent = before ++ block ++ behind
      ∧ l.received = block.map (fun p => l₀.receiver.registry.restore p.message) := by
  obtain ⟨before, block, behind, hsent, hreceived, -⟩ :=
    (hfresh.ordered_of_run hrun htyped hfew).stretch
  exact ⟨before, block, behind, hsent, hreceived⟩

/-- A line for envelopes, both ends connected, on which numbers start over after the first. -/
def envelopeLine : Line Unit where
  sender := { registry := envelopes, connection := { state := .connected }, outbound := ⟨65535⟩ }
  receiver := { registry := envelopes, connection := { state := .connected } }

/-- Of two envelopes the second arrives first, and the first is refused when it arrives. -/
theorem received_in_order_envelopes :
    ∃ l, Relation.ReflTransGen Step envelopeLine l ∧ l.sent.length = 2 ∧ l.received = [envelope 1]
      ∧ ∃ before block behind, l.sent = before ++ block ++ behind
        ∧ l.received = block.map (fun p => envelopes.restore p.message) := by
  let l := (envelopeLine.ask (.send (envelope 0) .normal)).ask (.send (envelope 1) .normal)
  let one : Parcel := ⟨envelope 0, 65535, [1, 1, 0, 1, 238, 249, 1]⟩
  let two : Parcel := ⟨envelope 1, 0, [1, 1, 0, 8, 184, 212, 1, 1, 1, 0, 1, 238, 249, 1]⟩
  have hsent : l.sent = [one, two] := by decide +kernel
  have hreceived : ((l.deliver two .normal).deliver one .normal).received = [envelope 1] := by
    decide +kernel
  have hasked : Relation.ReflTransGen Step envelopeLine l :=
    (Relation.ReflTransGen.single (.ask _ _)).tail (.ask _ _)
  have htwo : Step l (l.deliver two .normal) := .deliver l (by rw [hsent]; simp) .normal
  have hone : Step (l.deliver two .normal) ((l.deliver two .normal).deliver one .normal) :=
    .deliver _ (by rw [sent_deliver, hsent]; simp) .normal
  have hrun := (hasked.tail htwo).tail hone
  have hall : ((l.deliver two .normal).deliver one .normal).sent = [one, two] := by
    rw [sent_deliver, sent_deliver, hsent]
  have htyped : ∀ p ∈ ((l.deliver two .normal).deliver one .normal).sent, p.message.WellTyped := by
    rw [hall]
    simp only [List.forall_mem_cons, List.not_mem_nil, false_implies, implies_true, and_true]
    exact ⟨wellTyped_envelope 0, wellTyped_envelope 1⟩
  exact ⟨_, hrun, by rw [hall]; rfl, hreceived,
    received_in_order ⟨rfl, rfl, rfl, rfl, rfl⟩ hrun htyped (by rw [hall]; decide)⟩

end Line

end SatWire
