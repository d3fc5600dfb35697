import SatWire.Proofs.Frame.RoundTrip
import SatWire.Proofs.Inspect.InPlace
import SatWire.Proofs.Inspect.Line
import SatWire.Proofs.Link.Calls
import SatWire.Proofs.Text.Decimal

/-!
# An inspector and a session

The lines of a recording hold frames with their numbers.  What an inspector makes of such a line, and
what a session makes of the frame, is one judgement (`Inspector.judge`): the frame is read first, and
then the number is taken.  A connected session of the same registry and settings has the inspector's
history as long as both judge the same traffic (`Listens`); data keeps it connected, and all that is
read is data.  So the two agree on whole recordings, line by line (`Listens.decodeEach`): a line is
decoded, with the history that the lines before it left, to the very message that the session
receives, or it is refused for the session's fault.
-/

namespace SatWire

/-- A frame that arrived with a number, and its hexadecimal text in a recording. -/
structure Arrival where
  number : UInt16
  frame : Bytes
  text : List Char
  spelled : Hex.Spells text frame
  nonempty : frame ≠ []

namespace Arrival

/-- The line of a recording: the number, a space, and the text of the frame. -/
def line (a : Arrival) : String :=
  toString a.number.toNat ++ " " ++ String.ofList a.text

variable (a : Arrival)

/-- The characters of a line: decimal digits, a space, hexadecimal digits. -/
theorem toList_line : a.line.toList = Nat.toDigits 10 a.number.toNat ++ ' ' :: a.text := by
  rw [line, String.toList_append, String.toList_append, Decimal.toList_toString,
    String.toList_ofList, String.toList_ofList, List.append_assoc, List.singleton_append]

/-- The text of a frame has a last digit. -/
theorem exists_text : ∃ front last, a.text = front ++ [last] := by
  have hlength := a.spelled.length
  have hframe : 0 < a.frame.length := List.length_pos_iff.mpr a.nonempty
  have htext : a.text ≠ [] := List.length_pos_iff.mp (by omega)
  exact ⟨_, _, (List.dropLast_concat_getLast htext).symm⟩

end Arrival

/-- No digit is blank. -/
theorem Decimal.clean_toDigits (n : Nat) : ∀ c ∈ Nat.toDigits 10 n, Text.isBlank c = false := by
  intro c hmem
  have hdigit := isDigit_of_mem hmem
  simp only [Char.isDigit, Bool.and_eq_true, decide_eq_true_eq, ge_iff_le,
    UInt32.le_iff_toNat_le] at hdigit
  have hlow : 48 ≤ c.toNat := hdigit.1
  have hhigh : c.toNat ≤ 57 := hdigit.2
  simp only [Text.isBlank, Bool.or_eq_false_iff, Bool.and_eq_false_iff, decide_eq_false_iff_not,
    beq_eq_false_iff_ne, ne_eq]
  omega

/-- The decimal digits of a sequence number spell it. -/
theorem sequenceNumber?_toDigits (number : UInt16) :
    sequenceNumber? (Nat.toDigits 10 number.toNat) = some number := by
  have hsome : Nat.toDigits 10 number.toNat ≠ [] := Nat.toDigits_ne_nil
  have hdigits : (Nat.toDigits 10 number.toNat).all Char.isDigit = true :=
    List.all_eq_true.mpr fun c hmem => Decimal.isDigit_of_mem hmem
  have hsmall : number.toNat < UInt16.size := number.toNat_lt
  have hvalue := Decimal.foldl_toDigits number.toNat
  rw [sequenceNumber?, if_pos ⟨hsome, hdigits⟩]
  · dsimp only
    rw [hvalue, if_pos hsmall, UInt16.ofNat_toNat]
  · -- No digit is a plus sign, so none is taken off.
    intro digits hplus
    have hsign : '+' ∈ Nat.toDigits 10 number.toNat := hplus ▸ List.mem_cons_self
    exact absurd (Decimal.isDigit_of_mem hsign) (by decide)

namespace Arrival

variable (a : Arrival)

/-- The line has no blanks at its ends. -/
theorem trim_line : Text.trim a.line.toList = a.line.toList := by
  obtain ⟨front, last, htext⟩ := a.exists_text
  obtain ⟨first, more, hfirst⟩ :=
    List.exists_cons_of_ne_nil (Nat.toDigits_ne_nil (n := a.number.toNat) (b := 10))
  apply Text.trim_eq
  · intro c hc
    rw [toList_line, hfirst] at hc
    cases hc
    exact Decimal.clean_toDigits a.number.toNat first (hfirst ▸ List.mem_cons_self)
  · intro c hc
    rw [toList_line, htext, ← List.cons_append, ← List.append_assoc, List.getLast?_concat] at hc
    cases hc
    exact (a.spelled.clean last (htext ▸ List.mem_append_right front List.mem_cons_self)).2.2

/-- The line is not empty. -/
theorem line_ne_nil : a.line.toList ≠ [] := by
  rw [toList_line]
  exact List.append_ne_nil_of_left_ne_nil Nat.toDigits_ne_nil _

/-- The line is split into its number and the text of its frame. -/
theorem splitNumber_line :
    Inspector.splitNumber a.line.toList = .ok (some a.number, a.text) := by
  have hsplit : Text.splitBlank? a.line.toList
      = some (Nat.toDigits 10 a.number.toNat, a.text) := by
    rw [toList_line]
    exact Text.splitBlank?_append (Decimal.clean_toDigits a.number.toNat) rfl
  have htext : Text.trim a.text = a.text :=
    Text.trim_of_clean fun c hmem => (a.spelled.clean c hmem).2.2
  rw [Inspector.splitNumber, hsplit]
  dsimp only
  rw [sequenceNumber?_toDigits, htext]

/-- No character of the line is a line feed. -/
theorem lineFeed_not_mem_line : '\n' ∉ a.line.toList := by
  rw [toList_line]
  intro hmem
  rcases List.mem_append.mp hmem with hnumber | hrest
  · exact absurd (Decimal.clean_toDigits a.number.toNat _ hnumber) (by decide)
  · rcases List.mem_cons.mp hrest with hspace | htext
    · exact absurd hspace (by decide)
    · exact absurd (a.spelled.clean _ htext).1 (by decide)

end Arrival

namespace Inspector

variable {i : Inspector} {h : History}

/-- What a frame with a number comes to after the traffic before it. -/
def judge (i : Inspector) (h : History) (frame : Bytes) (number : UInt16) :
    Except SessionError (Message × History) :=
  ((i.readFrame frame).mapError .parse).bind fun m =>
    ((h.take number).mapError .link).map fun after => (m, after)

/-- A line of a recording is judged by its frame and its number. -/
theorem decodeLine_line (i : Inspector) (h : History) (a : Arrival) :
    i.decodeLine h a.line.toList
      = ((i.judge h a.frame a.number).mapError .traffic).map fun (m, after) =>
          (⟨some a.number, m⟩, after) := by
  have hhex := a.spelled.decode
  rw [decodeLine, a.splitNumber_line]
  change ((Hex.decode (Utf8.encode (String.ofList a.text))).mapError LineError.hex).bind _ = _
  rw [hhex, judge]
  change ((i.readFrame a.frame).mapError _).bind _ = _
  cases i.readFrame a.frame with
  | error fault => rfl
  | ok m =>
      change ((h.take a.number).mapError _).bind _ = _
      cases h.take a.number <;> rfl

end Inspector

/-! ### The session -/

namespace Session

variable {ω : Type}

/-- A session of a registry and settings that was connected and has received nothing yet. -/
def opened (registry : Registry) (settings : LinkSettings) : Session ω :=
  (({ registry, settings } : Session ω).after (.perform .connect)).after (.handle .ack)

/-- Receives frames in turn, each by the session that the one before left. -/
def receiveEach (mode : PowerMode) (s : Session ω) :
    List Arrival → List (Except SessionError Message)
  | [] => []
  | a :: rest =>
    (s.receive a.frame a.number mode).map Reply.answer
      :: (s.after (.receive a.frame a.number mode)).receiveEach mode rest

end Session

/-- A connected session with the registry, the settings and the history of an inspector. -/
structure Listens {ω : Type} (i : Inspector) (h : History) (s : Session ω) : Prop where
  registry : s.registry = i.registry
  settings : s.settings = i.settings
  plain : s.classify = Message.category
  history : s.history = h
  state : s.connection.state = .connected

section Session

variable {ω : Type} {i : Inspector} {h : History} {s : Session ω}

/-- A session that was just connected listens with a history of nothing. -/
theorem listens_opened (i : Inspector) :
    Listens i {} (Session.opened i.registry i.settings : Session ω) :=
  ⟨rfl, rfl, rfl, rfl, rfl⟩

/-- Inspector and session decode frames alike. -/
theorem Listens.decoder (hlistens : Listens i h s) : s.decoder = i.decoder := by
  rw [Session.decoder, hlistens.registry, hlistens.settings]
  rfl

/-- **One frame.**  The session judges it as the inspector does, and listens on. -/
theorem Listens.receive (hlistens : Listens i h s) (frame : Bytes) (number : UInt16) :
    match i.judge h frame number with
    | .ok (m, after) => ∃ reply, s.receive frame number i.mode = .ok reply ∧ reply.answer = m
        ∧ Listens i after reply.session
    | .error fault => s.receive frame number i.mode = .error fault := by
  unfold Inspector.judge
  cases hread : i.readFrame frame with
  | error fault =>
      -- The size is checked before the frame is decoded, by both.
      dsimp only [Except.mapError, Except.bind]
      rw [Inspector.readFrame] at hread
      rw [Session.receive, hlistens.settings, hlistens.decoder]
      cases hsize : i.settings.sizeLimits.check frame.length i.mode with
      | error excess =>
          rw [hsize] at hread
          cases hread
          rfl
      | ok _ =>
          rw [hsize] at hread
          replace hread : i.decoder.decode frame = .error fault := hread
          rw [hread]
          rfl
  | ok m =>
      obtain ⟨_, hsize, hdecode⟩ := bind_eq_ok_iff.mp hread
      dsimp only [Except.mapError, Except.bind]
      rw [History.take]
      cases hnumber : h.check number with
      | error fault =>
          dsimp only [Except.mapError, Except.map]
          rw [Session.receive, hlistens.settings, hlistens.decoder, hlistens.history, hsize, hdecode,
            hnumber]
          rfl
      | ok _ =>
          dsimp only [Except.mapError, Except.map]
          have hdata : s.classify m = .data := by
            rw [hlistens.plain]
            exact category_of_decode hdecode
          have hmove : s.connection.nextState (s.classify m) = .ok .connected := by
            rw [Connection.nextState, hlistens.state, hdata]
            rfl
          refine ⟨s.accept m number .connected, Session.receive_eq_ok_iff.mpr ⟨m, .connected, ?_, ?_,
            ?_, hmove, rfl⟩, Session.answer_accept hlistens.plain m number _, ?_⟩
          · rw [hlistens.settings]
            exact hsize
          · rw [hlistens.decoder]
            exact hdecode
          · rw [hlistens.history]
            exact hnumber
          · exact ⟨hlistens.registry, hlistens.settings, hlistens.plain, rfl, rfl⟩

end Session

namespace Arrival

variable (a : Arrival)

/-- What decoding makes of the line of a frame of which a session says so. -/
def decoded (outcome : Except SessionError Message) : Except LineError DecodedLine :=
  (outcome.map fun m => ⟨some a.number, m⟩).mapError .traffic

/-- The verdict on the line of a frame of which a session says so. -/
def verdict : Except SessionError Message → Verdict
  | .ok m => .answered (DecodedLine.toJson ⟨some a.number, m⟩).render
  | .error fault => .refused (.traffic fault)

/-- The verdict on a line is told by what decoding makes of it. -/
theorem verdict_decoded (outcome : Except SessionError Message) :
    Inspector.verdict (some (a.decoded outcome)) = a.verdict outcome := by
  cases outcome <;> rfl

end Arrival

section Agreement

variable {ω : Type} {i : Inspector} {h : History} {s : Session ω}

/-- **One line.**  Decoding the line in place comes to what the session says of the frame, and the
session left listens with the history left. -/
theorem Listens.step (hlistens : Listens i h s) (a : Arrival) :
    ∃ next, (i.decodeInPlace a.line.toList).run h
        = (a.decoded ((s.receive a.frame a.number i.mode).map Session.Reply.answer), next)
      ∧ Listens i next (s.after (.receive a.frame a.number i.mode)) := by
  have hreceive := hlistens.receive a.frame a.number
  rw [i.decodeInPlace_run, i.decodeLine_line h a, Session.after]
  cases hjudge : i.judge h a.frame a.number with
  | error fault =>
      rw [hjudge] at hreceive
      dsimp only at hreceive
      rw [hreceive]
      exact ⟨h, rfl, hlistens⟩
  | ok judged =>
      obtain ⟨m, next⟩ := judged
      rw [hjudge] at hreceive
      obtain ⟨reply, haccept, rfl, hnext⟩ := hreceive
      rw [haccept]
      exact ⟨next, rfl, hnext⟩

/-- **Whole recordings.**  Decoding makes of the lines in turn what the session says of the frames in
turn. -/
theorem Listens.decodeEach (hlistens : Listens i h s) (arrivals : List Arrival) :
    i.decodeEach h (arrivals.map Arrival.line)
      = List.zipWith (fun a outcome => some (a.decoded outcome)) arrivals
          (s.receiveEach i.mode arrivals) := by
  induction arrivals generalizing h s with
  | nil => rfl
  | cons a rest ih =>
      obtain ⟨next, hrun, hnext⟩ := hlistens.step a
      have htext : Text.trim a.line.toList ≠ [] := a.trim_line.symm ▸ a.line_ne_nil
      rw [List.map_cons, Inspector.decodeEach_cons_of_text htext, a.trim_line, hrun, ih hnext,
        Session.receiveEach, List.zipWith_cons_cons]

/-- As many frames are judged as arrive. -/
theorem Session.length_receiveEach (mode : PowerMode) (s : Session ω) (arrivals : List Arrival) :
    (s.receiveEach mode arrivals).length = arrivals.length := by
  induction arrivals generalizing s with
  | nil => rfl
  | cons a rest ih => rw [receiveEach, List.length_cons, List.length_cons, ih]

end Agreement

/-- **The inspector and a session judge traffic alike.**  An inspector that decodes a recording, and a
session of its registry and settings that was connected and receives the same frames with the same
numbers in the same power mode, say the same of each: the line is decoded to the message that the
session receives, and answered with it, or it is refused for the session's fault, in the same
words. -/
theorem Inspector.judges_as_session (ω : Type) (i : Inspector) (arrivals : List Arrival) :
    let s : Session ω := .opened i.registry i.settings
    let outcomes := s.receiveEach i.mode arrivals
    let recording := (arrivals.map fun a => Utf8.encode a.line).flatMap (· ++ [0x0A])
    s.connection.state = .connected ∧ outcomes.length = arrivals.length
      ∧ readLines recording = (arrivals.map Arrival.line, .complete)
      ∧ i.decodeEach {} (arrivals.map Arrival.line)
        = List.zipWith (fun a outcome => some (a.decoded outcome)) arrivals outcomes
      ∧ i.decoding.verdicts (arrivals.map Arrival.line)
        = List.zipWith Arrival.verdict arrivals outcomes
      ∧ i.decoding.run recording none
        = carryOut 1 none .complete (List.zipWith Arrival.verdict arrivals outcomes)
      ∧ ∀ fault : SessionError, (LineError.traffic fault).message = fault.message := by
  intro s outcomes recording
  have hlines : Text.lines recording = (arrivals.map Arrival.line).map Utf8.encode := by
    rw [List.map_map]
    apply Text.lines_joined
    intro octets hmem
    obtain ⟨a, -, rfl⟩ := List.mem_map.mp hmem
    exact Text.lineFeed_not_mem a.lineFeed_not_mem_line
  have hdecoded : i.decodeEach {} (arrivals.map Arrival.line)
      = List.zipWith (fun a outcome => some (a.decoded outcome)) arrivals outcomes :=
    (listens_opened i).decodeEach arrivals
  have hverdicts : i.decoding.verdicts (arrivals.map Arrival.line)
      = List.zipWith Arrival.verdict arrivals outcomes := by
    refine (i.verdictsFrom_decoding {} _).trans ?_
    rw [hdecoded, List.map_zipWith]
    simp only [Arrival.verdict_decoded]
  refine ⟨rfl, s.length_receiveEach i.mode arrivals, readLines_of_texts hlines, hdecoded, hverdicts,
    ?_, fun fault => rfl⟩
  rw [i.decoding.run_of_texts hlines, hverdicts]

/-- A frame that arrived with a number, recorded in small digits. -/
def Arrival.recorded (number : UInt16) (frame : Bytes) (nonempty : frame ≠ []) : Arrival where
  number
  frame
  text := (Hex.encode frame).toList
  spelled := Hex.spells_encode frame
  nonempty

/-- An envelope is taken, and refused when it comes again; of octets that are no frame the number is
not taken, and so the envelope behind them may have it. -/
theorem Inspector.judges_as_session_envelopes :
    let i : Inspector := { registry := envelopes }
    let frame : Bytes := [1, 1, 0, 1, 238, 249, 1]
    let arrivals : List Arrival :=
      [.recorded 7 frame (by decide), .recorded 7 frame (by decide), .recorded 8 [1, 2] (by decide),
        .recorded 8 frame (by decide)]
    let lines := ["7 01010001eef901", "7 01010001eef901", "8 0102", "8 01010001eef901"]
    let short : SessionError := .parse ⟨[], .headerCut 2⟩
    arrivals.map Arrival.line = lines
      ∧ (Session.opened i.registry i.settings : Session Unit).receiveEach i.mode arrivals
        = [.ok (envelope 0), .error (.link (.outOfSequence 7 8)), .error short, .ok (envelope 0)]
      ∧ i.decodeEach {} lines
        = [some (.ok ⟨some 7, envelope 0⟩), some (.error (.traffic (.link (.outOfSequence 7 8)))),
          some (.error (.traffic short)), some (.ok ⟨some 8, envelope 0⟩)] := by
  intro i frame arrivals lines short
  have hlines : arrivals.map Arrival.line = lines := by decide +kernel
  have houtcomes : (Session.opened i.registry i.settings : Session Unit).receiveEach i.mode arrivals
      = [.ok (envelope 0), .error (.link (.outOfSequence 7 8)), .error short, .ok (envelope 0)] := by
    decide +kernel
  obtain ⟨-, -, -, hdecoded, -⟩ := Inspector.judges_as_session Unit i arrivals
  rw [houtcomes, hlines] at hdecoded
  exact ⟨hlines, houtcomes, hdecoded⟩

end SatWire
