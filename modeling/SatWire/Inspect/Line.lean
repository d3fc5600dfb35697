import SatWire.Form.Message
import SatWire.Frame.Decode
import SatWire.Frame.Encode
import SatWire.Json.Writer
import SatWire.Link.Sequence
import SatWire.Octets.Hex
import SatWire.Text.Lines
import SatWire.Text.Utf8
/-!
# One line of an inspection

An inspector judges frames against a registry, as a session does, but takes them as text.  A line to
be decoded holds a frame in hexadecimal, perhaps with a sequence number and a blank before it; a line
to be encoded holds a message in its JSON form.

Sequence numbers are judged last, so a line that is refused leaves the history as it was.
-/

namespace SatWire

/-- Why a line was refused. -/
inductive LineError where
  | hex (fault : Hex.Fault)
  /-- What stands before the first blank is no sequence number. -/
  | number (text : String)
  | json (rejection : Rejection)
  /-- A session would refuse the frame for the same reason. -/
  | traffic (fault : SessionError)
  deriving DecidableEq

namespace LineError

/-- The reason in words.  How a text fails to be the JSON form of a message is left open, unless a
field in it does not fit its type. -/
def message : LineError → String
  | hex fault => s!"invalid hex: {fault.text}"
  | number text => s!"invalid sequence number '{text}'"
  | json .shape => "invalid JSON message:"
  | json (.fault fault) => s!"invalid JSON message: {fault.message}"
  | traffic fault => fault.message

end LineError

/-- Judges lines against a registry and the ceiling of a power mode. -/
structure Inspector where
  registry : Registry
  settings : LinkSettings := {}
  mode : PowerMode := .normal

/-- A line that was decoded: its message, and its sequence number if it had one. -/
structure DecodedLine where
  number : Option UInt16
  message : Message
  deriving DecidableEq

/-- The form of a decoded line: that of its message, with the number in front. -/
def DecodedLine.toJson (d : DecodedLine) : Json :=
  match d.message.toJson with
  | .obj members =>
    .obj ((d.number.map fun n => ("sequence", Json.int n.toNat)).toList ++ members)
  | j => j

/-- The number that a text spells: decimal digits, perhaps with a plus sign before them, of a number
that fits sixteen bits. -/
def sequenceNumber? (text : List Char) : Option UInt16 :=
  let digits :=
    match text with
    | '+' :: digits => digits
    | digits => digits
  if digits ≠ [] ∧ digits.all Char.isDigit then
    let n := digits.foldl (fun n c => 10 * n + (c.toNat - 48)) 0
    if n < UInt16.size then some (UInt16.ofNat n) else none
  else none

namespace Inspector

/-- The decoder that the settings call for. -/
def decoder (i : Inspector) : Decoder :=
  ⟨i.registry, i.settings.maxNesting.toNat⟩

/-- The sequence number of a line, if it has one, and the text of its frame. -/
def splitNumber (line : List Char) : Except LineError (Option UInt16 × List Char) :=
  match Text.splitBlank? line with
  | none => .ok (none, line)
  | some (front, rest) =>
    match sequenceNumber? front with
    | some number => .ok (some number, Text.trim rest)
    | none => .error (.number (String.ofList front))

/-- The message of a frame that is not over the ceiling. -/
def readFrame (i : Inspector) (frame : Bytes) : Except ParseError Message := do
  i.settings.sizeLimits.check frame.length i.mode
  i.decoder.decode frame

/-- The history after a number, if there is one. -/
def takeNumber (h : History) : Option UInt16 → Except LinkError History
  | none => .ok h
  | some number => h.take number

/-- Decodes a line that has no blanks at its ends. -/
def decodeLine (i : Inspector) (h : History) (line : List Char) :
    Except LineError (DecodedLine × History) := do
  let (number, text) ← splitNumber line
  let frame ← (Hex.decode (Utf8.encode (String.ofList text))).mapError .hex
  let message ← (i.readFrame frame).mapError fun fault => .traffic (.parse fault)
  let h ← (takeNumber h number).mapError fun fault => .traffic (.link fault)
  return (⟨number, message⟩, h)

/-- The frame of a message that conforms to its schema entry and is not over the ceiling. -/
def writeFrame (i : Inspector) (m : Message) : Except ParseError Bytes := do
  let frame ← m.encodeChecked i.registry
  i.settings.sizeLimits.check frame.length i.mode
  return frame

/-- Encodes a line that has no blanks at its ends. -/
def encodeLine (i : Inspector) (line : List Char) : Except LineError Bytes := do
  let m ← (Reader.parse Message.ofJson (String.ofList line)).mapError .json
  (i.writeFrame m).mapError fun fault => .traffic (.parse fault)

end Inspector

end SatWire
