import SatWire.Inspect.Line
/-!
# Inspections

An inspection takes its input line by line.  Blank lines are passed over; every other line is either
answered with one line of output or refused with a warning, and a refused line changes nothing for
the lines after it.  Only an input line that is not UTF-8 or an output that is full ends the run
early.

`Pipeline.verdicts` says what every line comes to, `carryOut` does the printing and counting, and
`Pipeline.run` joins them.
-/

namespace SatWire

/-- What a line comes to. -/
inductive Verdict where
  | blank
  | answered (text : String)
  | refused (error : LineError)

/-- Answers lines in turn, with a memory of the lines answered before. -/
structure Pipeline (σ : Type) where
  start : σ
  answer : σ → List Char → Except LineError (String × σ)

namespace Inspector

/-- Frames to messages. -/
def decoding (i : Inspector) : Pipeline History where
  start := {}
  answer h line := (i.decodeLine h line).map fun (decoded, h) => (decoded.toJson.render, h)

/-- Messages to frames. -/
def encoding (i : Inspector) : Pipeline Unit where
  start := ()
  answer _ line := (i.encodeLine line).map fun frame => (Hex.encode frame, ())

end Inspector

/-- The verdicts on lines, from a memory on. -/
def Pipeline.verdictsFrom (p : Pipeline σ) (memory : σ) : List String → List Verdict
  | [] => []
  | line :: lines =>
    match Text.trim line.toList with
    | [] => .blank :: p.verdictsFrom memory lines
    | text =>
      match p.answer memory text with
      | .ok (answer, memory) => .answered answer :: p.verdictsFrom memory lines
      | .error error => .refused error :: p.verdictsFrom memory lines

/-- The verdicts on all lines of an input. -/
def Pipeline.verdicts (p : Pipeline σ) (lines : List String) : List Verdict :=
  p.verdictsFrom p.start lines

/-- How a run ended. -/
inductive Ending where
  /-- After the last line. -/
  | complete
  /-- At a line that could not be read. -/
  | unreadable
  /-- At an answer that could not be written. -/
  | unwritable
  deriving DecidableEq, Repr

/-- A refused line, by its number in the input. -/
structure Warning where
  line : Nat
  error : LineError

/-- A warning in words. -/
def Warning.text (w : Warning) : String :=
  s!"line {w.line}: {w.error.message}"

/-- What a run leaves. -/
structure Run where
  output : Bytes := []
  warnings : List Warning := []
  answered : Nat := 0
  refused : Nat := 0
  ending : Ending := .complete

/-- Carries out verdicts.  `number` is the number of the next line; `room` is how many octets the
output still takes, if there is a limit.  An answer that does not fit is written as far as it does,
and the run ends there. -/
def carryOut (number : Nat) (room : Option Nat) (ending : Ending) : List Verdict → Run
  | [] => { ending }
  | .blank :: verdicts => carryOut (number + 1) room ending verdicts
  | .refused error :: verdicts =>
    let r := carryOut (number + 1) room ending verdicts
    { r with refused := r.refused + 1, warnings := ⟨number, error⟩ :: r.warnings }
  | .answered text :: verdicts =>
    let octets := Utf8.encode text ++ [0x0A]
    match room with
    | none =>
      let r := carryOut (number + 1) none ending verdicts
      { r with answered := r.answered + 1, output := octets ++ r.output }
    | some room =>
      if room < octets.length then { output := octets.take room, ending := .unwritable }
      else
        let r := carryOut (number + 1) (some (room - octets.length)) ending verdicts
        { r with answered := r.answered + 1, output := octets ++ r.output }

/-- The lines of an input up to the first that is not UTF-8, and how reading them ends. -/
def readLines (input : Bytes) : List String × Ending :=
  go (Text.lines input)
where
  /-- The same of a list of lines. -/
  go : List Bytes → List String × Ending
    | [] => ([], .complete)
    | line :: lines =>
      match Utf8.decode line with
      | .ok text =>
        let (texts, ending) := go lines
        (text :: texts, ending)
      | .error _ => ([], .unreadable)

/-- Runs a pipeline over an input, into an output that takes `room` octets if that is limited. -/
def Pipeline.run (p : Pipeline σ) (input : Bytes) (room : Option Nat) : Run :=
  let (lines, ending) := readLines input
  carryOut 1 room ending (p.verdicts lines)

end SatWire
