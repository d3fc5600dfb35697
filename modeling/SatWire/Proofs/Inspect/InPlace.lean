import SatWire.Proofs.Inspect.Verdicts
import SatWire.Proofs.Link.Numbers

/-!
# Lines decoded in place

Decoding does not make a new history for each line; it hands the one it has from line to line, and
each line with a number is checked against it and committed to it.  A line can be refused for its
number's text, its digits, the size of its frame, the frame itself, and last for its number.
`Inspector.decodeInPlace` spells out these steps, and it ends as the decoding of a line does that
gives back a history: a line that is refused leaves the history as it was (`decodeInPlace_run`).

So the lines of an input may be decoded one after the other with whatever history the line before
left (`decodeEach`), and their verdicts are those of the decoding pipeline (`verdictsFrom_decoding`).
-/

namespace SatWire.Inspector

variable {i : Inspector} {h : History}

/-- Takes the number of a line in place, if it has one. -/
def takeInPlace : Option UInt16 → InPlace LineError History Unit
  | none => pure ()
  | some number =>
    ExceptT.adapt (fun fault => .traffic (.link fault)) (History.carryOut (.take number))

/-- Decodes a line in place.  Everything else is checked before the number is, and the number is
committed last. -/
def decodeInPlace (i : Inspector) (line : List Char) : InPlace LineError History DecodedLine := do
  let (number, text) ← InPlace.check fun _ => splitNumber line
  let frame ← InPlace.check fun _ =>
    (Hex.decode (Utf8.encode (String.ofList text))).mapError .hex
  InPlace.check fun _ =>
    (i.settings.sizeLimits.check frame.length i.mode).mapError fun fault => .traffic (.parse fault)
  let message ← InPlace.check fun _ =>
    (i.decoder.decode frame).mapError fun fault => .traffic (.parse fault)
  takeInPlace number
  return ⟨number, message⟩

/-- Taking a number in place is taking it. -/
theorem takeInPlace_run (number : Option UInt16) (h : History) :
    (takeInPlace number).run h
      = InPlace.settle h (((takeNumber h number).map fun after => ((), after)).mapError
          fun fault => .traffic (.link fault)) := by
  cases number with
  | none => rfl
  | some number => exact InPlace.settle_adapt (History.carryOut_take h number) _

/-- Decoding a line is a chain of the five steps that may refuse it. -/
theorem decodeLine_eq_bind (i : Inspector) (h : History) (line : List Char) :
    i.decodeLine h line
      = (splitNumber line).bind fun (number, text) =>
        ((Hex.decode (Utf8.encode (String.ofList text))).mapError .hex).bind fun frame =>
        ((i.settings.sizeLimits.check frame.length i.mode).mapError
            fun fault => .traffic (.parse fault)).bind fun _ =>
        ((i.decoder.decode frame).mapError fun fault => .traffic (.parse fault)).bind fun message =>
        (((takeNumber h number).map fun after => ((), after)).mapError
            fun fault => .traffic (.link fault)).map fun (_, after) => (⟨number, message⟩, after) := by
  unfold decodeLine readFrame
  cases splitNumber line with
  | error fault => rfl
  | ok split =>
      obtain ⟨number, text⟩ := split
      change ((Hex.decode (Utf8.encode (String.ofList text))).mapError LineError.hex).bind _ = _
      congr 1
      funext frame
      cases i.settings.sizeLimits.check frame.length i.mode with
      | error fault => rfl
      | ok _ =>
          cases hdecode : i.decoder.decode frame with
          | error fault => rfl
          | ok message => cases takeNumber h number <;> rfl

/-- **A line in place** ends as the decoding of the line does, and a line that is refused leaves the
history as it was. -/
theorem decodeInPlace_run (i : Inspector) (h : History) (line : List Char) :
    (i.decodeInPlace line).run h = InPlace.settle h (i.decodeLine h line) := by
  rw [decodeLine_eq_bind]
  apply InPlace.settle_check
  intro split
  obtain ⟨number, text⟩ := split
  apply InPlace.settle_check
  intro frame
  apply InPlace.settle_check
  intro _
  apply InPlace.settle_check
  intro message
  exact InPlace.settle_bind_pure (takeInPlace_run number h) _

/-- What decoding makes of lines in turn, each with the history that the line before it left; nothing
of a blank line. -/
def decodeEach (i : Inspector) (h : History) :
    List String → List (Option (Except LineError DecodedLine))
  | [] => []
  | line :: lines =>
    match Text.trim line.toList with
    | [] => none :: i.decodeEach h lines
    | text =>
      let (result, left) := (i.decodeInPlace text).run h
      some result :: i.decodeEach left lines

/-- The verdict on a line of which decoding makes so much. -/
def verdict : Option (Except LineError DecodedLine) → Verdict
  | none => .blank
  | some (.ok decoded) => .answered decoded.toJson.render
  | some (.error error) => .refused error

/-- A blank line is passed over. -/
theorem decodeEach_cons_of_blank {line : String} (hblank : Text.trim line.toList = [])
    (lines : List String) : i.decodeEach h (line :: lines) = none :: i.decodeEach h lines := by
  rw [decodeEach, hblank]

/-- A line with a text in it is decoded, and hands on the history that it leaves. -/
theorem decodeEach_cons_of_text {line : String} (htext : Text.trim line.toList ≠ [])
    (lines : List String) :
    i.decodeEach h (line :: lines)
      = some ((i.decodeInPlace (Text.trim line.toList)).run h).1
        :: i.decodeEach ((i.decodeInPlace (Text.trim line.toList)).run h).2 lines := by
  rw [decodeEach]
  split
  · rename_i hblank
    exact absurd hblank htext
  · rfl

/-- **Lines in place.**  The verdicts of the pipeline are those on the lines decoded in place. -/
theorem verdictsFrom_decoding (i : Inspector) (h : History) (lines : List String) :
    i.decoding.verdictsFrom h lines = (i.decodeEach h lines).map verdict := by
  induction lines generalizing h with
  | nil => rfl
  | cons line lines ih =>
      by_cases hblank : Text.trim line.toList = []
      · have hstep : i.decoding.Step h line .blank h := .blank hblank
        rw [hstep.verdictsFrom_cons, ih, decodeEach_cons_of_blank hblank]
        rfl
      · rw [decodeEach_cons_of_text hblank, decodeInPlace_run]
        cases hdecode : i.decodeLine h (Text.trim line.toList) with
        | ok done =>
            obtain ⟨decoded, after⟩ := done
            have hstep : i.decoding.Step h line (.answered decoded.toJson.render) after :=
              .answered hblank (map_eq_ok_iff.mpr ⟨_, hdecode, rfl⟩)
            rw [hstep.verdictsFrom_cons, ih]
            rfl
        | error error =>
            have hanswer : i.decoding.answer h (Text.trim line.toList) = .error error := by
              change (i.decodeLine h (Text.trim line.toList)).map _ = _
              rw [hdecode]
              rfl
            have hstep : i.decoding.Step h line (.refused error) h := .refused hblank hanswer
            rw [hstep.verdictsFrom_cons, ih]
            rfl

end SatWire.Inspector
