import SatWire.Inspect.Program
/-!
# The inspector as a program

Reads the settings document and the input, writes the output to the standard output, and says on
the standard error what was refused and why the program failed.
-/

namespace SatWire.Program

/-- Opens and reads a file. -/
def readSource (path : String) : IO Source := do
  match ← (IO.FS.Handle.mk path .read).toBaseIO with
  | .error _ => return .missing
  | .ok handle =>
    match ← handle.readBinToEnd.toBaseIO with
    | .error _ => return .unreadable
    | .ok octets => return .octets octets.toList

/-- Reads the standard input. -/
partial def readStandardInput (stream : IO.FS.Stream) (read : ByteArray) : IO Source := do
  match ← (stream.read 65536).toBaseIO with
  | .error _ => return .unreadable
  | .ok octets =>
    if octets.isEmpty then return .octets read.toList
    else readStandardInput stream (read ++ octets)

/-- How to call the program. -/
def usage : String :=
  "Usage: mtbp-inspect [--config <PATH>] [--low-power] decode|encode [--input <PATH>]"

/-- Says why the program failed. -/
def fail (failure : InspectionFailure) : IO UInt32 := do
  IO.eprintln s!"Error: {failure.message}"
  return 1

/-- Carries out an invocation. -/
def carryOut (v : Invocation) : IO UInt32 := do
  let settings ← v.settings.mapM readSource
  match v.inspector settings with
  | .error failure => fail failure
  | .ok inspector =>
    let input ← match v.input with
      | some path => readSource path
      | none => readStandardInput (← IO.getStdin) .empty
    match v.run inspector input with
    | .error failure => fail failure
    | .ok r =>
      let output ← IO.getStdout
      for warning in r.warnings do
        IO.eprintln warning.text
      match ← (do output.write (ByteArray.mk r.output.toArray); output.flush).toBaseIO with
      | .error _ => fail .unwritable
      | .ok () =>
        match r.failure? with
        | some failure => fail failure
        | none => return 0

/-- Does what a request asks for. -/
def answer : Request → IO UInt32
  | .inspect v => carryOut v
  | .version => do
    IO.print Inspector.versionText
    return 0
  | .help => do
    IO.println usage
    return 0
  | .misuse => do
    IO.eprintln usage
    return 2

end SatWire.Program

/-- The program. -/
def main (arguments : List String) : IO UInt32 := do
  SatWire.Program.answer
    (SatWire.Request.ofArguments (← IO.getEnv "MTBP_CONFIG") arguments)
