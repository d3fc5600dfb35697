import SatWire.Inspect.CommandLine
import SatWire.Inspect.Run
import SatWire.Inspect.Settings
/-!
# An inspection from files

An invocation is carried out in two steps: its settings give an inspector, and the inspector runs
over its input.  What stops it before the last line, or is left to say after it, is its failure.
-/

namespace SatWire

/-- A file, as opening and reading it turns out. -/
inductive Source where
  /-- It cannot be opened. -/
  | missing
  /-- It can be opened but not read. -/
  | unreadable
  | octets (octets : Bytes)

/-- Why an inspection does not end well. -/
inductive InspectionFailure where
  /-- The settings document cannot be read or understood. -/
  | badSettings
  /-- Two schema entries clash. -/
  | badSchema
  /-- The input cannot be opened. -/
  | noInput (path : String)
  /-- The input cannot be read to its end. -/
  | unreadable
  /-- The output is full. -/
  | unwritable
  /-- Some lines were refused. -/
  | refused (count : Nat)
  deriving DecidableEq, Repr

/-- A failure in words. -/
def InspectionFailure.message : InspectionFailure → String
  | badSettings => "failed to load configuration"
  | badSchema => "invalid schema table"
  | noInput path => s!"failed to open input '{path}'"
  | unreadable => "failed to read input"
  | unwritable => "failed to write output"
  | refused count => s!"{count} line(s) could not be processed"

/-- The failure that ends a run early, if one does. -/
def Ending.failure? : Ending → Option InspectionFailure
  | complete => none
  | unreadable => some .unreadable
  | unwritable => some .unwritable

/-- The failure of a run: what ended it early, or that lines were refused. -/
def Run.failure? (r : Run) : Option InspectionFailure :=
  match r.ending.failure? with
  | some failure => some failure
  | none => if r.refused = 0 then none else some (.refused r.refused)

namespace Inspector

/-- What the inspector says of its version. -/
def versionText : String := "mtbp-inspect 0.1.0\n"

/-- The inspector that settings call for in a power mode. -/
def ofSettings (s : InspectorSettings) (mode : PowerMode) : Except SchemaError Inspector :=
  s.registry.map fun registry => { registry, settings := s.link, mode }

/-- Runs a task over an input, into an output that takes `room` octets if that is limited. -/
def run (i : Inspector) (task : Task) (input : Bytes) (room : Option Nat) : Run :=
  match task with
  | .decode => i.decoding.run input room
  | .encode => i.encoding.run input room

end Inspector

namespace Invocation

/-- The power mode asked for. -/
def mode (v : Invocation) : PowerMode :=
  if v.lowPower then .lowPower else .normal

/-- The settings in a document, or the usual ones if none is named. -/
def readSettings? : Option Source → Option InspectorSettings
  | none => some {}
  | some (.octets octets) => (Utf8.decode octets).toOption.bind InspectorSettings.ofDocument?
  | some _ => none

/-- The inspector of an invocation, given its settings document. -/
def inspector (v : Invocation) (settings : Option Source) : Except InspectionFailure Inspector :=
  match readSettings? settings with
  | none => .error .badSettings
  | some s => (Inspector.ofSettings s v.mode).mapError fun _ => .badSchema

/-- The run of an invocation, given its input. -/
def run (v : Invocation) (i : Inspector) (input : Source) : Except InspectionFailure Run :=
  match input, v.input with
  | .octets octets, _ => .ok (i.run v.task octets none)
  | .missing, some path => .error (.noInput path)
  | .missing, none | .unreadable, _ => .error .unreadable

end Invocation

end SatWire
