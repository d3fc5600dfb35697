import SatWire.Form.Settings
import SatWire.Form.Layout
import SatWire.Schema.Registry
import SatWire.Toml.Reader
/-!
# Settings of the inspector

A settings document holds how much to log, the settings of the link, and the schema entries.  Every
slot has a usual value, and an empty document gives the usual settings.
-/

namespace SatWire

/-- What a settings document says. -/
structure InspectorSettings where
  logLevel : String := "info"
  link : LinkSettings := {}
  messages : List SchemaEntry := []
  deriving DecidableEq

namespace InspectorSettings

/-- The registry of the schema entries, unless two of them clash. -/
def registry (s : InspectorSettings) : Except SchemaError Registry :=
  Registry.ofList s.messages

/-- The slots of the settings. -/
def slots : List String := ["log_level", "protocol", "messages"]

/-- Fills a slot. -/
def put (slot : String) (j : Json) (s : InspectorSettings) : Except Rejection InspectorSettings :=
  match slot with
  | "log_level" => (Reader.text j).map fun logLevel => { s with logLevel }
  | "protocol" => (LinkSettings.read .settings j).map fun link => { s with link }
  | _ => (Reader.list (SchemaEntry.read .settings) j).map fun messages => { s with messages }

/-- Reads the settings; a slot left out has its usual value. -/
def read : Reader InspectorSettings :=
  .record .settings slots put {} some

/-- The form of the settings. -/
def toJson (s : InspectorSettings) : Json :=
  .obj [("log_level", .str s.logLevel), ("protocol", s.link.toJson),
    ("messages", .arr (s.messages.map SchemaEntry.toJson))]

/-- Reads a settings document. -/
def ofDocument? (text : String) : Option InspectorSettings := do
  (read (← Toml.read? text)).toOption

end InspectorSettings

end SatWire
