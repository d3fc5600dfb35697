import SatWire.Form.Reader
import SatWire.Frame.Header
/-!
# The forms of link settings and power modes
-/

namespace SatWire

namespace SizeLimits

/-- The slots of the ceilings. -/
def slots : List String := ["normal", "low_power"]

/-- Fills a slot. -/
def put (slot : String) (j : Json) (l : SizeLimits) : Except Rejection SizeLimits :=
  match slot with
  | "normal" => (Reader.uint64 j).map fun normal => { l with normal }
  | _ => (Reader.uint64 j).map fun lowPower => { l with lowPower }

/-- Reads the ceilings in a document of any kind; a ceiling left out has its usual value. -/
def read (dialect : Dialect) : Reader SizeLimits :=
  .record dialect slots put {} some

/-- Reads the ceilings. -/
def ofJson : Reader SizeLimits := read .json

/-- The form of the ceilings. -/
def toJson (l : SizeLimits) : Json :=
  .obj [("normal", .int l.normal.toNat), ("low_power", .int l.lowPower.toNat)]

end SizeLimits

namespace LinkSettings

/-- The slots of the settings. -/
def slots : List String := ["size_limits", "max_nesting_depth"]

/-- Fills a slot. -/
def put (dialect : Dialect) (slot : String) (j : Json) (s : LinkSettings) :
    Except Rejection LinkSettings :=
  match slot with
  | "size_limits" => (SizeLimits.read dialect j).map fun sizeLimits => { s with sizeLimits }
  | _ => (Reader.uint64 j).map fun maxNesting => { s with maxNesting }

/-- Reads the settings in a document of any kind; a setting left out has its usual value. -/
def read (dialect : Dialect) : Reader LinkSettings :=
  .record dialect slots (put dialect) {} some

/-- Reads the settings. -/
def ofJson : Reader LinkSettings := read .json

/-- The form of the settings. -/
def toJson (s : LinkSettings) : Json :=
  .obj [("size_limits", s.sizeLimits.toJson), ("max_nesting_depth", .int s.maxNesting.toNat)]

end LinkSettings

namespace PowerMode

/-- The mode with a name. -/
def named? : String → Option PowerMode
  | "normal" => some .normal
  | "low_power" => some .lowPower
  | _ => none

/-- Reads a mode. -/
def ofJson : Reader PowerMode := Reader.choice .json named?

/-- The form of a mode. -/
def toJson : PowerMode → Json
  | normal => .str "normal"
  | lowPower => .str "low_power"

end PowerMode

end SatWire
