import SatWire.Main
import SatWire.Proofs.Frame.Distance
import SatWire.Proofs.Frame.Assembly
import SatWire.Proofs.Frame.Appending
import SatWire.Proofs.Octets.Division
import SatWire.Proofs.Frame.Truncation
import SatWire.Proofs.Frame.Survival
import SatWire.Proofs.Frame.Stream
import SatWire.Proofs.Link.Lockstep
import SatWire.Proofs.Link.Runs
import SatWire.Proofs.Frame.Extension
import SatWire.Proofs.Frame.Levels
import SatWire.Proofs.Frame.InBounds
import SatWire.Proofs.Message.EveryField
import SatWire.Proofs.Form.ReadBack
import SatWire.Proofs.Inspect.RoundTrip
import SatWire.Proofs.Inspect.Traffic
import SatWire.Proofs.Link.Numbers
import SatWire.Proofs.Link.Observers
import SatWire.Proofs.Schema.Table
import SatWire.Proofs.Frame.Places
import SatWire.Proofs.Frame.Locality
