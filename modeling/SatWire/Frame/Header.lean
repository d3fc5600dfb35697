import SatWire.Fault
import SatWire.Octets.Checksum
/-!
# Frames and their headers

A frame is a header of six octets and a payload.  The header holds the service id, the message id,
the length of the payload and a checksum of everything in the frame but itself.

* `Header.parse` and `Header.assemble` are the two directions: the first takes a frame off the
  front of an octet string, the second puts a payload into one;
* `Header.frameLength_le` — a frame that was found lies inside the octets it was found in.

A device takes frames up to a size that depends on how it is powered.  The settings of a link are
these ceilings and the number of levels that messages may nest.
-/

namespace SatWire

/-- The header of a frame. -/
structure Header where
  serviceId : UInt8
  messageId : UInt8
  payloadLength : UInt16
  checksum : UInt16
  deriving DecidableEq, Repr

/-- How many octets a header takes. -/
def headerSize : Nat := 6

/-- The checksum of a frame with these header values and this payload; the length need not be the
payload's. -/
def frameChecksum (serviceId messageId : UInt8) (payloadLength : UInt16) (payload : Bytes) : UInt16 :=
  Checksum.crc (serviceId :: messageId :: BigEndian.ofNat 2 payloadLength.toNat ++ payload)

namespace Header

/-- How many octets the whole frame takes. -/
def frameLength (h : Header) : Nat :=
  headerSize + h.payloadLength.toNat

/-- The six octets of the header. -/
def toBytes (h : Header) : Bytes :=
  h.serviceId :: h.messageId
    :: (BigEndian.ofNat 2 h.payloadLength.toNat ++ BigEndian.ofNat 2 h.checksum.toNat)

/-- The header that a payload calls for, if the payload fits a frame. -/
def ofPayload (serviceId messageId : UInt8) (payload : Bytes) : Except ParseError Header :=
  if payload.length ≤ maxLength then
    let length := UInt16.ofNat payload.length
    .ok ⟨serviceId, messageId, length, frameChecksum serviceId messageId length payload⟩
  else refuse (.payloadTooLong payload.length)

/-- A payload in its frame. -/
def assemble (serviceId messageId : UInt8) (payload : Bytes) : Except ParseError Bytes :=
  (ofPayload serviceId messageId payload).map fun h => h.toBytes ++ payload

/-- The header at the front of an octet string, its payload, and what follows the frame.  The length
is checked before the checksum. -/
def parse (octets : Bytes) : Except ParseError (Header × Bytes × Bytes) :=
  match octets with
  | serviceId :: messageId :: l₁ :: l₀ :: c₁ :: c₀ :: rest =>
    let declared := BigEndian.toNat [l₁, l₀]
    let carried := UInt16.ofNat (BigEndian.toNat [c₁, c₀])
    let payload := rest.take declared
    if payload.length = declared then
      let length := UInt16.ofNat declared
      let computed := frameChecksum serviceId messageId length payload
      if computed = carried then
        .ok (⟨serviceId, messageId, length, carried⟩, payload, rest.drop declared)
      else refuse (.checksumMismatch serviceId messageId carried computed)
    else refuse (.payloadCut declared rest.length)
  | short => refuse (.headerCut short.length)

/-- A frame that was found lies inside the octets it was found in. -/
theorem frameLength_le {octets payload rest : Bytes} {h : Header}
    (parsed : parse octets = .ok (h, payload, rest)) : h.frameLength ≤ octets.length := by
  simp only [parse, refuse] at parsed
  split at parsed
  · rename_i l₁ l₀ c₁ c₀ body
    split at parsed
    · rename_i full
      split at parsed
      · cases parsed
        have wrapped : (UInt16.ofNat (BigEndian.toNat [l₁, l₀])).toNat ≤ BigEndian.toNat [l₁, l₀] :=
          Nat.mod_le _ _
        rw [List.length_take] at full
        simp only [frameLength, headerSize, List.length_cons]
        omega
      · cases parsed
    · cases parsed
  · cases parsed

end Header

/-! ### Size ceilings -/

/-- The largest frame in each power mode. -/
structure SizeLimits where
  normal : UInt64 := 10240
  lowPower : UInt64 := 5120
  deriving DecidableEq, Repr

namespace SizeLimits

/-- The ceiling of a power mode. -/
def limit (l : SizeLimits) : PowerMode → UInt64
  | .normal => l.normal
  | .lowPower => l.lowPower

/-- Refuses a frame that is over the ceiling of a power mode. -/
def check (l : SizeLimits) (size : Nat) (mode : PowerMode) : Except ParseError Unit :=
  if (l.limit mode).toNat < size then refuse (.overCeiling size (l.limit mode).toNat mode)
  else .ok ()

end SizeLimits

/-- The settings shared by all links. -/
structure LinkSettings where
  sizeLimits : SizeLimits := {}
  maxNesting : UInt64 := 8
  deriving DecidableEq, Repr

end SatWire
