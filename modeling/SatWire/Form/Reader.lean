import SatWire.Fault
import SatWire.Json.Reader
/-!
# Reading typed values out of structured ones

A reader turns a JSON value into a typed one or rejects it.  A record may be written as an object,
where unknown members are passed over, however deep they nest, a repeated one is refused, and members
are read in the order they stand; or as an array of its slots in their order, where slots at the end
may be left off.  A variant is written as an object with one member.

Structured values come from JSON texts and from settings documents.  A `Dialect` says in what the two
differ: how a variant without a payload is written as an object, and what becomes of the items of an
array that are more than the record has slots.

Rejections come in two kinds: the value has the wrong shape, or a field in it does not fit its type.
The first one met counts.
-/

namespace SatWire

/-- Why a structured value was rejected. -/
inductive Rejection where
  /-- The value is not of the form asked for. -/
  | shape
  /-- The value is of the form, but holds a field that does not fit its type. -/
  | fault (fault : ParseError)
  deriving DecidableEq

/-- In what kinds of documents differ. -/
structure Dialect where
  /-- Whether a value says that a variant has no payload. -/
  isNothing : Json → Bool
  /-- Whether an array may go on behind the last slot of its record. -/
  allowsSurplus : Bool

namespace Dialect

/-- The dialect of JSON texts: null is nothing, and a record's array ends with its last slot. -/
def json : Dialect where
  isNothing
    | .null => true
    | _ => false
  allowsSurplus := false

/-- The dialect of settings documents.  They have no null: an empty table or array is nothing.  What
follows the last slot of a record is passed over. -/
def settings : Dialect where
  isNothing
    | .obj [] | .arr [] => true
    | _ => false
  allowsSurplus := true

end Dialect

/-- Reads a typed value out of a structured one. -/
abbrev Reader (α : Type) := Json → Except Rejection α

namespace Reader

/-- A truth value. -/
def bool : Reader Bool
  | .bool b => .ok b
  | _ => .error .shape

/-- A text. -/
def text : Reader String
  | .str s => .ok s
  | _ => .error .shape

/-- A text, or nothing. -/
def text? : Reader (Option String)
  | .null => .ok none
  | .str s => .ok (some s)
  | _ => .error .shape

/-- A whole number below `bound`. -/
def natBelow (bound : Nat) : Reader Nat
  | .int n => if 0 ≤ n ∧ n < bound then .ok n.toNat else .error .shape
  | _ => .error .shape

/-- A number of eight bits. -/
def uint8 : Reader UInt8 := fun j => (natBelow UInt8.size j).map UInt8.ofNat

/-- A number of sixteen bits. -/
def uint16 : Reader UInt16 := fun j => (natBelow UInt16.size j).map UInt16.ofNat

/-- A number of thirty-two bits. -/
def uint32 : Reader UInt32 := fun j => (natBelow UInt32.size j).map UInt32.ofNat

/-- A number of sixty-four bits. -/
def uint64 : Reader UInt64 := fun j => (natBelow UInt64.size j).map UInt64.ofNat

/-- A whole number at or above `-bound` and below `bound`. -/
def intWithin (bound : Nat) : Reader Int
  | .int n => if -(bound : Int) ≤ n ∧ n < bound then .ok n else .error .shape
  | _ => .error .shape

/-- A signed number of sixty-four bits. -/
def int64 : Reader Int64 := fun j => (intWithin (UInt64.size / 2) j).map Int64.ofInt

/-- Reads the items of an array in turn, behind those read before, last first. -/
def each (read : Reader α) (done : List α) : List Json → Except Rejection (List α)
  | [] => .ok done.reverse
  | item :: items =>
    match read item with
    | .ok a => each read (a :: done) items
    | .error rejection => .error rejection

/-- An array of values of one form. -/
def list (read : Reader α) : Reader (List α)
  | .arr items => each read [] items
  | _ => .error .shape

/-- Octets as an array of numbers. -/
def bytes : Reader Bytes := list uint8

/-- The value with a name. -/
def choose (named : String → Option α) (name : String) : Except Rejection α :=
  match named name with
  | some a => .ok a
  | none => .error .shape

/-- One of the named values, written as its name or as an object with nothing under the name. -/
def choice (dialect : Dialect) (named : String → Option α) : Reader α
  | .str name => choose named name
  | .obj [(name, payload)] =>
    if dialect.isNothing payload then choose named name else .error .shape
  | _ => .error .shape

/-- A variant: the payload under the only member's name.  A second member is refused after the
first was read. -/
def variant (payload : String → Reader α) : Reader α
  | .obj ((name, value) :: more) =>
    match payload name value with
    | .ok a => if more.isEmpty then .ok a else .error .shape
    | .error rejection => .error rejection
  | _ => .error .shape

/-- Takes the members of an object into a draft.  `seen` are the slots filled so far.  Every name must
spell a text, known or not. -/
def members (slots : List String) (put : String → Json → δ → Except Rejection δ)
    (seen : List String) (draft : δ) : List (String × Json) → Except Rejection δ
  | [] => .ok draft
  | (_, .unnamed _) :: _ => .error .shape
  | (name, value) :: rest =>
    if slots.contains name then
      if seen.contains name then .error .shape
      else
        match put name value draft with
        | .ok draft => members slots put (name :: seen) draft rest
        | .error rejection => .error rejection
    else if value.isReadable then members slots put seen draft rest
    else .error .shape

/-- Takes the items of an array into a draft, one for each slot. -/
def items (dialect : Dialect) (put : String → Json → δ → Except Rejection δ) (draft : δ) :
    List String → List Json → Except Rejection δ
  | _, [] => .ok draft
  | [], _ :: _ => if dialect.allowsSurplus then .ok draft else .error .shape
  | slot :: slots, item :: rest =>
    match put slot item draft with
    | .ok draft => items dialect put draft slots rest
    | .error rejection => .error rejection

/-- A record.  Its slots go into a draft, which is finished when all are read. -/
def record (dialect : Dialect) (slots : List String)
    (put : String → Json → δ → Except Rejection δ) (blank : δ) (finish : δ → Option α) :
    Reader α := fun j =>
  let filled :=
    match j with
    | .obj ms => members slots put [] blank ms
    | .arr is => items dialect put blank slots is
    | _ => .error .shape
  match filled with
  | .error rejection => .error rejection
  | .ok draft =>
    match finish draft with
    | some a => .ok a
    | none => .error .shape

/-- Reads a document that holds one value and nothing else. -/
def document (read : Reader α) (d : Json.Document) : Except Rejection α :=
  match read d.value with
  | .error rejection => .error rejection
  | .ok a => if d.alone then .ok a else .error .shape

/-- Reads a text that holds one value and nothing else. -/
def parse (read : Reader α) (text : String) : Except Rejection α :=
  document read (Json.read text)

end Reader

end SatWire
