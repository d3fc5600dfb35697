/-!
# JSON values

A value keeps the members of an object in the order they were written, repeated names included.
Reading always gives a value: where a text stops being JSON, `unreadable` stands in its place, and
what was read before it is kept, so that a bad value is blamed before damage further on.  A string
that spells no text is kept as well, as long as nobody asks what it says; and so is an array or object
that stands too deep inside others, as long as nobody asks what it holds (`Json.bury`).
-/

namespace SatWire

/-- A JSON value, or as much of one as could be read. -/
inductive Json where
  | null
  | bool (b : Bool)
  | int (n : Int)
  /-- A number written with a fraction or an exponent, or as a negative zero. -/
  | decimal (digits : String)
  | str (s : String)
  /-- A string that spells no text, because it has half a surrogate pair in it. -/
  | unpaired
  | arr (items : List Json)
  | obj (members : List (String × Json))
  /-- The value of a member whose name spells no text. -/
  | unnamed (value : Json)
  /-- An array or object that stands too deep to be asked what it holds. -/
  | buried (value : Json)
  /-- The place where reading stopped. -/
  | unreadable

namespace Json

instance : Inhabited Json := ⟨.null⟩

mutual

/-- Whether a value was read to its end. -/
def isReadable : Json → Bool
  | arr items => allReadable items
  | obj members => allMembersReadable members
  | unnamed value | buried value => value.isReadable
  | unreadable => false
  | _ => true

/-- Whether all items of an array were read to their ends. -/
def allReadable : List Json → Bool
  | [] => true
  | item :: items => item.isReadable && allReadable items

/-- Whether all members of an object were read to their ends. -/
def allMembersReadable : List (String × Json) → Bool
  | [] => true
  | (_, value) :: members => value.isReadable && allMembersReadable members

end

mutual

/-- How many arrays and objects stand inside each other. -/
def depth : Json → Nat
  | arr items => depthOfItems items + 1
  | obj members => depthOfMembers members + 1
  | unnamed value | buried value => value.depth
  | _ => 0

/-- The depth of the deepest item. -/
def depthOfItems : List Json → Nat
  | [] => 0
  | item :: items => max item.depth (depthOfItems items)

/-- The depth of the deepest member. -/
def depthOfMembers : List (String × Json) → Nat
  | [] => 0
  | (_, value) :: members => max value.depth (depthOfMembers members)

end

mutual

/-- A value where no more than `room` containers may stand inside each other.  The ones that are too
deep are buried. -/
def bury : (room : Nat) → Json → Json
  | 0, arr items => buried (arr items)
  | 0, obj members => buried (obj members)
  | room + 1, arr items => arr (buryItems room items)
  | room + 1, obj members => obj (buryMembers room members)
  | room, unnamed value => unnamed (bury room value)
  | _, j => j

/-- The items of an array with room inside it. -/
def buryItems (room : Nat) : List Json → List Json
  | [] => []
  | item :: items => bury room item :: buryItems room items

/-- The members of an object with room inside it. -/
def buryMembers (room : Nat) : List (String × Json) → List (String × Json)
  | [] => []
  | (name, value) :: members => (name, bury room value) :: buryMembers room members

end

end Json

end SatWire
