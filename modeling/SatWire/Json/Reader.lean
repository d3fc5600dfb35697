import SatWire.Json.Token
/-!
# Reading JSON

A reader is a machine over tokens.  It keeps a stack of the arrays and objects that are open, the
innermost first, and knows what may come next.  A token that may not come next ends the reading:
the value is then what is on the stack, closed, with `unreadable` at the innermost place.

The machine nests as deep as the text does.  Afterwards what stands too deep is buried: it may be
passed over, but not read.
-/

namespace SatWire.Json

/-- An open array or object: what it holds so far, last first, and for an object the name whose
value is being read, if it spells a text. -/
inductive Container where
  | arr (done : List Json)
  | obj (done : List (String × Json)) (name : Option String)

/-- What may come next. -/
inductive Phase where
  | value
  /-- A value, or the end of an array that is still empty. -/
  | valueOrEnd
  /-- A name, or the end of an object that is still empty. -/
  | nameOrEnd
  | name
  | colon
  /-- A comma or the end of the innermost container. -/
  | commaOrEnd
  /-- Nothing: the value is complete. -/
  | complete (value : Json)

/-- The state of a reader. -/
structure Reading where
  phase : Phase := .value
  stack : List Container := []

/-- What a text holds: a value, and whether nothing stands behind it. -/
structure Document where
  value : Json
  alone : Bool

namespace Reading

/-- A member of an object.  One whose name spells no text is kept under the empty name, with a value
that tells. -/
def member : Option String → Json → String × Json
  | some name, value => (name, value)
  | none, value => ("", .unnamed value)

/-- Puts a value where one was awaited. -/
def put (value : Json) : List Container → Reading
  | [] => ⟨.complete value, []⟩
  | .arr done :: stack => ⟨.commaOrEnd, .arr (value :: done) :: stack⟩
  | .obj done name :: stack => ⟨.commaOrEnd, .obj (member name value :: done) none :: stack⟩

/-- A container with its contents in order. -/
def close : Container → Json
  | .arr done => .arr done.reverse
  | .obj done _ => .obj done.reverse

/-- The value so far of a stack whose innermost open place holds `value`. -/
def abandon (value : Json) : List Container → Json
  | [] => value
  | .arr done :: stack => abandon (close (.arr (value :: done))) stack
  | .obj done name :: stack => abandon (close (.obj (member name value :: done) none)) stack

/-- Begins a value with a token. -/
def begin (stack : List Container) : Token → Option Reading
  | .null => some (put .null stack)
  | .bool b => some (put (.bool b) stack)
  | .int n => some (put (.int n) stack)
  | .decimal digits => some (put (.decimal digits) stack)
  | .str s => some (put (.str s) stack)
  | .unpaired => some (put .unpaired stack)
  | .openArray => some ⟨.valueOrEnd, .arr [] :: stack⟩
  | .openObject => some ⟨.nameOrEnd, .obj [] none :: stack⟩
  | _ => none

/-- Takes the name of a member, if it spells a text. -/
def takeName (name : Option String) : List Container → Option Reading
  | .obj done _ :: stack => some ⟨.colon, .obj done name :: stack⟩
  | _ => none

/-- One token; nothing if it may not come next. -/
def step (r : Reading) (token : Token) : Option Reading :=
  match r.phase, token, r.stack with
  | .valueOrEnd, .closeArray, top :: stack => some (put (close top) stack)
  | .nameOrEnd, .closeObject, top :: stack => some (put (close top) stack)
  | .value, _, stack | .valueOrEnd, _, stack => begin stack token
  | .nameOrEnd, .str name, stack | .name, .str name, stack => takeName (some name) stack
  | .nameOrEnd, .unpaired, stack | .name, .unpaired, stack => takeName none stack
  | .colon, .colon, stack => some ⟨.value, stack⟩
  | .commaOrEnd, .comma, .arr done :: stack => some ⟨.value, .arr done :: stack⟩
  | .commaOrEnd, .comma, .obj done name :: stack => some ⟨.name, .obj done name :: stack⟩
  | .commaOrEnd, .closeArray, .arr done :: stack => some (put (close (.arr done)) stack)
  | .commaOrEnd, .closeObject, .obj done name :: stack => some (put (close (.obj done name)) stack)
  | _, _, _ => none

/-- What a reader holds when no more can be read. -/
def stop (r : Reading) (alone : Bool) : Document :=
  match r.phase with
  | .complete value => ⟨value, alone⟩
  | _ => ⟨abandon .unreadable r.stack, false⟩

/-- Reads tokens until one may not come next. -/
def run (r : Reading) : List Token → Document
  | [] => r.stop true
  | token :: rest =>
    match r.step token with
    | some next => run next rest
    | none => r.stop false

end Reading

/-- What a text holds, if containers may be read that nest at most `limit` deep. -/
def readWithin (limit : Nat) (text : String) : Document :=
  let d := Reading.run {} (tokens text.toList)
  { d with value := d.value.bury limit }

/-- How deep the containers of a text may nest that are read. -/
def maxDepth : Nat := 127

/-- What a text holds. -/
def read (text : String) : Document :=
  readWithin maxDepth text

end SatWire.Json
