import SatWire.Json.Basic
/-!
# Tables under construction

A settings document builds one tree of tables.  A table may be opened by its own header, implied by
the header of a table inside it, or written out by dotted names, and each way allows other
additions later: a header may open a table once, and only if nothing but longer headers implied it;
dotted names may add to tables that dotted names made.
-/

namespace SatWire.Toml

/-- How a table came to be. -/
inductive Origin where
  /-- By its own header. -/
  | header
  /-- By the header of a table inside it. -/
  | implied
  /-- By a dotted name. -/
  | dotted
  deriving DecidableEq, Repr

/-- What a name stands for. -/
inductive Node where
  /-- A complete value. -/
  | value (value : Json)
  | table (origin : Origin) (members : List (String × Node))
  /-- A list of tables: those before the last, and the last, which headers and names refer to. -/
  | tables (earlier : List (List (String × Node))) (last : List (String × Node))

/-- The names of a table with what they stand for, in the order they were made. -/
abbrev Members := List (String × Node)

namespace Members

/-- What a name stands for. -/
def get? (members : Members) (name : String) : Option Node :=
  (members.find? (·.1 == name)).map (·.2)

/-- Lets a name stand for something else, or adds it at the end. -/
def set (members : Members) (name : String) (node : Node) : Members :=
  if members.any (·.1 == name) then
    members.map fun m => if m.1 == name then (name, node) else m
  else members ++ [(name, node)]

/-- Gives a new name a value. -/
def assign (members : Members) (name : String) (value : Json) : Option Members :=
  match members.get? name with
  | some _ => none
  | none => some (members.set name (.value value))

/-- Gives a dotted name a value.  The table that holds the last part must have been made by a dotted
name, and none on the way by a header of its own. -/
def assignDotted (members : Members) (path : List String) (name : String) (value : Json) :
    Option Members :=
  match path with
  | [] => members.assign name value
  | part :: rest =>
    match members.get? part with
    | none => do
      let inner ← assignDotted [] rest name value
      return members.set part (.table .dotted inner)
    | some (.table origin inner) =>
      if origin = .header ∨ (rest = [] ∧ origin ≠ .dotted) then none
      else do
        let inner ← assignDotted inner rest name value
        return members.set part (.table origin inner)
    | some (.tables earlier last) =>
      if rest = [] then none
      else do
        let last ← assignDotted last rest name value
        return members.set part (.tables earlier last)
    | some (.value _) => none

/-- Changes the table at a path of names; tables that are not there yet are implied. -/
def update (members : Members) (path : List String) (change : Members → Option Members) :
    Option Members :=
  match path with
  | [] => change members
  | part :: rest =>
    match members.get? part with
    | none => do
      let inner ← update [] rest change
      return members.set part (.table .implied inner)
    | some (.table origin inner) => do
      let inner ← update inner rest change
      return members.set part (.table origin inner)
    | some (.tables earlier last) => do
      let last ← update last rest change
      return members.set part (.tables earlier last)
    | some (.value _) => none

/-- Opens the table of a name. -/
def openTable (name : String) (members : Members) : Option Members :=
  match members.get? name with
  | none => some (members.set name (.table .header []))
  | some (.table .implied inner) => some (members.set name (.table .header inner))
  | some _ => none

/-- Adds an empty table to the list of tables of a name. -/
def addTable (name : String) (members : Members) : Option Members :=
  match members.get? name with
  | none => some (members.set name (.tables [] []))
  | some (.tables earlier last) => some (members.set name (.tables (earlier ++ [last]) []))
  | some _ => none

end Members

mutual

/-- A node as a finished value. -/
def Node.toJson : Node → Json
  | .value value => value
  | .table _ members => .obj (membersToJson members)
  | .tables earlier last => .arr (tablesToJson earlier ++ [.obj (membersToJson last)])

/-- The members of a table as finished values. -/
def membersToJson : List (String × Node) → List (String × Json)
  | [] => []
  | (name, node) :: rest => (name, node.toJson) :: membersToJson rest

/-- Tables as finished values. -/
def tablesToJson : List (List (String × Node)) → List Json
  | [] => []
  | members :: rest => .obj (membersToJson members) :: tablesToJson rest

end

/-- A table as a finished value. -/
def Members.toJson (members : Members) : Json :=
  .obj (membersToJson members)

/-- A document while it is read: all its tables, and the path of the one that names go into. -/
structure Document where
  root : Members := []
  path : List String := []

namespace Document

/-- Gives a dotted name a value in the current table. -/
def assign (d : Document) (path : List String) (name : String) (value : Json) : Option Document := do
  let root ← d.root.update d.path fun members => members.assignDotted path name value
  return { d with root }

/-- Opens the table at a path and makes it current. -/
def openTable (d : Document) (path : List String) (name : String) : Option Document := do
  let root ← d.root.update path (Members.openTable name)
  return ⟨root, path ++ [name]⟩

/-- Adds a table to the list at a path and makes it current. -/
def addTable (d : Document) (path : List String) (name : String) : Option Document := do
  let root ← d.root.update path (Members.addTable name)
  return ⟨root, path ++ [name]⟩

end Document

end SatWire.Toml
