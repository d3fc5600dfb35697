import SatWire.Toml.Number
import SatWire.Toml.Table
/-!
# Reading settings documents

A document is a list of lines: headers, which open tables, and names with values, which go into the
table opened last.  A name may have several parts, joined by points.  Arrays may run over several
lines; inline tables may not.
-/

namespace SatWire.Toml

/-- A character of a bare name. -/
def isNameChar (c : Char) : Bool := c.isAlphanum || c == '_' || c == '-'

/-- One part of a name: a bare word, or a string of one line. -/
def namePart? (text : List Char) : Option (String × List Char) :=
  match text with
  | '"' :: rest => basicString? (rest.length + 1) [] rest
  | '\'' :: rest => literalString? rest
  | _ =>
    match text.takeWhile isNameChar with
    | [] => none
    | part => some (String.ofList part, text.dropWhile isNameChar)

/-- A name: its parts before the last, the last, and the rest of the text.  Every round takes a
character. -/
def name? : (rounds : Nat) → List Char → Option (List String × String × List Char)
  | 0, _ => none
  | rounds + 1, text => do
    let (part, rest) ← namePart? (skipBlanks text)
    match skipBlanks rest with
    | '.' :: rest =>
      let (parts, last, rest) ← name? rounds rest
      return (part :: parts, last, rest)
    | rest => return ([], part, rest)

/-- How many parts a name may have at most, and how deep arrays and inline tables may nest. -/
def maxNesting : Nat := 79

/-- A name of an admissible number of parts. -/
def shortName? (text : List Char) : Option (List String × String × List Char) := do
  let (path, name, rest) ← name? (text.length + 1) text
  if path.length < maxNesting then return (path, name, rest) else none

/-- Reads the value at the front of a text. -/
abbrev ValueReader := List Char → Option (Json × List Char)

/-- A name with its value, up to the end of the value. -/
def binding? (value : ValueReader) (text : List Char) :
    Option (List String × String × Json × List Char) := do
  let (path, name, rest) ← shortName? text
  match rest with
  | '=' :: rest =>
    let (v, rest) ← value (skipBlanks rest)
    return (path, name, v, rest)
  | _ => none

/-- The items of an array, behind those in `read`, last first. -/
def arrayItems? (value : ValueReader) : (rounds : Nat) → (read : List Json) → ValueReader
  | 0, _, _ => none
  | rounds + 1, read, text =>
    match skipLines text.length text with
    | ']' :: rest => some (.arr read.reverse, rest)
    | text => do
      let (v, rest) ← value text
      match skipLines rest.length rest with
      | ',' :: rest => arrayItems? value rounds (v :: read) rest
      | ']' :: rest => some (.arr (v :: read).reverse, rest)
      | _ => none

/-- The members of an inline table that is not empty, behind those in `read`. -/
def inlineMembers? (value : ValueReader) : (rounds : Nat) → (read : Members) → ValueReader
  | 0, _, _ => none
  | rounds + 1, read, text => do
    let (path, name, v, rest) ← binding? value text
    let read ← read.assignDotted path name v
    match skipBlanks rest with
    | ',' :: rest => inlineMembers? value rounds read rest
    | '\x7d' :: rest => some (read.toJson, rest)
    | _ => none

/-- An inline table, behind its opening brace. -/
def inlineTable? (value : ValueReader) (text : List Char) : Option (Json × List Char) :=
  match skipBlanks text with
  | '\x7d' :: rest => some (.obj [], rest)
  | text => inlineMembers? value (text.length + 1) [] text

/-- A value in which arrays and inline tables nest at most `levels` deep. -/
def value? : (levels : Nat) → ValueReader
  | levels, text =>
    match text with
    | '"' :: _ | '\'' :: _ => (string? text).map fun (s, rest) => (.str s, rest)
    | '[' :: rest =>
      match levels with
      | 0 => none
      | levels + 1 => arrayItems? (value? levels) (rest.length + 1) [] rest
    | '\x7b' :: rest =>
      match levels with
      | 0 => none
      | levels + 1 => inlineTable? (value? levels) rest
    | _ =>
      let (front, rest) := word text
      (valueOfWord? front).map fun v => (v, rest)

/-- A line that is not empty: a header, or a name with a value. -/
def line? (d : Document) (text : List Char) : Option (Document × List Char) :=
  match text with
  | '[' :: '[' :: rest => do
    let (path, name, rest) ← shortName? rest
    match rest with
    | ']' :: ']' :: rest => return (← d.addTable path name, ← endOfLine? rest)
    | _ => none
  | '[' :: rest => do
    let (path, name, rest) ← shortName? rest
    match rest with
    | ']' :: rest => return (← d.openTable path name, ← endOfLine? rest)
    | _ => none
  | _ => do
    let (path, name, v, rest) ← binding? (value? maxNesting) text
    return (← d.assign path name v, ← endOfLine? rest)

/-- The lines of a document.  Every round takes a character. -/
def lines? : (rounds : Nat) → Document → List Char → Option Document
  | 0, d, text => if text.isEmpty then some d else none
  | rounds + 1, d, text =>
    match skipBlanks text with
    | [] => some d
    | '#' :: rest => do lines? rounds d (← endOfLine? ('#' :: rest))
    | text =>
      match lineEnd? text with
      | some rest => lines? rounds d rest
      | none => do
        let (d, rest) ← line? d text
        lines? rounds d rest

/-- Reads a document; a byte order mark in front of it is passed over. -/
def read? (text : String) : Option Json := do
  let chars :=
    match text.toList with
    | '\ufeff' :: rest => rest
    | chars => chars
  let d ← lines? (chars.length + 1) {} chars
  return d.root.toJson

end SatWire.Toml
