/-!
# The letters of a settings document

Blanks, comments, line ends, and the four kinds of strings.  Readers take characters off the front
of a text and return what they read with the rest, or nothing if it does not stand there.
-/

namespace SatWire.Toml

/-- A blank inside a line. -/
def isBlank (c : Char) : Bool := c == ' ' || c == '\t'

/-- A character of a comment. -/
def isCommentChar (c : Char) : Bool := c == '\t' || (0x20 ≤ c.toNat && c.toNat != 0x7F)

/-- A character that stands for itself between double quotes. -/
def isBasicChar (c : Char) : Bool :=
  c == '\t' || (0x20 ≤ c.toNat && c != '"' && c != '\\' && c.toNat != 0x7F)

/-- A character that stands for itself between single quotes. -/
def isLiteralChar (c : Char) : Bool :=
  c == '\t' || (0x20 ≤ c.toNat && c != '\'' && c.toNat != 0x7F)

/-- Passes over blanks. -/
def skipBlanks (text : List Char) : List Char := text.dropWhile isBlank

/-- A line end, without or with a carriage return. -/
def lineEnd? : List Char → Option (List Char)
  | '\n' :: rest => some rest
  | '\r' :: '\n' :: rest => some rest
  | _ => none

/-- Passes over a comment, if one begins here. -/
def skipComment : List Char → List Char
  | '#' :: rest => rest.dropWhile isCommentChar
  | text => text

/-- What may follow on a line that is done: blanks and a comment, up to the end of the line or of the
text. -/
def endOfLine? (text : List Char) : Option (List Char) :=
  match skipComment (skipBlanks text) with
  | [] => some []
  | rest => lineEnd? rest

/-- Passes over blanks, comments and line ends, at most `rounds` of them.  Every round takes a
character, so the length of the text is rounds enough. -/
def skipLines : (rounds : Nat) → List Char → List Char
  | 0, text => text
  | rounds + 1, text =>
    match skipBlanks text with
    | '#' :: rest =>
      match lineEnd? (rest.dropWhile isCommentChar) with
      | some rest => skipLines rounds rest
      | none => '#' :: rest
    | rest =>
      match lineEnd? rest with
      | some rest => skipLines rounds rest
      | none => rest

/-- The value of hexadecimal digits. -/
def hexNumber? (digits : List Char) : Option Nat :=
  digits.foldlM (fun n c => do
    let d ←
      if '0' ≤ c ∧ c ≤ '9' then some (c.toNat - 48)
      else if 'a' ≤ c ∧ c ≤ 'f' then some (c.toNat - 87)
      else if 'A' ≤ c ∧ c ≤ 'F' then some (c.toNat - 55)
      else none
    return 16 * n + d) 0

/-- The character of a code point, which must not be half a surrogate pair. -/
def scalar? (n : Nat) : Option Char :=
  if n < 0xD800 ∨ (0xE000 ≤ n ∧ n < 0x110000) then some (Char.ofNat n) else none

/-- The character behind a backslash, and the rest. -/
def escaped? : List Char → Option (Char × List Char)
  | 'b' :: rest => some ('\x08', rest)
  | 't' :: rest => some ('\t', rest)
  | 'n' :: rest => some ('\n', rest)
  | 'f' :: rest => some ('\x0c', rest)
  | 'r' :: rest => some ('\r', rest)
  | '"' :: rest => some ('"', rest)
  | '\\' :: rest => some ('\\', rest)
  | 'u' :: rest => code rest 4
  | 'U' :: rest => code rest 8
  | _ => none
where
  /-- A code point of so many hexadecimal digits. -/
  code (text : List Char) (digits : Nat) : Option (Char × List Char) := do
    let front := text.take digits
    if front.length = digits then
      let c ← scalar? (← hexNumber? front)
      return (c, text.drop digits)
    else none

/-- A string between double quotes, behind the opening quote.  `read` holds its characters, last
first; every round takes a character. -/
def basicString? : (rounds : Nat) → (read : List Char) → List Char → Option (String × List Char)
  | 0, _, _ => none
  | rounds + 1, read, text =>
    match text with
    | '"' :: rest => some (String.ofList read.reverse, rest)
    | '\\' :: rest => do
      let (c, rest) ← escaped? rest
      basicString? rounds (c :: read) rest
    | c :: rest => if isBasicChar c then basicString? rounds (c :: read) rest else none
    | [] => none

/-- A string between single quotes, behind the opening quote. -/
def literalString? (text : List Char) : Option (String × List Char) :=
  match text.dropWhile isLiteralChar with
  | '\'' :: rest => some (String.ofList (text.takeWhile isLiteralChar), rest)
  | _ => none

/-- The end of a string of several lines, at a run of `quote`: up to two quotes may stand before the
closing three. -/
def closing? (quote : Char) (read : List Char) (text : List Char) : Option (String × List Char) :=
  let run := (text.takeWhile (· == quote)).length
  if 3 ≤ run ∧ run ≤ 5 then
    some (String.ofList (read.reverse ++ List.replicate (run - 3) quote), text.drop run)
  else none

/-- Passes over blanks and line ends behind a backslash at the end of a line. -/
def skipGap : (rounds : Nat) → List Char → List Char
  | 0, text => text
  | rounds + 1, text =>
    match text with
    | c :: rest =>
      if isBlank c then skipGap rounds rest
      else
        match lineEnd? text with
        | some rest => skipGap rounds rest
        | none => text
    | [] => []

/-- A string of several lines between double quotes, behind the opening quotes.  Line ends are read
as line feeds, and a backslash before one takes the gap behind it away. -/
def basicLines? : (rounds : Nat) → (read : List Char) → List Char → Option (String × List Char)
  | 0, _, _ => none
  | rounds + 1, read, text =>
    match text with
    | '"' :: rest =>
      match closing? '"' read text with
      | some found => some found
      | none => if 5 < (text.takeWhile (· == '"')).length then none
        else basicLines? rounds ('"' :: read) rest
    | '\\' :: rest =>
      match lineEnd? (skipBlanks rest) with
      | some next => basicLines? rounds read (skipGap next.length next)
      | none => do
        let (c, rest) ← escaped? rest
        basicLines? rounds (c :: read) rest
    | c :: rest =>
      match lineEnd? text with
      | some next => basicLines? rounds ('\n' :: read) next
      | none => if isBasicChar c then basicLines? rounds (c :: read) rest else none
    | [] => none

/-- A string of several lines between single quotes, behind the opening quotes. -/
def literalLines? : (rounds : Nat) → (read : List Char) → List Char → Option (String × List Char)
  | 0, _, _ => none
  | rounds + 1, read, text =>
    match text with
    | '\'' :: rest =>
      match closing? '\'' read text with
      | some found => some found
      | none => if 5 < (text.takeWhile (· == '\'')).length then none
        else literalLines? rounds ('\'' :: read) rest
    | c :: rest =>
      match lineEnd? text with
      | some next => literalLines? rounds ('\n' :: read) next
      | none => if isLiteralChar c then literalLines? rounds (c :: read) rest else none
    | [] => none

/-- The line end that may follow the opening quotes and is not part of the string. -/
def skipFirstLineEnd (text : List Char) : List Char :=
  (lineEnd? text).getD text

/-- A string of any kind. -/
def string? : List Char → Option (String × List Char)
  | '"' :: '"' :: '"' :: rest => basicLines? (rest.length + 1) [] (skipFirstLineEnd rest)
  | '"' :: rest => basicString? (rest.length + 1) [] rest
  | '\'' :: '\'' :: '\'' :: rest => literalLines? (rest.length + 1) [] (skipFirstLineEnd rest)
  | '\'' :: rest => literalString? rest
  | _ => none

end SatWire.Toml
