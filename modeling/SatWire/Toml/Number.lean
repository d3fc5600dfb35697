import SatWire.Json.Basic
import SatWire.Toml.Text
/-!
# Numbers and dates of a settings document

Whole numbers are decimal with a sign, or hexadecimal, octal or binary without one, and fit a signed
word of 64 bits; a single underscore may stand between digits.  Numbers with a fraction or an
exponent, and dates and times, are recognised but have no slot to go into.  A positive number that
is too large for double precision is refused even so; a negative one is not.
-/

namespace SatWire.Toml

/-- The digits of a run without its underscores, each of which stands between two digits. -/
def digitRun? (isDigit : Char → Bool) : List Char → Option (List Char)
  | [] => none
  | c :: rest => if isDigit c then more [c] rest else none
where
  /-- The digits behind those in `read`, last first. -/
  more (read : List Char) : List Char → Option (List Char)
    | [] => some read.reverse
    | '_' :: c :: rest => if isDigit c then more (c :: read) rest else none
    | c :: rest => if isDigit c then more (c :: read) rest else none

/-- Splits off a sign. -/
def splitSign : List Char → Bool × List Char
  | '-' :: rest => (true, rest)
  | '+' :: rest => (false, rest)
  | text => (false, text)

/-- The number that decimal digits spell. -/
def numberOf (digits : List Char) : Nat :=
  digits.foldl (fun n c => 10 * n + (c.toNat - 48)) 0

/-- The digits of a decimal number without its sign.  Only zero itself begins with a zero. -/
def decimalDigits? (text : List Char) : Option (List Char) := do
  let digits ← digitRun? Char.isDigit text
  if digits.head? = some '0' ∧ 1 < digits.length then none else some digits

/-- A number in another base. -/
def based? (base : Nat) (isDigit : Char → Bool) (text : List Char) : Option Nat := do
  let digits ← digitRun? isDigit text
  digits.foldlM (fun n c => (hexNumber? [c]).map fun d => base * n + d) 0

/-- The words of 64 bits. -/
def word? (n : Int) : Option Int :=
  if Int64.minValue.toInt ≤ n ∧ n ≤ Int64.maxValue.toInt then some n else none

/-- A whole number. -/
def integer? (text : List Char) : Option Int :=
  match text with
  | '0' :: 'x' :: rest => (based? 16 (fun c => (hexNumber? [c]).isSome) rest).bind (word? ·)
  | '0' :: 'o' :: rest => (based? 8 (fun c => '0' ≤ c && c ≤ '7') rest).bind (word? ·)
  | '0' :: 'b' :: rest => (based? 2 (fun c => c == '0' || c == '1') rest).bind (word? ·)
  | _ =>
    let (negative, digits) := splitSign text
    (decimalDigits? digits).bind fun digits =>
      word? (if negative then -(numberOf digits : Int) else numberOf digits)

/-- A character of a mantissa. -/
def isMantissaChar (c : Char) : Bool := c.isDigit || c == '_'

/-- A number without a sign: decimal digits, of which the first is no zero, times ten to the power of
the exponent. -/
structure Scaled where
  digits : List Char
  exponent : Int

/-- Puts zeros behind the digits of a number. -/
def withZeros (n : Nat) : (zeros : Nat) → Nat
  | 0 => n
  | zeros + 1 => withZeros (10 * n) zeros

/-- The least number that double precision rounds to infinity.  It lies half a unit above the largest
finite one, and ties go up there. -/
def overflowThreshold : Nat := (1 <<< 1024) - (1 <<< 970)

/-- Whether a number is too large for double precision.  The threshold has 309 digits, so a comparison
is needed only for numbers with as many digits before the point. -/
def Scaled.overflows (x : Scaled) : Bool :=
  let places := (x.digits.length : Int) + x.exponent
  if x.digits.isEmpty || places < 309 then false
  else if 309 < places then true
  else withZeros overflowThreshold (-x.exponent).toNat ≤ withZeros (numberOf x.digits) x.exponent.toNat

/-- An exponent with its letter. -/
def exponent? : List Char → Option Int
  | c :: rest =>
    if c == 'e' || c == 'E' then
      let (negative, digits) := splitSign rest
      (digitRun? Char.isDigit digits).map fun digits =>
        if negative then -(numberOf digits : Int) else numberOf digits
    else none
  | [] => none

/-- The number of the digits before and behind a point. -/
def scaled (whole fraction : List Char) (exponent : Int) : Scaled :=
  ⟨(whole ++ fraction).dropWhile (· == '0'), exponent - fraction.length⟩

/-- A number without its sign, with a fraction, an exponent or both. -/
def scaled? (text : List Char) : Option Scaled := do
  let whole ← decimalDigits? (text.takeWhile isMantissaChar)
  match text.dropWhile isMantissaChar with
  | '.' :: rest =>
    let fraction ← digitRun? Char.isDigit (rest.takeWhile isMantissaChar)
    match rest.dropWhile isMantissaChar with
    | [] => return scaled whole fraction 0
    | tail => return scaled whole fraction (← exponent? tail)
  | tail => return scaled whole [] (← exponent? tail)

/-- Whether a text is a number with a fraction, an exponent or both, or one of the special ones. -/
def isFloat (text : List Char) : Bool :=
  let (negative, digits) := splitSign text
  digits == ['i', 'n', 'f'] || digits == ['n', 'a', 'n']
    || match scaled? digits with
      | some x => negative || !x.overflows
      | none => false

/-- A number of two digits within bounds. -/
def pair? (low high : Nat) : List Char → Option (List Char)
  | a :: b :: rest =>
    if a.isDigit && b.isDigit then
      let n := 10 * (a.toNat - 48) + (b.toNat - 48)
      if low ≤ n ∧ n ≤ high then some rest else none
    else none
  | _ => none

/-- A given character. -/
def mark? (c : Char) : List Char → Option (List Char)
  | d :: rest => if d = c then some rest else none
  | [] => none

/-- How many days a month of a year has. -/
def daysOf (year month : Nat) : Nat :=
  if month = 2 then
    if year % 4 = 0 ∧ (year % 100 ≠ 0 ∨ year % 400 = 0) then 29 else 28
  else if month = 4 ∨ month = 6 ∨ month = 9 ∨ month = 11 then 30
  else 31

/-- Passes over a date. -/
def date? (text : List Char) : Option (List Char) := do
  let year := text.take 4
  if year.length = 4 ∧ year.all Char.isDigit then
    let rest ← mark? '-' (text.drop 4)
    let month := numberOf (rest.take 2)
    let rest ← mark? '-' (← pair? 1 12 rest)
    pair? 1 (daysOf (numberOf year) month) rest
  else none

/-- Passes over a time of day. -/
def time? (text : List Char) : Option (List Char) := do
  let rest ← mark? ':' (← pair? 0 23 text)
  let rest ← mark? ':' (← pair? 0 59 rest)
  let rest ← pair? 0 60 rest
  match rest with
  | '.' :: c :: more => if c.isDigit then return more.dropWhile Char.isDigit else none
  | _ => return rest

/-- Passes over what may follow a time of day that has a date: its distance from universal time. -/
def offset? : List Char → Option (List Char)
  | 'Z' :: rest | 'z' :: rest => some rest
  | '+' :: rest | '-' :: rest => do
    let rest ← mark? ':' (← pair? 0 23 rest)
    pair? 0 59 rest
  | text => some text

/-- Whether a text is a date, a time of day, or both. -/
def isMoment (text : List Char) : Bool :=
  match date? text with
  | some [] => true
  | some (c :: rest) =>
    (c == 'T' || c == 't' || c == ' ') && ((time? rest).bind offset?) == some []
  | none => time? text == some []

/-- A character of a number, a date or a bare word. -/
def isWordChar (c : Char) : Bool :=
  c.isAlphanum || c == '_' || c == '+' || c == '-' || c == '.' || c == ':'

/-- The word at the front of a text, and the rest.  A blank between a date and a digit belongs to the
word. -/
def word (text : List Char) : List Char × List Char :=
  let front := text.takeWhile isWordChar
  let rest := text.dropWhile isWordChar
  match rest with
  | ' ' :: c :: more =>
    if c.isDigit && date? front == some [] then
      (front ++ ' ' :: (c :: more).takeWhile isWordChar, (c :: more).dropWhile isWordChar)
    else (front, rest)
  | _ => (front, rest)

/-- The value that a word stands for.  A date or a time counts as a table with one unknown name. -/
def valueOfWord? (text : List Char) : Option Json :=
  if text = ['t', 'r', 'u', 'e'] then some (.bool true)
  else if text = ['f', 'a', 'l', 's', 'e'] then some (.bool false)
  else
    match integer? text with
    | some n => some (.int n)
    | none =>
      if isFloat text then some (.decimal (String.ofList text))
      else if isMoment text then some (.obj [("moment", .str (String.ofList text))])
      else none

end SatWire.Toml
