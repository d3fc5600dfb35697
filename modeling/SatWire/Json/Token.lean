import SatWire.Json.Basic
/-!
# The words of JSON

A text is cut into tokens: punctuation, the three names, numbers and strings, with blanks between
them.  The cutting stops at the first place that starts no token.

* `length_tokenAt` — every token takes characters away, so the cutting ends.
-/

namespace SatWire.Json

/-- A word of JSON. -/
inductive Token where
  | openArray
  | closeArray
  | openObject
  | closeObject
  | comma
  | colon
  | null
  | bool (b : Bool)
  | int (n : Int)
  | decimal (digits : String)
  | str (s : String)
  | unpaired
  /-- No token starts here. -/
  | stray
  deriving DecidableEq

/-- What stands behind the quote that opens a string. -/
inductive Scanned where
  /-- A text, and what follows the closing quote. -/
  | text (chars rest : List Char)
  /-- A string that spells no text. -/
  | unpaired (rest : List Char)
  /-- No string. -/
  | broken

/-- The value of a hexadecimal digit. -/
def hexValue? (c : Char) : Option Nat :=
  let n := c.toNat
  if 48 ≤ n ∧ n ≤ 57 then some (n - 48)
  else if 97 ≤ n ∧ n ≤ 102 then some (n - 87)
  else if 65 ≤ n ∧ n ≤ 70 then some (n - 55)
  else none

/-- The number that four hexadecimal digits spell. -/
def codeUnit? (a b c d : Char) : Option Nat := do
  let a ← hexValue? a
  let b ← hexValue? b
  let c ← hexValue? c
  let d ← hexValue? d
  return ((a * 16 + b) * 16 + c) * 16 + d

/-- The first half of a surrogate pair. -/
def isLead (unit : Nat) : Bool := 0xD800 ≤ unit && unit < 0xDC00

/-- The second half of a surrogate pair. -/
def isTrail (unit : Nat) : Bool := 0xDC00 ≤ unit && unit < 0xE000

/-- The character that a surrogate pair stands for. -/
def pairChar (lead trail : Nat) : Char :=
  Char.ofNat (0x10000 + (lead - 0xD800) * 0x400 + (trail - 0xDC00))

/-- The character behind a backslash and one letter. -/
def escaped? : Char → Option Char
  | '"' => some '"'
  | '\\' => some '\\'
  | '/' => some '/'
  | 'b' => some '\x08'
  | 'f' => some '\x0c'
  | 'n' => some '\n'
  | 'r' => some '\r'
  | 't' => some '\t'
  | _ => none

/-- Reads a string to its closing quote.  `read` holds its characters so far, last first, `lead` an
open first half of a surrogate pair, and `paired` tells whether no half was left alone. -/
def scanText (read : List Char) (lead : Option Nat) (paired : Bool) : List Char → Scanned
  | [] => .broken
  | c :: rest =>
    if c = '"' then
      if paired && lead.isNone then .text read.reverse rest else .unpaired rest
    else if c = '\\' then
      match rest with
      | [] => .broken
      | e :: rest =>
        if e = 'u' then
          match rest with
          | a :: b :: c :: d :: rest =>
            match codeUnit? a b c d with
            | none => .broken
            | some unit =>
              match lead with
              | some first =>
                if isTrail unit then scanText (pairChar first unit :: read) none paired rest
                else if isLead unit then scanText read (some unit) false rest
                else scanText (Char.ofNat unit :: read) none false rest
              | none =>
                if isLead unit then scanText read (some unit) paired rest
                else if isTrail unit then scanText read none false rest
                else scanText (Char.ofNat unit :: read) none paired rest
          | _ => .broken
        else
          match escaped? e with
          | none => .broken
          | some c => scanText (c :: read) none (paired && lead.isNone) rest
    else if c.toNat < 0x20 then .broken
    else scanText (c :: read) none (paired && lead.isNone) rest

/-- What is left behind a string. -/
def Scanned.rest : Scanned → List Char
  | text _ rest => rest
  | unpaired rest => rest
  | broken => []

/-- Scanning a text only shortens what is left. -/
theorem length_scanText (read : List Char) (lead : Option Nat) (paired : Bool)
    (chars : List Char) : (scanText read lead paired chars).rest.length ≤ chars.length := by
  fun_induction scanText read lead paired chars <;>
    simp_all only [Scanned.rest, List.length_cons, List.length_nil] <;> omega

/-- The number that digits spell. -/
def natOfDigits (digits : List Char) : Nat :=
  digits.foldl (fun n c => 10 * n + (c.toNat - 48)) 0

/-- The digits at the front of a text, and the rest. -/
def spanDigits (chars : List Char) : List Char × List Char :=
  (chars.takeWhile Char.isDigit, chars.dropWhile Char.isDigit)

/-- A fraction at the front of a text, if a point is there. -/
def scanFraction : List Char → Option (List Char × List Char)
  | '.' :: rest =>
    match spanDigits rest with
    | ([], _) => none
    | (digits, rest) => some ('.' :: digits, rest)
  | chars => some ([], chars)

/-- The digits of an exponent. -/
def scanExponentDigits (mark : List Char) (chars : List Char) : Option (List Char × List Char) :=
  match spanDigits chars with
  | ([], _) => none
  | (digits, rest) => some (mark ++ digits, rest)

/-- An exponent at the front of a text, if its letter is there. -/
def scanExponent : List Char → Option (List Char × List Char)
  | c :: rest =>
    if c = 'e' ∨ c = 'E' then
      match rest with
      | '+' :: rest => scanExponentDigits [c, '+'] rest
      | '-' :: rest => scanExponentDigits [c, '-'] rest
      | _ => scanExponentDigits [c] rest
    else some ([], c :: rest)
  | [] => some ([], [])

/-- A number without its sign at the front of a text, and the rest.  A zero may only lead a number
as its whole integral part. -/
def scanNumber (negative : Bool) (chars : List Char) : Token × List Char :=
  match spanDigits chars with
  | ([], _) => (.stray, [])
  | (first :: more, rest) =>
    if first = '0' ∧ more ≠ [] then (.stray, [])
    else
      match scanFraction rest with
      | none => (.stray, [])
      | some (fraction, rest) =>
        match scanExponent rest with
        | none => (.stray, [])
        | some (exponent, rest) =>
          let sign := if negative then ['-'] else []
          let n := natOfDigits (first :: more)
          if fraction.isEmpty && exponent.isEmpty && !(negative && n == 0) then
            (.int (if negative then -(n : Int) else n), rest)
          else (.decimal (String.ofList (sign ++ first :: more ++ fraction ++ exponent)), rest)

/-- Digits are taken off the front. -/
theorem length_spanDigits (chars : List Char) : (spanDigits chars).2.length ≤ chars.length :=
  (List.dropWhile_sublist _).length_le

theorem length_scanFraction {chars fraction rest : List Char}
    (h : scanFraction chars = some (fraction, rest)) : rest.length ≤ chars.length := by
  unfold scanFraction at h
  split at h
  · rename_i digits
    have bound := length_spanDigits digits
    split at h
    · cases h
    · rename_i same
      cases h
      rw [same] at bound
      exact Nat.le_succ_of_le bound
  · cases h
    exact Nat.le_refl _

theorem length_scanExponentDigits {mark chars exponent rest : List Char}
    (h : scanExponentDigits mark chars = some (exponent, rest)) : rest.length ≤ chars.length := by
  have bound := length_spanDigits chars
  unfold scanExponentDigits at h
  split at h
  · cases h
  · rename_i same
    cases h
    rwa [same] at bound

theorem length_scanExponent {chars exponent rest : List Char}
    (h : scanExponent chars = some (exponent, rest)) : rest.length ≤ chars.length := by
  unfold scanExponent at h
  split at h
  · split at h
    · split at h <;> have bound := length_scanExponentDigits h <;>
        simp only [List.length_cons] at bound ⊢ <;> omega
    · cases h
      exact Nat.le_refl _
  · cases h
    exact Nat.le_refl _

/-- A number takes a character at least, so scanning goes on. -/
theorem length_scanNumber (negative : Bool) {chars : List Char} (some_char : chars ≠ []) :
    (scanNumber negative chars).2.length < chars.length := by
  have positive : 0 < chars.length := List.length_pos_iff.2 some_char
  unfold scanNumber
  split
  · simpa
  · rename_i first more rest same
    have whole : chars.length = (first :: more).length + rest.length := by
      have both := congrArg List.length (List.takeWhile_append_dropWhile (p := Char.isDigit) (l := chars))
      simp only [spanDigits, Prod.mk.injEq] at same
      rw [same.1, same.2, List.length_append] at both
      exact both.symm
    rw [List.length_cons] at whole
    split
    · simpa
    · split
      · simpa
      · rename_i fraction place frac
        have second := length_scanFraction frac
        split
        · simpa
        · rename_i exponent last exp
          have third := length_scanExponent exp
          dsimp only
          split <;> (dsimp only; omega)

/-- The token that starts with a character, and the rest of the text. -/
def tokenAt (c : Char) (rest : List Char) : Token × List Char :=
  match c with
  | '[' => (.openArray, rest)
  | ']' => (.closeArray, rest)
  | '\x7b' => (.openObject, rest)
  | '\x7d' => (.closeObject, rest)
  | ',' => (.comma, rest)
  | ':' => (.colon, rest)
  | '"' =>
    match scanText [] none true rest with
    | .text chars rest => (.str (String.ofList chars), rest)
    | .unpaired rest => (.unpaired, rest)
    | .broken => (.stray, [])
  | '-' => if rest.isEmpty then (.stray, []) else scanNumber true rest
  | 't' => match rest with
    | 'r' :: 'u' :: 'e' :: rest => (.bool true, rest)
    | _ => (.stray, [])
  | 'f' => match rest with
    | 'a' :: 'l' :: 's' :: 'e' :: rest => (.bool false, rest)
    | _ => (.stray, [])
  | 'n' => match rest with
    | 'u' :: 'l' :: 'l' :: rest => (.null, rest)
    | _ => (.stray, [])
  | _ => if c.isDigit then scanNumber false (c :: rest) else (.stray, [])

/-- A word takes nothing back. -/
theorem length_tokenAt (c : Char) (rest : List Char) : (tokenAt c rest).2.length ≤ rest.length := by
  unfold tokenAt
  split
  case h_7 =>
    have bound := length_scanText [] none true rest
    split <;> simp_all [Scanned.rest]
  case h_8 =>
    split
    · simp
    · rename_i some_char
      exact Nat.le_of_lt (length_scanNumber true (by simpa using some_char))
  case h_9 => split <;> simp only [List.length_cons, List.length_nil] <;> omega
  case h_10 => split <;> simp only [List.length_cons, List.length_nil] <;> omega
  case h_11 => split <;> simp only [List.length_cons, List.length_nil] <;> omega
  case h_12 =>
    split
    · exact Nat.le_of_lt_succ (length_scanNumber false (List.cons_ne_nil c rest))
    · simp
  all_goals exact Nat.le_refl _

/-- The characters that may stand between tokens. -/
def isSpace (c : Char) : Bool :=
  c == ' ' || c == '\n' || c == '\t' || c == '\r'

/-- The tokens of a text, behind those in `done`, last first. -/
def tokensOnto (done : List Token) : List Char → List Token
  | [] => done.reverse
  | c :: rest =>
    if isSpace c then tokensOnto done rest
    else
      match _found : tokenAt c rest with
      | (token, next) => tokensOnto (token :: done) next
termination_by chars => chars.length
decreasing_by
  · exact Nat.lt_succ_self _
  · have bound := length_tokenAt c rest
    rw [_found] at bound
    exact Nat.lt_succ_of_le bound

/-- The tokens of a text. -/
def tokens (chars : List Char) : List Token :=
  tokensOnto [] chars

end SatWire.Json
