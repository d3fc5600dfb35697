import SatWire.Json.Writer
import SatWire.Proofs.Text.Decimal

/-!
# The text of a value

The writer works on what it wrote before, last character first.  Read in order, what it adds is a
text of the value alone (`spelling`), whatever stood there: an item's text stands inside the text of
its array, a member's inside that of its object.

A value is plain if nothing in it was cut short and all its numbers are whole.  Forms are plain, and
the text of a plain value keeps to one line (`spelling_printable`).
-/

namespace SatWire.Json

mutual

/-- The text of a value. -/
def spelling : Json → List Char
  | null => ['n', 'u', 'l', 'l']
  | bool true => ['t', 'r', 'u', 'e']
  | bool false => ['f', 'a', 'l', 's', 'e']
  | int n => (toString n).toList
  | decimal digits => digits.toList
  | str s => quote s
  | arr [] => ['[', ']']
  | arr (item :: items) => '[' :: (spelling item ++ spellingOfItems items)
  | obj [] => ['\x7b', '\x7d']
  | obj ((name, value) :: members) =>
    '\x7b' :: (quote name ++ ':' :: (spelling value ++ spellingOfMembers members))
  | unpaired | unnamed _ | buried _ | unreadable => []

/-- The text of the items after the first, and the end of their array. -/
def spellingOfItems : List Json → List Char
  | [] => [']']
  | item :: items => ',' :: (spelling item ++ spellingOfItems items)

/-- The text of the members after the first, and the end of their object. -/
def spellingOfMembers : List (String × Json) → List Char
  | [] => ['\x7d']
  | (name, value) :: members =>
    ',' :: (quote name ++ ':' :: (spelling value ++ spellingOfMembers members))

end

/-- Characters put behind others stand in front of them in reverse. -/
theorem onto_eq (chars written : List Char) : onto chars written = chars.reverse ++ written :=
  List.reverseAux_eq

mutual

/-- A value is written by putting its spelling behind what was written. -/
theorem writeOnto_eq : ∀ (j : Json) (written : List Char),
    writeOnto written j = (spelling j).reverse ++ written
  | null, written | bool true, written | bool false, written => rfl
  | int n, written => by rw [writeOnto, spelling, onto_eq]
  | decimal digits, written => by rw [writeOnto, spelling, onto_eq]
  | str s, written => by rw [writeOnto, spelling, onto_eq]
  | arr [], written | obj [], written => rfl
  | arr (item :: items), written => by
      rw [writeOnto, spelling, writeItems_eq items, writeOnto_eq item]
      simp
  | obj ((name, value) :: members), written => by
      rw [writeOnto, spelling, writeMembers_eq members, writeOnto_eq value, onto_eq]
      simp
  | unpaired, written | unnamed _, written | buried _, written | unreadable, written => by
      rw [writeOnto, spelling]
      rfl

theorem writeItems_eq : ∀ (items : List Json) (written : List Char),
    writeItems written items = (spellingOfItems items).reverse ++ written
  | [], written => rfl
  | item :: items, written => by
      rw [writeItems, spellingOfItems, writeItems_eq items, writeOnto_eq item]
      simp

theorem writeMembers_eq : ∀ (members : List (String × Json)) (written : List Char),
    writeMembers written members = (spellingOfMembers members).reverse ++ written
  | [], written => rfl
  | (name, value) :: members, written => by
      rw [writeMembers, spellingOfMembers, writeMembers_eq members, writeOnto_eq value, onto_eq]
      simp

end

/-- **The text that is written is the spelling.** -/
theorem toList_render (j : Json) : j.render.toList = spelling j := by
  rw [render, String.toList_ofList, writeOnto_eq, List.append_nil, List.reverse_reverse]

mutual

/-- The value is whole, and all numbers in it are. -/
def Plain : Json → Prop
  | null | bool _ | int _ | str _ => True
  | arr items => PlainItems items
  | obj members => PlainMembers members
  | decimal _ | unpaired | unnamed _ | buried _ | unreadable => False

/-- All items are plain. -/
def PlainItems : List Json → Prop
  | [] => True
  | item :: items => item.Plain ∧ PlainItems items

/-- The values of all members are plain. -/
def PlainMembers : List (String × Json) → Prop
  | [] => True
  | (_, value) :: members => value.Plain ∧ PlainMembers members

end

/-- The text of an object stands between braces. -/
theorem exists_spelling_obj (members : List (String × Json)) :
    ∃ inner, spelling (.obj members) = '\x7b' :: (inner ++ ['\x7d']) := by
  have hend : ∀ members : List (String × Json),
      ∃ inner, spellingOfMembers members = inner ++ ['\x7d'] := by
    intro members
    induction members with
    | nil => exact ⟨[], rfl⟩
    | cons member members ih =>
        obtain ⟨inner, hinner⟩ := ih
        refine ⟨',' :: (quote member.1 ++ ':' :: (spelling member.2 ++ inner)), ?_⟩
        rw [spellingOfMembers, hinner]
        simp
  cases members with
  | nil => exact ⟨[], rfl⟩
  | cons member members =>
      obtain ⟨inner, hinner⟩ := hend members
      refine ⟨quote member.1 ++ ':' :: (spelling member.2 ++ inner), ?_⟩
      rw [spelling, hinner]
      simp

/-- The character is none of the controls below the space. -/
def isPrintable (c : Char) : Bool := 0x20 ≤ c.toNat

/-- Every character is escaped by printable ones. -/
theorem escape_printable (c : Char) : (escape c).all isPrintable = true := by
  have hdigit : ∀ n < 16, isPrintable (Hex.digit n) = true := by decide
  unfold escape
  split
  case h_8 =>
    split
    · rename_i hsmall
      have hhigh := hdigit (c.toNat / 16) (by omega)
      have hlow := hdigit (c.toNat % 16) (by omega)
      simp only [List.all_cons, List.all_nil, hhigh, hlow]
      rfl
    · rename_i hlarge
      rw [List.all_cons, List.all_nil, Bool.and_true]
      exact decide_eq_true (Nat.le_of_not_lt hlarge)
  all_goals rfl

/-- What stands between quotes is printable, whatever the text is. -/
theorem quote_printable (s : String) : (quote s).all isPrintable = true := by
  have hinside : (s.toList.flatMap escape).all isPrintable = true := by
    rw [List.all_flatMap, List.all_eq_true]
    exact fun c _ => escape_printable c
  rw [quote, List.cons_append, List.all_cons, List.all_append, hinside]
  rfl

/-- Digits and a sign are printable. -/
theorem int_printable (i : Int) : (toString i).toList.all isPrintable = true := by
  have hdigits : ∀ n, (Nat.toDigits 10 n).all isPrintable = true := by
    intro n
    rw [List.all_eq_true]
    intro c hmem
    have hdigit := Decimal.isDigit_of_mem hmem
    simp only [Char.isDigit, Bool.and_eq_true, decide_eq_true_eq, ge_iff_le,
      UInt32.le_iff_toNat_le] at hdigit
    exact decide_eq_true (Nat.le_trans (by decide) hdigit.1)
  rcases Int.lt_or_le i 0 with hneg | hpos
  · rw [Decimal.toList_toString_of_neg hneg, List.all_cons, hdigits]
    rfl
  · rw [Decimal.toList_toString_of_nonneg hpos, hdigits]

mutual

/-- **The text of a plain value is printable**, so it keeps to one line. -/
theorem spelling_printable : ∀ {j : Json}, j.Plain → (spelling j).all isPrintable = true
  | null, _ | bool true, _ | bool false, _ | arr [], _ | obj [], _ => rfl
  | int n, _ => by
      rw [spelling]
      exact int_printable n
  | str s, _ => by
      rw [spelling]
      exact quote_printable s
  | arr (item :: items), hplain => by
      rw [Plain, PlainItems] at hplain
      rw [spelling, List.all_cons, List.all_append, spelling_printable hplain.1,
        spellingOfItems_printable hplain.2]
      rfl
  | obj ((name, value) :: members), hplain => by
      rw [Plain, PlainMembers] at hplain
      rw [spelling, List.all_cons, List.all_append, quote_printable, List.all_cons,
        List.all_append, spelling_printable hplain.1, spellingOfMembers_printable hplain.2]
      rfl

theorem spellingOfItems_printable : ∀ {items : List Json}, PlainItems items →
    (spellingOfItems items).all isPrintable = true
  | [], _ => rfl
  | item :: items, hplain => by
      rw [PlainItems] at hplain
      rw [spellingOfItems, List.all_cons, List.all_append, spelling_printable hplain.1,
        spellingOfItems_printable hplain.2]
      rfl

theorem spellingOfMembers_printable : ∀ {members : List (String × Json)}, PlainMembers members →
    (spellingOfMembers members).all isPrintable = true
  | [], _ => rfl
  | (name, value) :: members, hplain => by
      rw [PlainMembers] at hplain
      rw [spellingOfMembers, List.all_cons, List.all_append, quote_printable, List.all_cons,
        List.all_append, spelling_printable hplain.1, spellingOfMembers_printable hplain.2]
      rfl

end

end SatWire.Json
