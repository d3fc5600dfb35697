import SatWire.Json.Token
import SatWire.Proofs.Json.Spelling

/-!
# The words of a written text

A written text is cut back into the words it was written with (`tokens_spelling`).  Every word tells
its own end, with one exception: a number goes on as long as digits follow, so what stands behind a
number matters.  Behind a value there is a comma, the end of the value around it, or nothing, and none
of these carries a number on (`Ended`).

The words also tell how deep a text nests, without being read: as many containers as stand open at once
(`nesting_render`).
-/

namespace SatWire.Json

/-! ### One word at a time -/

/-- A space is passed over, and anything else starts a word. -/
theorem tokensOnto_cons (done : List Token) (c : Char) (rest : List Char) :
    tokensOnto done (c :: rest) =
      if isSpace c then tokensOnto done rest
      else tokensOnto ((tokenAt c rest).1 :: done) (tokenAt c rest).2 := by
  rw [tokensOnto]

/-- The words read before do not matter for those that follow. -/
theorem tokensOnto_eq (done : List Token) (chars : List Char) :
    tokensOnto done chars = done.reverse ++ tokens chars := by
  -- A word takes several characters at once, so the induction is on how many are left.
  induction hsize : chars.length using Nat.strongRecOn generalizing done chars with
  | ind size ih =>
      cases chars with
      | nil => simp [tokens, tokensOnto]
      | cons c rest =>
          have hshort : rest.length < size := hsize ▸ Nat.lt_succ_self _
          rw [tokens, tokensOnto_cons, tokensOnto_cons]
          by_cases hspace : isSpace c = true
          · rw [if_pos hspace, if_pos hspace, ih _ hshort done _ rfl, ih _ hshort [] _ rfl]
            rfl
          · have hnext := length_tokenAt c rest
            rw [if_neg hspace, if_neg hspace, ih _ (by omega) (_ :: done) _ rfl,
              ih _ (by omega) [_] _ rfl]
            simp

theorem tokens_nil : tokens [] = [] := by
  rw [tokens, tokensOnto]
  rfl

/-- A word that starts with a character stands in front of those behind it. -/
theorem tokens_cons {c : Char} {rest next : List Char} {token : Token} (hspace : isSpace c = false)
    (htoken : tokenAt c rest = (token, next)) : tokens (c :: rest) = token :: tokens next := by
  rw [tokens, tokensOnto_cons, hspace, htoken, if_neg Bool.false_ne_true, tokensOnto_eq]
  rfl

/-- A mark is a word of one character. -/
theorem tokens_mark (c : Char) (token : Token) (hspace : isSpace c = false)
    (hmark : ∀ rest, tokenAt c rest = (token, rest)) (rest : List Char) :
    tokens (c :: rest) = token :: tokens rest :=
  tokens_cons hspace (hmark rest)

/-! ### Texts -/

/-- The four digits of a control spell its number. -/
theorem codeUnit?_control : ∀ n < 0x20,
    codeUnit? '0' '0' (Hex.digit (n / 16)) (Hex.digit (n % 16)) = some n := by
  decide

/-- What a character is escaped by is read as that character. -/
theorem scanText_escape (read rest : List Char) (c : Char) :
    scanText read none true (escape c ++ rest) = scanText (c :: read) none true rest := by
  unfold escape
  split
  case h_8 _ hquote hbackslash _ _ _ _ _ =>
    split
    · rename_i hsmall
      have hlead : isLead c.toNat = false := by
        simp only [isLead, Bool.and_eq_false_iff, decide_eq_false_iff_not]
        omega
      have htrail : isTrail c.toNat = false := by
        simp only [isTrail, Bool.and_eq_false_iff, decide_eq_false_iff_not]
        omega
      rw [List.cons_append, scanText.eq_def]
      simp [codeUnit?_control c.toNat hsmall, hlead, htrail, Char.ofNat_toNat]
    · rename_i hlarge
      rw [List.singleton_append, scanText.eq_def]
      dsimp only
      rw [if_neg hquote, if_neg hbackslash, if_neg hlarge]
      rfl
  all_goals
    rw [List.cons_append, scanText.eq_def]
    simp [escaped?]

/-- An escaped text is scanned as what it was before, up to its quote. -/
theorem scanText_quoted (read rest chars : List Char) :
    scanText read none true (chars.flatMap escape ++ '"' :: rest)
      = .text (read.reverse ++ chars) rest := by
  induction chars generalizing read with
  | nil =>
      rw [List.flatMap_nil, List.nil_append, scanText.eq_def]
      simp
  | cons c chars ih =>
      rw [List.flatMap_cons, List.append_assoc, scanText_escape, ih]
      simp

/-- **A text between quotes is one word.** -/
theorem tokens_quote (s : String) (rest : List Char) :
    tokens (quote s ++ rest) = .str s :: tokens rest := by
  have hscan := scanText_quoted [] rest s.toList
  have htoken : tokenAt '"' (s.toList.flatMap escape ++ '"' :: rest) = (.str s, rest) := by
    simp only [tokenAt, hscan, List.reverse_nil, List.nil_append, String.ofList_toList]
  have hsplit : quote s ++ rest = '"' :: (s.toList.flatMap escape ++ '"' :: rest) := by
    simp [quote]
  rw [hsplit, tokens_cons rfl htoken]

/-! ### Numbers -/

/-- The characters that may stand behind a value: a comma, or the end of what is around it. -/
def Ended (rest : List Char) : Prop :=
  ∀ c, rest.head? = some c → c = ',' ∨ c = ']' ∨ c = '\x7d'

theorem ended_nil : Ended [] :=
  fun _ hhead => nomatch hhead

/-- So does a comma, and the end of what is around it. -/
theorem ended_cons {c : Char} {rest : List Char} (hc : c = ',' ∨ c = ']' ∨ c = '\x7d') :
    Ended (c :: rest) :=
  fun _ hhead => Option.some.inj hhead ▸ hc

variable {rest : List Char}

/-- What stands behind a value carries no number on. -/
theorem Ended.number (hended : Ended rest) :
    spanDigits rest = ([], rest) ∧ scanFraction rest = some ([], rest)
      ∧ scanExponent rest = some ([], rest) := by
  cases rest with
  | nil => exact ⟨rfl, rfl, rfl⟩
  | cons c rest =>
      rcases hended c rfl with rfl | rfl | rfl
      all_goals exact ⟨rfl, rfl, rfl⟩

/-- The digits of a number are all that is taken for it. -/
theorem spanDigits_toDigits (n : Nat) (hended : Ended rest) :
    spanDigits (Nat.toDigits 10 n ++ rest) = (Nat.toDigits 10 n, rest) := by
  have hdigits : ∀ c ∈ Nat.toDigits 10 n, c.isDigit = true := fun c => Decimal.isDigit_of_mem
  have hbehind := hended.number.1
  rw [spanDigits, Prod.mk.injEq] at hbehind
  rw [spanDigits, List.takeWhile_append_of_pos hdigits, List.dropWhile_append_of_pos hdigits,
    hbehind.1, hbehind.2, List.append_nil]

/-- Digits are scanned as the number that they spell, with its sign. -/
theorem scanNumber_toDigits (negative : Bool) {n : Nat} (hended : Ended rest)
    (hsign : negative = true → n ≠ 0) :
    scanNumber negative (Nat.toDigits 10 n ++ rest)
      = (.int (if negative then -(n : Int) else n), rest) := by
  obtain ⟨-, hfraction, hexponent⟩ := hended.number
  obtain ⟨first, more, hdigits⟩ := List.exists_cons_of_ne_nil (Nat.toDigits_ne_nil (b := 10) (n := n))
  have hspan := spanDigits_toDigits n hended
  have hvalue : natOfDigits (first :: more) = n := hdigits ▸ Decimal.foldl_toDigits n
  have hzero : ¬ (first = '0' ∧ more ≠ []) := by
    intro hboth
    obtain ⟨second, others, rfl⟩ := List.exists_cons_of_ne_nil hboth.2
    exact Decimal.ne_zero_of_toDigits hdigits hboth.1
  have hwhole : (!(negative && n == 0)) = true := by
    cases negative with
    | false => rfl
    | true => simp [hsign rfl]
  rw [hdigits] at hspan ⊢
  simp only [scanNumber, hspan, if_neg hzero, hfraction, hexponent, hvalue, hwhole,
    List.isEmpty_nil, Bool.and_true, if_true]

/-- A digit starts a number. -/
theorem tokenAt_digit {c : Char} (hdigit : c.isDigit = true) (rest : List Char) :
    tokenAt c rest = scanNumber false (c :: rest) ∧ isSpace c = false := by
  have hother : ∀ d : Char, d.isDigit = false → c ≠ d := by
    intro d hd hsame
    rw [← hsame, hdigit] at hd
    cases hd
  constructor
  · unfold tokenAt
    split
    case h_12 => exact if_pos hdigit
    all_goals exact absurd rfl (hother _ rfl)
  · have hblank : isSpace c = true → False := by
      intro hspace
      simp only [isSpace, Bool.or_eq_true, beq_iff_eq] at hspace
      rcases hspace with ((hsame | hsame) | hsame) | hsame
      all_goals exact hother _ rfl hsame
    exact Bool.eq_false_iff.mpr hblank

/-- **A whole number is one word**, if what stands behind it does not carry it on. -/
theorem tokens_int (i : Int) (hended : Ended rest) :
    tokens ((toString i).toList ++ rest) = .int i :: tokens rest := by
  rcases Int.lt_or_le i 0 with hneg | hpos
  · have hsome : Nat.toDigits 10 (-i).toNat ++ rest ≠ [] :=
      List.append_ne_nil_of_left_ne_nil Nat.toDigits_ne_nil rest
    have hscan := scanNumber_toDigits true (n := (-i).toNat) hended (by omega)
    have hvalue : -((-i).toNat : Int) = i := by omega
    rw [if_pos rfl, hvalue] at hscan
    have htoken : tokenAt '-' (Nat.toDigits 10 (-i).toNat ++ rest) = (.int i, rest) := by
      simp only [tokenAt, List.isEmpty_eq_false_iff.mpr hsome, hscan, Bool.false_eq_true, if_false]
    rw [Decimal.toList_toString_of_neg hneg, List.cons_append, tokens_cons rfl htoken]
  · have hscan := scanNumber_toDigits false (n := i.toNat) hended (by simp)
    have hvalue : (i.toNat : Int) = i := Int.toNat_of_nonneg hpos
    rw [if_neg Bool.false_ne_true, hvalue] at hscan
    rw [Decimal.toList_toString_of_nonneg hpos]
    obtain ⟨first, more, hdigits⟩ :=
      List.exists_cons_of_ne_nil (Nat.toDigits_ne_nil (b := 10) (n := i.toNat))
    have hfirst : first.isDigit = true :=
      Decimal.isDigit_of_mem (n := i.toNat) (hdigits ▸ List.mem_cons_self)
    rw [hdigits, List.cons_append] at hscan ⊢
    obtain ⟨htoken, hspace⟩ := tokenAt_digit hfirst (more ++ rest)
    exact tokens_cons hspace (htoken.trans hscan)

/-! ### Whole values -/

mutual

/-- The words of a value. -/
def words : Json → List Token
  | null => [.null]
  | bool b => [.bool b]
  | int n => [.int n]
  | decimal digits => [.decimal digits]
  | str s => [.str s]
  | arr [] => [.openArray, .closeArray]
  | arr (item :: items) => .openArray :: (words item ++ wordsOfItems items)
  | obj [] => [.openObject, .closeObject]
  | obj ((name, value) :: members) =>
    .openObject :: .str name :: .colon :: (words value ++ wordsOfMembers members)
  | unpaired | unnamed _ | buried _ | unreadable => []

/-- The words of the items after the first, and the end of their array. -/
def wordsOfItems : List Json → List Token
  | [] => [.closeArray]
  | item :: items => .comma :: (words item ++ wordsOfItems items)

/-- The words of the members after the first, and the end of their object. -/
def wordsOfMembers : List (String × Json) → List Token
  | [] => [.closeObject]
  | (name, value) :: members =>
    .comma :: .str name :: .colon :: (words value ++ wordsOfMembers members)

end

/-- What follows an item ends it. -/
theorem ended_items (items : List Json) (rest : List Char) : Ended (spellingOfItems items ++ rest) := by
  cases items with
  | nil => exact ended_cons (Or.inr (Or.inl rfl))
  | cons item items => exact ended_cons (Or.inl rfl)

/-- What follows a member ends it. -/
theorem ended_members (members : List (String × Json)) (rest : List Char) :
    Ended (spellingOfMembers members ++ rest) := by
  cases members with
  | nil => exact ended_cons (Or.inr (Or.inr rfl))
  | cons member members => exact ended_cons (Or.inl rfl)

mutual

/-- **The text of a plain value is cut into its words.** -/
theorem tokens_spelling : ∀ {j : Json} {rest : List Char}, j.Plain → Ended rest →
    tokens (spelling j ++ rest) = words j ++ tokens rest
  | null, rest, _, _ | bool true, rest, _, _ | bool false, rest, _, _ => tokens_cons rfl rfl
  | int n, rest, _, hended => by
      rw [spelling, tokens_int n hended]
      rfl
  | str s, rest, _, _ => by
      rw [spelling, tokens_quote]
      rfl
  | arr [], rest, _, _ => by
      have hclose := tokens_mark ']' .closeArray rfl (fun _ => rfl) rest
      rw [spelling, List.cons_append, tokens_mark '[' .openArray rfl fun _ => rfl]
      exact congrArg _ hclose
  | arr (item :: items), rest, hplain, hended => by
      rw [Plain, PlainItems] at hplain
      rw [spelling, List.cons_append, tokens_mark '[' .openArray rfl fun _ => rfl, List.append_assoc,
        tokens_spelling hplain.1 (ended_items items rest), tokens_spellingOfItems hplain.2 hended]
      simp [words]
  | obj [], rest, _, _ => by
      have hclose := tokens_mark '\x7d' .closeObject rfl (fun _ => rfl) rest
      rw [spelling, List.cons_append, tokens_mark '\x7b' .openObject rfl fun _ => rfl]
      exact congrArg _ hclose
  | obj ((name, value) :: members), rest, hplain, hended => by
      rw [Plain, PlainMembers] at hplain
      rw [spelling, List.cons_append, tokens_mark '\x7b' .openObject rfl fun _ => rfl,
        List.append_assoc, tokens_quote, List.cons_append,
        tokens_mark ':' .colon rfl fun _ => rfl, List.append_assoc,
        tokens_spelling hplain.1 (ended_members members rest),
        tokens_spellingOfMembers hplain.2 hended]
      simp [words]

/-- So it is for items, each behind a comma. -/
theorem tokens_spellingOfItems : ∀ {items : List Json} {rest : List Char}, PlainItems items →
    Ended rest → tokens (spellingOfItems items ++ rest) = wordsOfItems items ++ tokens rest
  | [], rest, _, _ => tokens_mark ']' .closeArray rfl (fun _ => rfl) rest
  | item :: items, rest, hplain, hended => by
      rw [PlainItems] at hplain
      rw [spellingOfItems, List.cons_append, tokens_mark ',' .comma rfl fun _ => rfl, List.append_assoc,
        tokens_spelling hplain.1 (ended_items items rest), tokens_spellingOfItems hplain.2 hended]
      simp [wordsOfItems]

/-- So it is for members, each behind a comma. -/
theorem tokens_spellingOfMembers : ∀ {members : List (String × Json)} {rest : List Char},
    PlainMembers members → Ended rest →
    tokens (spellingOfMembers members ++ rest) = wordsOfMembers members ++ tokens rest
  | [], rest, _, _ => tokens_mark '\x7d' .closeObject rfl (fun _ => rfl) rest
  | (name, value) :: members, rest, hplain, hended => by
      rw [PlainMembers] at hplain
      rw [spellingOfMembers, List.cons_append, tokens_mark ',' .comma rfl fun _ => rfl,
        List.append_assoc, tokens_quote, List.cons_append,
        tokens_mark ':' .colon rfl fun _ => rfl, List.append_assoc,
        tokens_spelling hplain.1 (ended_members members rest),
        tokens_spellingOfMembers hplain.2 hended]
      simp [wordsOfMembers]

end

/-- **A written text is cut back into its words.** -/
theorem tokens_render {j : Json} (hplain : j.Plain) : tokens j.render.toList = words j := by
  have hwords := tokens_spelling hplain ended_nil
  rw [List.append_nil] at hwords
  rw [toList_render, hwords, tokens_nil, List.append_nil]

/-! ### How deep a text nests -/

/-- The most containers that stand open at once while words go by, with `inside` of them open
before. -/
def mostOpen (inside : Nat) : List Token → Nat
  | [] => inside
  | .openArray :: rest | .openObject :: rest => mostOpen (inside + 1) rest
  | .closeArray :: rest | .closeObject :: rest => max inside (mostOpen (inside - 1) rest)
  | _ :: rest => mostOpen inside rest

/-- How many arrays and objects a text nests. -/
def nesting (text : String) : Nat :=
  mostOpen 0 (tokens text.toList)

/-- What is open before stays open at first. -/
theorem le_mostOpen (inside : Nat) (rest : List Token) : inside ≤ mostOpen inside rest := by
  induction rest generalizing inside with
  | nil => exact Nat.le_refl inside
  | cons token rest ih =>
      have hinside := ih inside
      have hdeeper := ih (inside + 1)
      cases token
      case openArray | openObject =>
        rw [mostOpen]
        omega
      case closeArray | closeObject =>
        rw [mostOpen]
        exact Nat.le_max_left _ _
      all_goals exact hinside

mutual

/-- The words of a value open as many containers as the value is deep, and close them all. -/
theorem mostOpen_words : ∀ {j : Json} (inside : Nat) (rest : List Token), j.Plain →
    mostOpen inside (words j ++ rest) = max (inside + j.depth) (mostOpen inside rest)
  | null, inside, rest, _ | bool _, inside, rest, _ | int _, inside, rest, _
  | str _, inside, rest, _ => (Nat.max_eq_right (le_mostOpen inside rest)).symm
  | arr [], inside, rest, _ | obj [], inside, rest, _ => by
      simp only [words, List.cons_append, List.nil_append, mostOpen, depth, depthOfItems,
        depthOfMembers, Nat.add_sub_cancel, Nat.zero_add]
  | arr (item :: items), inside, rest, hplain => by
      rw [Plain, PlainItems] at hplain
      simp only [words, List.cons_append, List.append_assoc, mostOpen, depth, depthOfItems]
      rw [mostOpen_words _ _ hplain.1, mostOpen_wordsOfItems _ _ hplain.2]
      omega
  | obj ((name, value) :: members), inside, rest, hplain => by
      rw [Plain, PlainMembers] at hplain
      simp only [words, List.cons_append, List.append_assoc, mostOpen, depth, depthOfMembers]
      rw [mostOpen_words _ _ hplain.1, mostOpen_wordsOfMembers _ _ hplain.2]
      omega

/-- Further items open no more than the deepest of them. -/
theorem mostOpen_wordsOfItems : ∀ {items : List Json} (inside : Nat) (rest : List Token),
    PlainItems items → mostOpen (inside + 1) (wordsOfItems items ++ rest)
      = max (inside + 1 + depthOfItems items) (mostOpen inside rest)
  | [], inside, rest, _ => rfl
  | item :: items, inside, rest, hplain => by
      rw [PlainItems] at hplain
      simp only [wordsOfItems, List.cons_append, List.append_assoc, mostOpen, depthOfItems]
      rw [mostOpen_words _ _ hplain.1, mostOpen_wordsOfItems _ _ hplain.2]
      omega

theorem mostOpen_wordsOfMembers : ∀ {members : List (String × Json)} (inside : Nat)
    (rest : List Token), PlainMembers members →
    mostOpen (inside + 1) (wordsOfMembers members ++ rest)
      = max (inside + 1 + depthOfMembers members) (mostOpen inside rest)
  | [], inside, rest, _ => rfl
  | (name, value) :: members, inside, rest, hplain => by
      rw [PlainMembers] at hplain
      simp only [wordsOfMembers, List.cons_append, List.append_assoc, mostOpen, depthOfMembers]
      rw [mostOpen_words _ _ hplain.1, mostOpen_wordsOfMembers _ _ hplain.2]
      omega

end

/-- **The text of a plain value nests as deep as the value.** -/
theorem nesting_render {j : Json} (hplain : j.Plain) : nesting j.render = j.depth := by
  have hmost := mostOpen_words 0 [] hplain
  rw [List.append_nil, ← tokens_render hplain] at hmost
  rw [nesting, hmost, mostOpen, Nat.zero_add]
  exact Nat.max_eq_left (Nat.zero_le _)

end SatWire.Json
