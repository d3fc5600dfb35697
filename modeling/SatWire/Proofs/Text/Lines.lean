import SatWire.Proofs.Text.Utf8
import SatWire.Text.Lines

/-!
# Lines that are put together and taken apart

A text that has no line feed in it has none in its octets, so texts that are written one to a line are
the lines of what is written (`lines_joined`).  Lines are taken out of an octet string together with
the line feeds that end them (`without`), and what is left has the other lines (`lines_without`).
-/

namespace SatWire.Text

/-! ### Blanks -/

section Blanks

variable {chars front rest : List Char} {c : Char}

/-- A text that neither begins nor ends with a blank loses nothing. -/
theorem trim_eq (hfirst : ∀ c ∈ chars.head?, isBlank c = false)
    (hlast : ∀ c ∈ chars.getLast?, isBlank c = false) : trim chars = chars := by
  have hkept : ∀ {chars : List Char}, (∀ c ∈ chars.head?, isBlank c = false) →
      chars.dropWhile isBlank = chars := by
    intro chars hhead
    cases chars with
    | nil => rfl
    | cons c chars => exact List.dropWhile_cons_of_neg (by simp [hhead c rfl])
  have hend : ∀ c ∈ chars.reverse.head?, isBlank c = false := by
    rw [List.head?_reverse]
    exact hlast
  rw [trim, trimRight, hkept hfirst, hkept hend, List.reverse_reverse]

/-- Where nothing is blank there is nothing to trim. -/
theorem trim_of_clean (hclean : ∀ c ∈ chars, isBlank c = false) : trim chars = chars :=
  trim_eq (fun c hc => hclean c (List.mem_of_mem_head? hc))
    fun c hc => hclean c (List.mem_of_getLast? hc)

/-- A text is split at its first blank. -/
theorem splitBlank?_append (hclean : ∀ c ∈ front, isBlank c = false) (hblank : isBlank c = true) :
    splitBlank? (front ++ c :: rest) = some (front, rest) := by
  have hfront : ∀ d ∈ front, (!isBlank d) = true := fun d hmem => congrArg not (hclean d hmem)
  rw [splitBlank?, List.dropWhile_append_of_pos hfront, List.takeWhile_append_of_pos hfront,
    List.dropWhile_cons, List.takeWhile_cons, hblank]
  exact congrArg (fun front => some (front, rest)) (List.append_nil front)

end Blanks

/-! ### Line feeds -/

/-- Past the characters of one octet, no octet of a character is below 80. -/
theorem le_of_mem_utf8EncodeChar {c : Char} (hlarge : 0x7F < c.toNat) :
    ∀ octet ∈ String.utf8EncodeChar c, 0x80 ≤ octet.toNat := by
  have htails : ∀ count : Nat, ∀ octet ∈ Utf8.tails count c.toNat, 0x80 ≤ octet.toNat := by
    intro count
    induction count with
    | zero => exact fun octet hmem => absurd hmem List.not_mem_nil
    | succ count ih =>
        refine List.forall_mem_cons.mpr ⟨?_, ih⟩
        rw [Utf8.toNat_tail]
        exact Nat.le_add_left _ _
  obtain ⟨lead, l, hleads, hoctets⟩ := Utf8.exists_leads hlarge
  have hlead := Utf8.le_of_lead? hleads.lead
  rw [hoctets]
  exact List.forall_mem_cons.mpr ⟨by omega, htails (l.more + 1)⟩

/-- The octets of a text without line feeds have no line feed among them. -/
theorem lineFeed_not_mem {text : String} (h : '\n' ∉ text.toList) :
    (0x0A : UInt8) ∉ Utf8.encode text := by
  intro hmem
  obtain ⟨c, hc, hoctet⟩ := List.mem_flatMap.mp hmem
  rcases Nat.lt_or_ge 0x7F c.toNat with hlarge | hsmall
  · exact absurd (le_of_mem_utf8EncodeChar hlarge _ hoctet) (by decide)
  · rw [Utf8.utf8EncodeChar_one hsmall, List.mem_singleton] at hoctet
    have hten : c.toNat = 10 := by
      have hnat : 10 = c.toNat % 256 := by
        have hsame := congrArg UInt8.toNat hoctet
        rwa [UInt8.toNat_ofNat'] at hsame
      omega
    have hfeed : c = '\n' := by
      rw [← Char.ofNat_toNat c, hten]
    exact h (hfeed ▸ hc)

/-! ### Lines -/

/-- Lines that are done stay in front. -/
theorem linesFrom_eq (done : List Bytes) (line octets : Bytes) :
    linesFrom done line octets = done.reverse ++ linesFrom [] line octets := by
  induction octets generalizing done line with
  | nil =>
      rw [linesFrom, linesFrom]
      cases line <;> simp
  | cons octet rest ih =>
      rw [linesFrom, linesFrom]
      split
      · rw [ih, ih [line.reverse]]
        simp
      · exact ih done (octet :: line)

/-- A line feed ends the line. -/
theorem linesFrom_feed (line rest : Bytes) :
    linesFrom [] line (0x0A :: rest) = line.reverse :: lines rest := by
  rw [linesFrom, if_pos rfl, linesFrom_eq]
  rfl

/-- A line ends at the first line feed. -/
theorem linesFrom_append {octets : Bytes} (hfree : 0x0A ∉ octets) (line rest : Bytes) :
    linesFrom [] line (octets ++ 0x0A :: rest) = (line.reverse ++ octets) :: lines rest := by
  induction octets generalizing line with
  | nil => rw [List.nil_append, linesFrom_feed, List.append_nil]
  | cons octet octets ih =>
      obtain ⟨hfirst, hothers⟩ := not_or.mp (mt List.mem_cons.mpr hfree)
      rw [List.cons_append, linesFrom, if_neg (Ne.symm hfirst), ih hothers, List.reverse_cons,
        List.append_assoc, List.singleton_append]

/-- **What is written one to a line is read line by line.** -/
theorem lines_joined {texts : List Bytes} (hfree : ∀ text ∈ texts, 0x0A ∉ text) :
    lines (texts.flatMap (· ++ [0x0A])) = texts := by
  induction texts with
  | nil => rfl
  | cons text texts ih =>
      obtain ⟨hfirst, hothers⟩ := List.forall_mem_cons.mp hfree
      rw [List.flatMap_cons, List.append_assoc, List.singleton_append, lines,
        linesFrom_append hfirst, ih hothers]
      rfl

/-! ### Lines taken out -/

section Without

variable {α β : Type} (dropped : Nat → Bool)

/-- The items that are not dropped, by their numbers from `number` on. -/
def keptFrom (number : Nat) : List α → List α
  | [] => []
  | a :: as =>
    if dropped number then keptFrom (number + 1) as else a :: keptFrom (number + 1) as

/-- Octets without those of the lines that are dropped, by their numbers from `number` on.  The line
feed that ends a line belongs to it. -/
def withoutFrom (number : Nat) : Bytes → Bytes
  | [] => []
  | octet :: rest =>
    let left := withoutFrom (if octet = 0x0A then number + 1 else number) rest
    if dropped number then left else octet :: left

/-- Octets without those of the lines that are dropped, by their numbers. -/
def without (octets : Bytes) : Bytes :=
  withoutFrom dropped 1 octets

/-- From inside a line that is kept, or dropped with the octets of it that went before. -/
theorem linesFrom_withoutFrom (number : Nat) (line octets : Bytes) :
    linesFrom [] (if dropped number then [] else line) (withoutFrom dropped number octets)
      = keptFrom dropped number (linesFrom [] line octets) := by
  induction octets generalizing number line with
  | nil =>
      rw [withoutFrom, linesFrom, linesFrom]
      cases line <;> cases hdropped : dropped number <;> simp [keptFrom, hdropped]
  | cons octet rest ih =>
      rw [withoutFrom]
      by_cases hfeed : octet = 0x0A
      · have hothers := ih (number + 1) []
        rw [ite_self] at hothers
        rw [if_pos hfeed, hfeed, linesFrom_feed, keptFrom, lines, ← hothers]
        cases dropped number with
        | true => rfl
        | false => exact linesFrom_feed line _
      · have hothers := ih number (octet :: line)
        rw [if_neg hfeed, linesFrom, if_neg hfeed, ← hothers]
        cases dropped number with
        | true => rfl
        | false => exact if_neg hfeed

/-- **Without some of its lines, an octet string has the others.** -/
theorem lines_without (octets : Bytes) :
    lines (without dropped octets) = keptFrom dropped 1 (lines octets) := by
  have hlines := linesFrom_withoutFrom dropped 1 [] octets
  rw [ite_self] at hlines
  exact hlines

variable {dropped}

/-- What is kept is told by the numbers, not by what the lines hold. -/
theorem keptFrom_map (f : α → β) (number : Nat) (as : List α) :
    keptFrom dropped number (as.map f) = (keptFrom dropped number as).map f := by
  induction as generalizing number with
  | nil => rfl
  | cons a as ih =>
      rw [List.map_cons, keptFrom, keptFrom, ih]
      split <;> rfl

end Without

end SatWire.Text
