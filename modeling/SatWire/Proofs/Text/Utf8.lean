import Mathlib.Tactic.Common
import SatWire.Text.Utf8

/-!
# UTF-8 read and written

A text is read back from its octets, and octets that are read as a text are the octets of that text:
overlong forms, surrogates and numbers past the last code point are refused, so no text has a second
spelling.

Both directions go through the sequences of more than one octet.  Such a sequence is a lead octet
and the code point's last digits to the base 64, each in a tail octet; `readFrom_tails` and
`tails_of_readFrom` say that the machine reads these digits and nothing else.
-/

namespace SatWire.Utf8

/-- A code point without its last `count` digits to the base 64. -/
def above : (count : Nat) → Nat → Nat
  | 0, point => point
  | count + 1, point => above count point / 64

/-- The tail octets that hold the last `count` digits of a code point. -/
def tails : (count : Nat) → Nat → Bytes
  | 0, _ => []
  | count + 1, point => UInt8.ofNat (above count point % 64 + 0x80) :: tails count point

/-- Each digit has its tail octet. -/
@[simp] theorem length_tails (count point : Nat) : (tails count point).length = count := by
  induction count with
  | zero => rfl
  | succ count ih => simp [tails, ih]

/-- The number in a tail octet. -/
theorem toNat_tail (digit : Nat) : (UInt8.ofNat (digit % 64 + 0x80)).toNat = digit % 64 + 0x80 := by
  rw [UInt8.toNat_ofNat']
  omega

/-- A tail octet adds its digit to the digits before it. -/
theorem extend_tail (count point : Nat) :
    extend (above (count + 1) point) (UInt8.ofNat (above count point % 64 + 0x80))
      = above count point := by
  have htail := toNat_tail (above count point)
  have habove : above (count + 1) point = above count point / 64 := rfl
  unfold extend
  omega

/-- An octet in the range of tail octets holds a digit. -/
theorem eq_tail {octet : UInt8} {share : Nat} (hlow : 0x80 ≤ octet.toNat)
    (hhigh : octet.toNat ≤ 0xBF) :
    octet = UInt8.ofNat (extend share octet % 64 + 0x80) := by
  apply UInt8.toNat_inj.mp
  rw [toNat_tail]
  unfold extend
  omega

section Tails

variable (index : Nat) (chars : List Char)

/-- A sequence whose octets so far hold all digits but the last ones, and whose next octet may be
the first of the tail octets, ends in its code point. -/
theorem readFrom_tails (count point : Nat) (o : Open) (rest : Bytes) (hmore : o.more = count)
    (hshare : o.share = above (count + 1) point)
    (hlow : o.low.toNat ≤ above count point % 64 + 0x80)
    (hhigh : above count point % 64 + 0x80 ≤ o.high.toNat) :
    readFrom index chars (some o) (tails (count + 1) point ++ rest)
      = readFrom (index + o.taken + (count + 1)) (Char.ofNat point :: chars) none rest := by
  induction count generalizing o with
  | zero =>
      have hin : o.low ≤ UInt8.ofNat (above 0 point % 64 + 0x80)
          ∧ UInt8.ofNat (above 0 point % 64 + 0x80) ≤ o.high := by
        simp only [UInt8.le_iff_toNat_le, toNat_tail]
        exact ⟨hlow, hhigh⟩
      have hpoint : extend o.share (UInt8.ofNat (above 0 point % 64 + 0x80)) = point := by
        rw [hshare, extend_tail, above]
      simp only [tails, List.cons_append, List.nil_append, readFrom, if_pos hin, hmore, hpoint]
  | succ count ih =>
      have hin : o.low ≤ UInt8.ofNat (above (count + 1) point % 64 + 0x80)
          ∧ UInt8.ofNat (above (count + 1) point % 64 + 0x80) ≤ o.high := by
        simp only [UInt8.le_iff_toNat_le, toNat_tail]
        exact ⟨hlow, hhigh⟩
      have hpoint : extend o.share (UInt8.ofNat (above (count + 1) point % 64 + 0x80))
          = above (count + 1) point := by
        rw [hshare, extend_tail]
      have hnext := ih ⟨above (count + 1) point, 0x80, 0xBF, count, o.taken + 1⟩ rfl rfl
        (Nat.le_add_left _ _) (by simp only [UInt8.reduceToNat]; omega)
      rw [tails, List.cons_append, readFrom, if_pos hin, hmore]
      simp only [hpoint, hnext]
      have hindex : index + (o.taken + 1) + (count + 1) = index + o.taken + (count + 1 + 1) := by
        omega
      rw [hindex]

/-- An open sequence that is read to its end holds the digits of its code point. -/
theorem tails_of_readFrom {count : Nat} {o : Open} {octets : Bytes} {text : List Char}
    (hmore : o.more = count) (hlow : 0x80 ≤ o.low.toNat) (hhigh : o.high.toNat ≤ 0xBF)
    (h : readFrom index chars (some o) octets = .ok text) :
    ∃ point rest, octets = tails (count + 1) point ++ rest
      ∧ above (count + 1) point = o.share
      ∧ o.low.toNat ≤ above count point % 64 + 0x80
      ∧ above count point % 64 + 0x80 ≤ o.high.toNat
      ∧ readFrom (index + o.taken + (count + 1)) (Char.ofNat point :: chars) none rest
          = .ok text := by
  cases octets with
  | nil => simp [readFrom] at h
  | cons octet rest =>
      rw [readFrom] at h
      split at h
      · rename_i hin
        simp only [UInt8.le_iff_toNat_le] at hin
        obtain ⟨hfrom, hto⟩ := hin
        have hdigit : octet = UInt8.ofNat (extend o.share octet % 64 + 0x80) :=
          eq_tail (by omega) (by omega)
        have hshare : extend o.share octet / 64 = o.share := by unfold extend; omega
        have hvalue : extend o.share octet % 64 + 0x80 = octet.toNat := by unfold extend; omega
        cases count with
        | zero =>
            simp only [hmore] at h
            refine ⟨extend o.share octet, rest, ?_, hshare, ?_, ?_, by simpa using h⟩
            · simpa [tails, above] using hdigit
            · simpa only [above, hvalue] using hfrom
            · simpa only [above, hvalue] using hto
        | succ count =>
            simp only [hmore] at h
            obtain ⟨point, last, hrest, habove, -, -, hread⟩ :=
              tails_of_readFrom (o := ⟨_, 0x80, 0xBF, count, _⟩) rfl (Nat.le_refl 0x80)
                (Nat.le_refl 0xBF) h
            simp only at habove hread
            refine ⟨point, last, ?_, ?_, ?_, ?_, ?_⟩
            · rw [tails, habove, ← hdigit, List.cons_append, hrest]
            · rw [above, habove, hshare]
            · rw [habove, hvalue]
              exact hfrom
            · rw [habove, hvalue]
              exact hto
            · have hindex : index + o.taken + (count + 1 + 1)
                  = index + (o.taken + 1) + (count + 1) := by omega
              rw [hindex, hread]
      · simp at h

end Tails

/-- The table of lead octets, by their numbers. -/
theorem lead?_eq (octet : UInt8) :
    lead? octet =
      if 0xC2 ≤ octet.toNat ∧ octet.toNat ≤ 0xDF then some ⟨octet.toNat - 0xC0, 0x80, 0xBF, 0⟩
      else if octet.toNat = 0xE0 then some ⟨0, 0xA0, 0xBF, 1⟩
      else if octet.toNat = 0xED then some ⟨0xD, 0x80, 0x9F, 1⟩
      else if 0xE1 ≤ octet.toNat ∧ octet.toNat ≤ 0xEF then some ⟨octet.toNat - 0xE0, 0x80, 0xBF, 1⟩
      else if octet.toNat = 0xF0 then some ⟨0, 0x90, 0xBF, 2⟩
      else if 0xF1 ≤ octet.toNat ∧ octet.toNat ≤ 0xF3 then some ⟨octet.toNat - 0xF0, 0x80, 0xBF, 2⟩
      else if octet.toNat = 0xF4 then some ⟨4, 0x80, 0x8F, 2⟩
      else none := by
  simp only [lead?, UInt8.le_iff_toNat_le, ← UInt8.toNat_inj, UInt8.reduceToNat]

section Char

variable {c : Char}

/-- Characters up to 0x7F are octets themselves. -/
theorem utf8EncodeChar_one (h : c.toNat ≤ 0x7F) :
    String.utf8EncodeChar c = [UInt8.ofNat c.toNat] := by
  have hval : c.val.toNat ≤ 0x7F := h
  rw [String.utf8EncodeChar, if_pos hval]
  rfl

/-- Characters up to 0x7FF take a lead octet and one digit. -/
theorem utf8EncodeChar_two (hlow : 0x7F < c.toNat) (hhigh : c.toNat ≤ 0x7FF) :
    String.utf8EncodeChar c = UInt8.ofNat (above 1 c.toNat + 0xC0) :: tails 1 c.toNat := by
  have hsmall : ¬ c.val.toNat ≤ 0x7F := Nat.not_le.mpr hlow
  have hval : c.val.toNat ≤ 0x7FF := hhigh
  have hlead : c.val.toNat / 64 % 32 = above 1 c.toNat := by
    change c.toNat / 64 % 32 = c.toNat / 64
    omega
  rw [String.utf8EncodeChar, if_neg hsmall, if_pos hval, hlead]
  rfl

/-- Characters up to 0xFFFF take a lead octet and two digits. -/
theorem utf8EncodeChar_three (hlow : 0x7FF < c.toNat) (hhigh : c.toNat ≤ 0xFFFF) :
    String.utf8EncodeChar c = UInt8.ofNat (above 2 c.toNat + 0xE0) :: tails 2 c.toNat := by
  have hsmall : ¬ c.val.toNat ≤ 0x7F := Nat.not_le.mpr (Nat.lt_trans (by decide) hlow)
  have hsmall' : ¬ c.val.toNat ≤ 0x7FF := Nat.not_le.mpr hlow
  have hval : c.val.toNat ≤ 0xFFFF := hhigh
  have hlead : c.val.toNat / 4096 % 16 = above 2 c.toNat := by
    change c.toNat / 4096 % 16 = c.toNat / 64 / 64
    omega
  rw [String.utf8EncodeChar, if_neg hsmall, if_neg hsmall', if_pos hval, hlead]
  rfl

/-- All others take a lead octet and three digits. -/
theorem utf8EncodeChar_four (hlow : 0xFFFF < c.toNat) :
    String.utf8EncodeChar c = UInt8.ofNat (above 3 c.toNat + 0xF0) :: tails 3 c.toNat := by
  have hsmall : ¬ c.val.toNat ≤ 0x7F := Nat.not_le.mpr (Nat.lt_trans (by decide) hlow)
  have hsmall' : ¬ c.val.toNat ≤ 0x7FF := Nat.not_le.mpr (Nat.lt_trans (by decide) hlow)
  have hsmall'' : ¬ c.val.toNat ≤ 0xFFFF := Nat.not_le.mpr hlow
  have hvalid : c.toNat < 0xD800 ∨ 0xDFFF < c.toNat ∧ c.toNat < 0x110000 := c.valid
  have hlead : c.val.toNat / 262144 % 8 = above 3 c.toNat := by
    change c.toNat / 262144 % 8 = c.toNat / 64 / 64 / 64
    omega
  have hmiddle : c.val.toNat / 4096 % 64 = above 2 c.toNat % 64 := by
    change c.toNat / 4096 % 64 = c.toNat / 64 / 64 % 64
    omega
  rw [String.utf8EncodeChar, if_neg hsmall, if_neg hsmall', if_neg hsmall'', hlead, hmiddle]
  rfl

end Char

/-- No lead octet is the octet of a character of its own. -/
theorem le_of_lead? {octet : UInt8} {l : Lead} (h : lead? octet = some l) : 0xC2 ≤ octet.toNat := by
  rw [lead?_eq] at h
  split_ifs at h <;> omega

/-- What a lead octet announces is a tail octet. -/
theorem range_of_lead? {octet : UInt8} {l : Lead} (h : lead? octet = some l) :
    0x80 ≤ l.low.toNat ∧ l.high.toNat ≤ 0xBF := by
  rw [lead?_eq] at h
  split_ifs at h
  all_goals
    simp only [Option.some.injEq] at h
    subst h
    simp

/-- A lead octet together with the tail octets of a code point that it may start. -/
structure Leads (octet : UInt8) (l : Lead) (point : Nat) : Prop where
  lead : lead? octet = some l
  share : l.share = above (l.more + 1) point
  low : l.low.toNat ≤ above l.more point % 64 + 0x80
  high : above l.more point % 64 + 0x80 ≤ l.high.toNat

/-- The machine opens a sequence at its lead octet. -/
theorem readFrom_lead {octet : UInt8} {l : Lead} (h : lead? octet = some l) (index : Nat)
    (chars : List Char) (rest : Bytes) :
    readFrom index chars none (octet :: rest)
      = readFrom index chars (some ⟨l.share, l.low, l.high, l.more, 1⟩) rest := by
  have hlarge : ¬ octet < 0x80 := by
    have hlead := le_of_lead? h
    simp only [UInt8.lt_iff_toNat_lt, UInt8.reduceToNat]
    omega
  rw [readFrom]
  simp only [if_neg hlarge, h]

section Starts

variable {c : Char}

/-- Of two octets, the lead octet rules out the overlong forms. -/
theorem leads_two (hlow : 0x7F < c.toNat) (hhigh : c.toNat ≤ 0x7FF) :
    Leads (UInt8.ofNat (above 1 c.toNat + 0xC0)) ⟨above 1 c.toNat, 0x80, 0xBF, 0⟩ c.toNat := by
  have hshare : above 1 c.toNat = c.toNat / 64 := rfl
  have hnat : (UInt8.ofNat (above 1 c.toNat + 0xC0)).toNat = above 1 c.toNat + 0xC0 := by
    rw [UInt8.toNat_ofNat']
    omega
  refine ⟨?_, rfl, Nat.le_add_left _ _, ?_⟩
  · rw [lead?_eq, hnat, if_pos (by omega), Nat.add_sub_cancel]
  · simp only [UInt8.reduceToNat]
    omega

/-- Of three octets, the lead octet rules out the overlong forms and the surrogates. -/
theorem exists_leads_three (hlow : 0x7FF < c.toNat) (hhigh : c.toNat ≤ 0xFFFF) :
    ∃ l, l.more = 1 ∧ Leads (UInt8.ofNat (above 2 c.toNat + 0xE0)) l c.toNat := by
  have hvalid : c.toNat < 0xD800 ∨ 0xDFFF < c.toNat ∧ c.toNat < 0x110000 := c.valid
  have hmiddle : above 1 c.toNat = c.toNat / 64 := rfl
  have hshare : above 2 c.toNat = c.toNat / 64 / 64 := rfl
  have hnat : (UInt8.ofNat (above 2 c.toNat + 0xE0)).toNat = above 2 c.toNat + 0xE0 := by
    rw [UInt8.toNat_ofNat']
    omega
  by_cases hfirst : above 2 c.toNat = 0
  · refine ⟨⟨0, 0xA0, 0xBF, 1⟩, rfl, ?_, hfirst.symm, ?_, ?_⟩
    · rw [lead?_eq, hnat, if_neg (by omega), if_pos (by omega)]
    · simp only [UInt8.reduceToNat]
      omega
    · simp only [UInt8.reduceToNat]
      omega
  by_cases hsurrogate : above 2 c.toNat = 0xD
  · refine ⟨⟨0xD, 0x80, 0x9F, 1⟩, rfl, ?_, hsurrogate.symm, Nat.le_add_left _ _, ?_⟩
    · rw [lead?_eq, hnat, if_neg (by omega), if_neg (by omega), if_pos (by omega)]
    · simp only [UInt8.reduceToNat]
      omega
  · refine ⟨⟨above 2 c.toNat, 0x80, 0xBF, 1⟩, rfl, ?_, rfl, Nat.le_add_left _ _, ?_⟩
    · rw [lead?_eq, hnat, if_neg (by omega), if_neg (by omega), if_neg (by omega),
        if_pos (by omega), Nat.add_sub_cancel]
    · simp only [UInt8.reduceToNat]
      omega

/-- Of four octets, the lead octet rules out the overlong forms and what lies past the last code
point. -/
theorem exists_leads_four (hlow : 0xFFFF < c.toNat) :
    ∃ l, l.more = 2 ∧ Leads (UInt8.ofNat (above 3 c.toNat + 0xF0)) l c.toNat := by
  have hvalid : c.toNat < 0xD800 ∨ 0xDFFF < c.toNat ∧ c.toNat < 0x110000 := c.valid
  have hmiddle : above 2 c.toNat = c.toNat / 64 / 64 := rfl
  have hshare : above 3 c.toNat = c.toNat / 64 / 64 / 64 := rfl
  have hnat : (UInt8.ofNat (above 3 c.toNat + 0xF0)).toNat = above 3 c.toNat + 0xF0 := by
    rw [UInt8.toNat_ofNat']
    omega
  by_cases hfirst : above 3 c.toNat = 0
  · refine ⟨⟨0, 0x90, 0xBF, 2⟩, rfl, ?_, hfirst.symm, ?_, ?_⟩
    · rw [lead?_eq, hnat, if_neg (by omega), if_neg (by omega), if_neg (by omega),
        if_neg (by omega), if_pos (by omega)]
    · simp only [UInt8.reduceToNat]
      omega
    · simp only [UInt8.reduceToNat]
      omega
  by_cases hlast : above 3 c.toNat = 4
  · refine ⟨⟨4, 0x80, 0x8F, 2⟩, rfl, ?_, hlast.symm, Nat.le_add_left _ _, ?_⟩
    · rw [lead?_eq, hnat, if_neg (by omega), if_neg (by omega), if_neg (by omega),
        if_neg (by omega), if_neg (by omega), if_neg (by omega), if_pos (by omega)]
    · simp only [UInt8.reduceToNat]
      omega
  · refine ⟨⟨above 3 c.toNat, 0x80, 0xBF, 2⟩, rfl, ?_, rfl, Nat.le_add_left _ _, ?_⟩
    · rw [lead?_eq, hnat, if_neg (by omega), if_neg (by omega), if_neg (by omega),
        if_neg (by omega), if_neg (by omega), if_pos (by omega), Nat.add_sub_cancel]
    · simp only [UInt8.reduceToNat]
      omega

/-- Every character past the single octets has a lead octet that starts it. -/
theorem exists_leads (h : 0x7F < c.toNat) :
    ∃ octet l, Leads octet l c.toNat
      ∧ String.utf8EncodeChar c = octet :: tails (l.more + 1) c.toNat := by
  by_cases htwo : c.toNat ≤ 0x7FF
  · exact ⟨_, _, leads_two h htwo, utf8EncodeChar_two h htwo⟩
  by_cases hthree : c.toNat ≤ 0xFFFF
  · obtain ⟨l, hmore, hleads⟩ := exists_leads_three (by omega) hthree
    refine ⟨_, l, hleads, ?_⟩
    rw [hmore]
    exact utf8EncodeChar_three (by omega) hthree
  · obtain ⟨l, hmore, hleads⟩ := exists_leads_four (c := c) (by omega)
    refine ⟨_, l, hleads, ?_⟩
    rw [hmore]
    exact utf8EncodeChar_four (by omega)

end Starts

/-- A number that is a code point is the number of its character. -/
theorem toNat_ofNat {point : Nat} (h : point.isValidChar) : (Char.ofNat point).toNat = point := by
  rw [Char.ofNat, dif_pos h]
  exact UInt32.toNat_ofNatLT

section Ends

variable {octet : UInt8} {point : Nat}

/-- Two octets that were read are those that the character is written in. -/
theorem eq_utf8EncodeChar_two (hlead : octet.toNat = above 1 point + 0xC0) (hlow : 0x7F < point)
    (hhigh : point ≤ 0x7FF) :
    octet :: tails 1 point = String.utf8EncodeChar (Char.ofNat point) := by
  have hpoint : (Char.ofNat point).toNat = point := toNat_ofNat (Or.inl (by omega))
  rw [utf8EncodeChar_two (by omega) (by omega), hpoint, ← hlead, UInt8.ofNat_toNat]

theorem eq_utf8EncodeChar_three (hlead : octet.toNat = above 2 point + 0xE0) (hlow : 0x7FF < point)
    (hhigh : point ≤ 0xFFFF) (hvalid : point < 0xD800 ∨ 0xDFFF < point) :
    octet :: tails 2 point = String.utf8EncodeChar (Char.ofNat point) := by
  have hpoint : (Char.ofNat point).toNat = point :=
    toNat_ofNat (hvalid.imp_right fun h => ⟨h, by omega⟩)
  rw [utf8EncodeChar_three (by omega) (by omega), hpoint, ← hlead, UInt8.ofNat_toNat]

theorem eq_utf8EncodeChar_four (hlead : octet.toNat = above 3 point + 0xF0) (hlow : 0xFFFF < point)
    (hhigh : point < 0x110000) :
    octet :: tails 3 point = String.utf8EncodeChar (Char.ofNat point) := by
  have hpoint : (Char.ofNat point).toNat = point := toNat_ofNat (Or.inr ⟨by omega, hhigh⟩)
  rw [utf8EncodeChar_four (by omega), hpoint, ← hlead, UInt8.ofNat_toNat]

/-- What a lead octet starts is a character, written with that lead octet. -/
theorem Leads.char {l : Lead} (h : Leads octet l point) :
    octet :: tails (l.more + 1) point = String.utf8EncodeChar (Char.ofNat point) := by
  obtain ⟨hlead, hshare, hlow, hhigh⟩ := h
  have hone : above 1 point = point / 64 := rfl
  have htwo : above 2 point = point / 64 / 64 := rfl
  have hthree : above 3 point = point / 64 / 64 / 64 := rfl
  rw [lead?_eq] at hlead
  split_ifs at hlead
  all_goals
    simp only [Option.some.injEq] at hlead
    subst hlead
    simp only [Nat.zero_add, Nat.reduceAdd, UInt8.reduceToNat] at hshare hlow hhigh ⊢
  · exact eq_utf8EncodeChar_two (by omega) (by omega) (by omega)
  · exact eq_utf8EncodeChar_three (by omega) (by omega) (by omega) (by omega)
  · exact eq_utf8EncodeChar_three (by omega) (by omega) (by omega) (by omega)
  · exact eq_utf8EncodeChar_three (by omega) (by omega) (by omega) (by omega)
  · exact eq_utf8EncodeChar_four (by omega) (by omega) (by omega)
  · exact eq_utf8EncodeChar_four (by omega) (by omega) (by omega)
  · exact eq_utf8EncodeChar_four (by omega) (by omega) (by omega)

end Ends

section Texts

variable (index : Nat) (chars : List Char)

/-- The octets of a character are read as that character. -/
theorem readFrom_utf8EncodeChar (c : Char) (rest : Bytes) :
    ∃ next, readFrom index chars none (String.utf8EncodeChar c ++ rest)
      = readFrom next (c :: chars) none rest := by
  by_cases hsmall : c.toNat ≤ 0x7F
  · have hnat : (UInt8.ofNat c.toNat).toNat = c.toNat := by
      rw [UInt8.toNat_ofNat']
      omega
    have hoctet : UInt8.ofNat c.toNat < 0x80 := by
      simp only [UInt8.lt_iff_toNat_lt, UInt8.reduceToNat]
      omega
    refine ⟨index + 1, ?_⟩
    rw [utf8EncodeChar_one hsmall, List.cons_append, List.nil_append, readFrom]
    simp only [if_pos hoctet, hnat, Char.ofNat_toNat]
  · obtain ⟨octet, l, hleads, hchar⟩ := exists_leads (c := c) (by omega)
    refine ⟨index + 1 + (l.more + 1), ?_⟩
    rw [hchar, List.cons_append, readFrom_lead hleads.lead,
      readFrom_tails index chars l.more c.toNat _ rest rfl hleads.share hleads.low hleads.high,
      Char.ofNat_toNat]

/-- Reading the octets of characters gives these characters. -/
theorem readFrom_encode (text : List Char) :
    readFrom index chars none (text.flatMap String.utf8EncodeChar)
      = .ok (chars.reverse ++ text) := by
  induction text generalizing index chars with
  | nil => simp [readFrom]
  | cons c text ih =>
      obtain ⟨next, hread⟩ := readFrom_utf8EncodeChar index chars c
        (text.flatMap String.utf8EncodeChar)
      rw [List.flatMap_cons, hread, ih]
      simp

/-- Octets that are read are the octets of the characters read. -/
theorem encode_of_readFrom {octets : Bytes} {text : List Char}
    (h : readFrom index chars none octets = .ok text) :
    ∃ more, text = chars.reverse ++ more ∧ octets = more.flatMap String.utf8EncodeChar := by
  -- A sequence takes several octets at once, so the induction is on how many octets are left.
  induction hsize : octets.length using Nat.strongRecOn
    generalizing octets index chars with
  | ind size ih =>
      cases octets with
      | nil =>
          simp only [readFrom, Except.ok.injEq] at h
          exact ⟨[], by simp [h], rfl⟩
      | cons octet rest =>
          by_cases hsmall : octet < 0x80
          · rw [readFrom] at h
            simp only [if_pos hsmall] at h
            obtain ⟨more, htext, hrest⟩ := ih rest.length (by rw [← hsize]; simp) _ _ h rfl
            have hnat : octet.toNat < 0x80 := by
              simpa only [UInt8.lt_iff_toNat_lt, UInt8.reduceToNat] using hsmall
            have hpoint : (Char.ofNat octet.toNat).toNat = octet.toNat :=
              toNat_ofNat (Or.inl (by omega))
            refine ⟨Char.ofNat octet.toNat :: more, by simp [htext], ?_⟩
            rw [List.flatMap_cons, utf8EncodeChar_one (by omega), hpoint, UInt8.ofNat_toNat, hrest]
            rfl
          cases hlead : lead? octet with
          | none =>
              rw [readFrom] at h
              simp [if_neg hsmall, hlead] at h
          | some l =>
              obtain ⟨hlow, hhigh⟩ := range_of_lead? hlead
              rw [readFrom_lead hlead] at h
              obtain ⟨point, last, hrest, hshare, hfrom, hto, hread⟩ :=
                tails_of_readFrom index chars rfl hlow hhigh h
              have hshort : last.length < size := by
                rw [← hsize, hrest]
                simp only [List.length_cons, List.length_append, length_tails]
                omega
              obtain ⟨more, htext, hlast⟩ := ih last.length hshort _ _ hread rfl
              have hchar := Leads.char ⟨hlead, hshare.symm, hfrom, hto⟩
              refine ⟨Char.ofNat point :: more, by simp [htext], ?_⟩
              rw [List.flatMap_cons, ← hchar, hrest, hlast]
              rfl

end Texts

/-- **Written, then read.** -/
theorem decode_encode (text : String) : decode (encode text) = .ok text := by
  rw [decode, encode, readFrom_encode]
  simp [Except.map]

/-- **Read, then written.**  No text has a second spelling. -/
theorem encode_of_decode {octets : Bytes} {text : String} (h : decode octets = .ok text) :
    encode text = octets := by
  rw [decode] at h
  cases hread : readFrom 0 [] none octets with
  | error fault => simp [hread, Except.map] at h
  | ok chars =>
      obtain ⟨more, hchars, hoctets⟩ := encode_of_readFrom 0 [] hread
      simp only [hread, Except.map, Except.ok.injEq] at h
      subst h hchars
      simpa [encode] using hoctets.symm

/-- **What is read** is exactly what is valid. -/
theorem exists_decode_iff (octets : Bytes) :
    (∃ text, decode octets = .ok text) ↔ octets.toByteArray.IsValidUTF8 := by
  constructor
  · rintro ⟨text, hdecode⟩
    rw [← encode_of_decode hdecode]
    exact .intro text.toList rfl
  · rintro ⟨chars, hchars⟩
    have hoctets : octets = encode (String.ofList chars) := by
      rw [encode, String.toList_ofList]
      simpa [List.utf8Encode, ByteArray.ext_iff] using hchars
    exact ⟨String.ofList chars, hoctets ▸ decode_encode _⟩

end SatWire.Utf8
