import SatWire.Proofs.Frame.Header
import SatWire.Proofs.Frame.Scalar
import SatWire.Proofs.Frame.Steps
import SatWire.Proofs.Frame.Wordwise

/-!
# Words agree with numbers

What words are computed with and what the decoder is defined by are followed side by side: `Agrees`
says of the two that the first meets no trap, and that both fail alike or end in related results.
What has to be known for the next unchecked operation is what the relation says: the place that was
come to lies in the buffer, ahead of where it started (`Ahead`).

Here the pieces are compared, up to values without fields: whatever is cut out of a buffer that a
word can count is looked for first.
-/

namespace SatWire

/-- Without a trap, the same fault on both sides or results that are related. -/
def Agrees {α β : Type} (R : α → β → Prop) : Attempt α → Except ParseError β → Prop
  | .ended (.ok a), .ok b => R a b
  | .ended (.error fault), .error fault' => fault = fault'
  | _, _ => False

namespace Agrees

variable {α β γ δ : Type} {R : α → β → Prop} {S : γ → δ → Prop} {x : Attempt α}
  {r : Except ParseError β}

/-- Both sides refuse for one cause. -/
theorem decline (cause : ParseError.Cause) : Agrees R (.decline cause) (refuse cause) :=
  rfl

/-- There are two ways to agree: the same fault, or related results. -/
theorem ends {C : Attempt α → Except ParseError β → Prop} (h : Agrees R x r)
    (hok : ∀ a b, R a b → C (.ended (.ok a)) (.ok b))
    (hfault : ∀ fault, C (.ended (.error fault)) (.error fault)) : C x r := by
  match x, r, h with
  | .ended (.ok a), .ok b, h => exact hok a b h
  | .ended (.error fault), .error _, h =>
      cases h
      exact hfault fault

/-- Both sides tell the same place. -/
theorem within (scope : Scope) (h : Agrees R x r) : Agrees R (x.within scope) (located scope r) :=
  h.ends (C := fun x r => Agrees R (x.within scope) (located scope r)) (fun _ _ hrel => hrel)
    fun _ => rfl

/-- One step after the other. -/
theorem bind {f : α → Attempt γ} {g : β → Except ParseError δ} (h : Agrees R x r)
    (hnext : ∀ a b, R a b → Agrees S (f a) (g b)) : Agrees S (x >>= f) (r.bind g) :=
  h.ends (C := fun x r => Agrees S (x >>= f) (r.bind g)) hnext fun _ => rfl

/-- A last step that only puts results together on one side. -/
theorem bind_map {f : α → Attempt γ} {g : β → δ} (h : Agrees R x r)
    (hnext : ∀ a b, R a b → Agrees S (f a) (.ok (g b))) : Agrees S (x >>= f) (r.map g) :=
  h.ends (C := fun x r => Agrees S (x >>= f) (r.map g)) hnext fun _ => rfl

/-- Further steps on one side only. -/
theorem bind_left {T : γ → β → Prop} {f : α → Attempt γ} (h : Agrees R x r)
    (hnext : ∀ a b, R a b → Agrees T (f a) (.ok b)) : Agrees T (x >>= f) r :=
  h.ends (C := fun x r => Agrees T (x >>= f) r) hnext fun _ => rfl

/-- A last step that only puts results together on the other side. -/
theorem map_right {T : α → δ → Prop} {g : β → δ} (h : Agrees R x r)
    (himp : ∀ a b, R a b → T a (g b)) : Agrees T x (r.map g) :=
  h.ends (C := fun x r => Agrees T x (r.map g)) himp fun _ => rfl

/-- What follows from the relation is related, too. -/
theorem mono {T : α → β → Prop} (h : Agrees R x r) (himp : ∀ a b, R a b → T a b) :
    Agrees T x r :=
  h.ends himp fun _ => rfl

/-- Equal results are the same result. -/
theorem eq_ended {x : Attempt α} {r : Except ParseError α} (h : Agrees Eq x r) :
    x = .ended r :=
  h.ends (C := fun x r => x = .ended r) (fun _ _ hsame => hsame ▸ rfl) fun _ => rfl

/-- The same question, asked on both sides. -/
theorem ite {p q : Prop} [Decidable p] [Decidable q] {y : Attempt α} {s : Except ParseError β}
    (hiff : p ↔ q) (hthen : p → Agrees R x r) (helse : ¬ p → Agrees R y s) :
    Agrees R (if p then x else y) (if q then r else s) := by
  by_cases hp : p
  · rw [if_pos hp, if_pos (hiff.mp hp)]
    exact hthen hp
  · rw [if_neg hp, if_neg (hp ∘ hiff.mpr)]
    exact helse hp

end Agrees

namespace Wordwise

section Words

variable {α : Type} {a b : UInt64}

/-- Words that do not overflow are added as numbers. -/
theorem toNat_add (h : a.toNat + b.toNat < UInt64.size) : (a + b).toNat = a.toNat + b.toNat := by
  rw [UInt64.toNat_add]
  exact Nat.mod_eq_of_lt h

/-- A sum that a word can hold meets no trap. -/
theorem add_bind (h : a.toNat + b.toNat < UInt64.size) (f : UInt64 → Attempt α) :
    (add a b >>= f) = f (a + b) := by
  rw [add, if_pos h]
  rfl

/-- A difference of a word and a smaller one meets no trap. -/
theorem sub_bind (h : b ≤ a) (f : UInt64 → Attempt α) : (sub a b >>= f) = f (a - b) := by
  rw [sub, if_pos h]
  rfl

/-- The size of a buffer that a word can count is its length. -/
theorem toNat_size {buffer : Bytes} (hsmall : buffer.length < UInt64.size) :
    (size buffer).toNat = buffer.length :=
  UInt64.toNat_ofNat_of_lt' hsmall

/-- What is subtracted down to zero is subtracted as numbers are. -/
theorem toNat_monus (a b : UInt64) : (monus a b).toNat = a.toNat - b.toNat := by
  rw [monus]
  split
  · rename_i hle
    exact UInt64.toNat_sub_of_le a b hle
  · rename_i hnot
    rw [UInt64.le_iff_toNat_le] at hnot
    change 0 = _
    omega

end Words

section Pieces

variable {buffer : Bytes} {offset : UInt64}

/-- The piece that was taken stood at its place, and the cursor is behind it. -/
def Taken (buffer : Bytes) (offset count : Nat) (piece : Bytes) (taken : Bytes × Cursor) : Prop :=
  taken = (piece, .ofOffset buffer (offset + count)) ∧ piece.length = count
    ∧ offset + count ≤ buffer.length

/-- To skip octets is to stand further on in the same buffer. -/
theorem skip_ofOffset (buffer : Bytes) (offset count : Nat) :
    (Cursor.ofOffset buffer offset).skip count = .ofOffset buffer (offset + count) := by
  rw [Cursor.skip, Cursor.ofOffset, Cursor.ofOffset, List.drop_drop]

/-- A piece that is there is cut out by words. -/
theorem take_of_le (hsmall : buffer.length < UInt64.size) (offset count : UInt64) (part : Part)
    (hfits : offset.toNat + count.toNat ≤ buffer.length) :
    take buffer offset count part = pure ((buffer.drop offset.toNat).take count.toNat) := by
  have hword : offset.toNat + count.toNat < UInt64.size := Nat.lt_of_le_of_lt hfits hsmall
  have hsum := toNat_add hword
  have hend : offset + count ≤ size buffer := by
    rw [UInt64.le_iff_toNat_le, hsum, toNat_size hsmall]
    exact hfits
  have hslice : offset ≤ offset + count ∧ (offset + count).toNat ≤ buffer.length := by
    rw [UInt64.le_iff_toNat_le, hsum]
    exact ⟨Nat.le_add_right _ _, hfits⟩
  rw [take, add?, if_pos hword]
  dsimp only
  rw [if_pos hend, slice, if_pos hslice, hsum, Nat.add_sub_cancel_left]

/-- A piece that is not there is declined by words, and its sum need not fit a word. -/
theorem take_of_lt (hsmall : buffer.length < UInt64.size) (offset count : UInt64) (part : Part)
    (hcut : buffer.length < offset.toNat + count.toNat) :
    take buffer offset count part = .decline
      (.bufferEnds part count.toNat offset.toNat (buffer.length - offset.toNat)) := by
  rw [take, toNat_monus, toNat_size hsmall, add?]
  by_cases hword : offset.toNat + count.toNat < UInt64.size
  · have hend : ¬ offset + count ≤ size buffer := by
      rw [UInt64.le_iff_toNat_le, toNat_add hword, toNat_size hsmall]
      exact Nat.not_le_of_lt hcut
    rw [if_pos hword]
    dsimp only
    rw [if_neg hend]
  · rw [if_neg hword]

/-- **Taking a piece.**  Nothing is taken from behind the end of a buffer, not even nothing. -/
theorem take_agrees (hsmall : buffer.length < UInt64.size) (offset count : UInt64) (part : Part)
    (hplace : 0 < count.toNat ∨ offset.toNat ≤ buffer.length) :
    Agrees (Taken buffer offset.toNat count.toNat) (take buffer offset count part)
      ((Cursor.ofOffset buffer offset.toNat).take count.toNat part) := by
  have hlength : ((buffer.drop offset.toNat).take count.toNat).length
      = min count.toNat (buffer.length - offset.toNat) := by
    rw [List.length_take, List.length_drop]
  by_cases hfits : offset.toNat + count.toNat ≤ buffer.length
  · have hpiece : ((buffer.drop offset.toNat).take count.toNat).length = count.toNat := by
      omega
    have hmodel : (Cursor.ofOffset buffer offset.toNat).take count.toNat part
        = .ok ((buffer.drop offset.toNat).take count.toNat,
            .ofOffset buffer (offset.toNat + count.toNat)) := by
      rw [← skip_ofOffset]
      exact if_pos hpiece
    rw [take_of_le hsmall offset count part hfits, hmodel]
    exact ⟨rfl, hpiece, hfits⟩
  · have hpiece : ((buffer.drop offset.toNat).take count.toNat).length ≠ count.toNat := by
      omega
    have hmodel : (Cursor.ofOffset buffer offset.toNat).take count.toNat part
        = refuse (.bufferEnds part count.toNat offset.toNat (buffer.length - offset.toNat)) := by
      rw [← List.length_drop]
      exact if_neg hpiece
    rw [take_of_lt hsmall offset count part (Nat.lt_of_not_le hfits), hmodel]
    exact .decline _

/-- So many octets as a constant says are taken alike. -/
theorem takeFixed_agrees (hsmall : buffer.length < UInt64.size) {count : Nat} (part : Part)
    (hpos : 0 < count) (hcount : count < UInt64.size) :
    Agrees (Taken buffer offset.toNat count) (takeFixed buffer offset count part)
      ((Cursor.ofOffset buffer offset.toNat).take count part) := by
  have hword : (UInt64.ofNat count).toNat = count := UInt64.toNat_ofNat_of_lt' hcount
  have htake := take_agrees hsmall offset (UInt64.ofNat count) part
    (.inl (by rw [hword]; exact hpos))
  rw [hword] at htake
  refine htake.bind_left ?_
  intro piece taken hpiece
  rw [if_pos hpiece.2.1]
  exact hpiece

/-- An octet is a piece of one octet. -/
theorem takeOctet_eq_map (c : Cursor) (part : Part) :
    c.takeOctet part = (c.take 1 part).map fun (octets, next) => (octets.headD 0, next) := by
  obtain ⟨start, rest⟩ := c
  cases rest <;> rfl

/-- An octet is taken alike, and the place behind it lies within the buffer. -/
theorem takeOctet_agrees (hsmall : buffer.length < UInt64.size) (part : Part) :
    Agrees
      (fun octet taken => taken = (octet, .ofOffset buffer (offset.toNat + 1))
        ∧ offset.toNat + 1 ≤ buffer.length)
      (takeOctet buffer offset part) ((Cursor.ofOffset buffer offset.toNat).takeOctet part) := by
  rw [takeOctet_eq_map]
  refine (takeFixed_agrees hsmall part Nat.one_pos (by decide)).bind_map ?_
  rintro piece taken ⟨rfl, hlength, hplace⟩
  obtain ⟨octet, rfl⟩ := List.length_eq_one_iff.mp hlength
  exact ⟨rfl, hplace⟩

/-- A length is taken alike, and the place behind it lies within the buffer. -/
theorem takeLength_agrees (hsmall : buffer.length < UInt64.size) (part : Part) :
    Agrees
      (fun count taken => taken = (count.toNat, .ofOffset buffer (offset.toNat + 2))
        ∧ offset.toNat + 2 ≤ buffer.length)
      (takeLength buffer offset part)
      ((Cursor.ofOffset buffer offset.toNat).takeNat 2 part) := by
  refine (takeFixed_agrees hsmall part Nat.two_pos (by decide)).bind_map ?_
  rintro piece taken ⟨rfl, hlength, hplace⟩
  have hless := BigEndian.toNat_lt piece
  rw [hlength] at hless
  have hword : (UInt64.ofNat (BigEndian.toNat piece)).toNat = BigEndian.toNat piece :=
    UInt64.toNat_ofNat_of_lt' (Nat.lt_trans hless (by decide))
  refine ⟨?_, hplace⟩
  rw [hword]

/-- A length and the piece behind it, and what follows.  Where the piece starts may be reckoned in
any way, if it is reckoned behind a length that is there. -/
theorem block_agrees {γ δ : Type} {S : γ → δ → Prop} (hsmall : buffer.length < UInt64.size)
    (length body : Part) {start : Attempt UInt64}
    (hstart : offset.toNat + 2 ≤ buffer.length →
      ∀ next : UInt64 → Attempt γ, (start >>= next) = next (offset + 2))
    {f : UInt64 → UInt64 → Bytes → Attempt γ} {g : Bytes × Cursor → Except ParseError δ}
    (hnext : ∀ count piece, piece.length = count.toNat →
      (offset + 2).toNat = offset.toNat + 2 →
      offset.toNat + 2 + count.toNat ≤ buffer.length →
      Agrees S (f (offset + 2) count piece)
        (g (piece, .ofOffset buffer (offset.toNat + 2 + count.toNat)))) :
    Agrees S
      (do
        let count ← takeLength buffer offset length
        let place ← start
        let piece ← take buffer place count body
        f place count piece)
      (((Cursor.ofOffset buffer offset.toNat).takeBlock length body).bind g) := by
  have hmodel : ((Cursor.ofOffset buffer offset.toNat).takeBlock length body).bind g
      = ((Cursor.ofOffset buffer offset.toNat).takeNat 2 length).bind fun taken =>
          (taken.2.take taken.1 body).bind g := by
    rw [Cursor.takeBlock]
    cases (Cursor.ofOffset buffer offset.toNat).takeNat 2 length <;> rfl
  rw [hmodel]
  refine (takeLength_agrees hsmall length).bind ?_
  rintro count taken ⟨rfl, hplace⟩
  have hsum : (offset + 2).toNat = offset.toNat + 2 := toNat_add (Nat.lt_of_le_of_lt hplace hsmall)
  have htake := take_agrees hsmall (offset + 2) count body
    (.inr (hsum.trans_le hplace))
  rw [hsum] at htake
  rw [hstart hplace]
  refine htake.bind ?_
  rintro piece taken ⟨rfl, hlength, hend⟩
  exact hnext count piece hlength hsum hend

end Pieces

section Values

variable {buffer : Bytes} {offset : UInt64}

/-- The same was read, and the same place was come to: one in the buffer, ahead of where reading
started. -/
def Ahead {α : Type} (buffer : Bytes) (offset : UInt64) (words : α × UInt64) (read : α × Cursor) :
    Prop :=
  read = (words.1, .ofOffset buffer words.2.toNat) ∧ offset < words.2
    ∧ words.2.toNat ≤ buffer.length

/-- A sum that lies in the buffer is a place ahead. -/
theorem ahead_of_add {α : Type} {a : α} {start count : UInt64} {place : Nat}
    (hsmall : buffer.length < UInt64.size) (hplace : start.toNat + count.toNat = place)
    (hpast : offset.toNat < place) (hend : place ≤ buffer.length) :
    Ahead buffer offset (a, start + count) (a, .ofOffset buffer place) := by
  have hsum : (start + count).toNat = place := by
    rw [toNat_add (by omega), hplace]
  refine ⟨?_, ?_, ?_⟩
  · rw [hsum]
  · rw [UInt64.lt_iff_toNat_lt, hsum]
    exact hpast
  · rw [hsum]
    exact hend

/-- **A block is read in bounds.** -/
theorem takeBlock_agrees (hsmall : buffer.length < UInt64.size) (length body : Part) :
    Agrees (fun words read => Ahead buffer offset words read ∧ offset.toNat + 2 ≤ buffer.length)
      (takeBlock buffer offset length body)
      ((Cursor.ofOffset buffer offset.toNat).takeBlock length body) := by
  have hend : ((Cursor.ofOffset buffer offset.toNat).takeBlock length body).bind .ok
      = (Cursor.ofOffset buffer offset.toNat).takeBlock length body := by
    cases (Cursor.ofOffset buffer offset.toNat).takeBlock length body <;> rfl
  rw [← hend]
  refine block_agrees hsmall length body ?_ ?_
  · intro hplace
    exact add_bind (Nat.lt_of_le_of_lt hplace hsmall)
  · intro count piece hlength hsum hend
    have hword : (offset + 2).toNat + count.toNat < UInt64.size := by
      omega
    rw [add_bind hword]
    exact ⟨ahead_of_add hsmall (by rw [hsum]) (by omega) hend, by omega⟩

/-- A value of so many octets, and the place behind it. -/
theorem fixed_agrees (hsmall : buffer.length < UInt64.size) {type : FieldType} {width : Nat}
    (hwidth : type.fixedWidth? = some width) (hpos : 0 < width) (hword : width < UInt64.size)
    (make : Bytes → Value) :
    Agrees (Ahead buffer offset)
      (do
        let piece ← takeFixed buffer offset width (.fixed type)
        decodeScalar.behind offset type (make piece))
      (((Cursor.ofOffset buffer offset.toNat).take width (.fixed type)).map
        fun (octets, next) => (make octets, next)) := by
  refine (takeFixed_agrees hsmall _ hpos hword).bind_map ?_
  rintro piece taken ⟨rfl, hlength, hplace⟩
  have hcount : (UInt64.ofNat width).toNat = width := UInt64.toNat_ofNat_of_lt' hword
  rw [decodeScalar.behind, hwidth, Option.getD_some, add_bind (by omega)]
  exact ahead_of_add hsmall (by rw [hcount]) (by omega) hplace

/-- Each width is some octets that a word can count. -/
theorem Width.octets_bounds (width : Width) : 0 < width.octets ∧ width.octets < UInt64.size := by
  cases width <;> decide

/-- **A value without fields is read in bounds**, from any place at all. -/
theorem decodeScalar_agrees (hsmall : buffer.length < UInt64.size) (type : FieldType) :
    Agrees (Ahead buffer offset) (decodeScalar buffer offset type)
      (Scalar.decode (.ofOffset buffer offset.toNat) type) := by
  cases type with
  | uint width =>
      obtain ⟨hpos, hword⟩ := Width.octets_bounds width
      exact fixed_agrees hsmall rfl hpos hword fun piece =>
        .uint (UInt64.ofNat (BigEndian.toNat piece))
  | int width =>
      obtain ⟨hpos, hword⟩ := Width.octets_bounds width
      exact fixed_agrees hsmall rfl hpos hword fun piece =>
        .int (Int64.ofInt (BigEndian.toInt piece))
  | bool | enum =>
      refine (takeOctet_agrees hsmall _).bind_map ?_
      rintro octet taken ⟨rfl, hplace⟩
      rw [decodeScalar.behind]
      change Agrees _ (add offset 1 >>= _) _
      have hsum : offset.toNat + (1 : UInt64).toNat < UInt64.size :=
        Nat.lt_of_le_of_lt hplace hsmall
      rw [add_bind hsum]
      exact ahead_of_add hsmall rfl (Nat.lt_succ_self _) hplace
  | text =>
      refine (takeBlock_agrees hsmall _ _).bind ?_
      rintro ⟨piece, next⟩ read ⟨⟨rfl, hahead, hend⟩, hplace⟩
      dsimp only
      cases Utf8.decode piece with
      | ok s => exact ⟨rfl, hahead, hend⟩
      | error fault =>
          have hsum : offset.toNat + (2 : UInt64).toNat < UInt64.size :=
            Nat.lt_of_le_of_lt hplace hsmall
          have hstart : (offset + 2).toNat = offset.toNat + 2 := toNat_add hsum
          dsimp only
          rw [add_bind hsum, hstart]
          exact .decline _
  | bytes =>
      refine (takeBlock_agrees hsmall _ _).bind_map ?_
      rintro ⟨piece, next⟩ read ⟨⟨rfl, hahead, hend⟩, -⟩
      exact ⟨rfl, hahead, hend⟩
  | array | message => exact .decline _

end Values

end Wordwise

end SatWire
