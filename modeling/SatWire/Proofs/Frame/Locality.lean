import SatWire.Proofs.Frame.InBounds
import SatWire.Proofs.Frame.Places

/-!
# Reading wherever it stands

What a reader returns from a place in a buffer depends on the octets between that place and the one
that it comes to, and on nothing else: not on what stands in front, not on what stands behind, and
not on the place itself.

The grammar is the reason.  Fields, elements and arrays are read exactly where a spelling of them
stands (`ReadsPieces`), and a spelling knows nothing of its neighbours.  In terms of a whole buffer,
reading succeeds exactly if the octets from one place to the other spell what is returned
(`ReadsPieces.readAt_eq_ok_iff`), and the rest follows from that.

A list of fields is not read in this way, since optional definitions are passed over where a buffer
ends.  So elements and frames are cut out of what surrounds them before their fields are read.

The decoder's places know only what is left, so nothing in front of a place could be read there.  A
device has the whole buffer at hand and counts its places from the start; that it answers the same
brings the statement over to words.
-/

namespace SatWire

section Pieces

variable {α β : Type} {Piece : Bytes → α → Prop}
  {read : Cursor → Except ParseError (α × Cursor)} {buffer : Bytes} {offset next : Nat} {a : α}

/-- A reader at a place in a whole buffer: what it returns, and the place that it comes to. -/
def readAt (read : Cursor → Except ParseError (α × Cursor)) (buffer : Bytes) (offset : Nat) :
    Except ParseError (α × Nat) :=
  (read (.ofOffset buffer offset)).map fun (a, place) => (a, place.offset)

/-- The reader returns something exactly where a piece of it stands, and comes to the place behind
the piece.  No piece is empty. -/
structure ReadsPieces (Piece : Bytes → α → Prop)
    (read : Cursor → Except ParseError (α × Cursor)) : Prop where
  length_pos : ∀ {piece a}, Piece piece a → 0 < piece.length
  reads : ∀ {piece a}, Piece piece a → ∀ offset rest,
    read ⟨offset, piece ++ rest⟩ = .ok (a, ⟨offset + piece.length, rest⟩)
  sound : ∀ {c a next}, read c = .ok (a, next) →
    ∃ piece, Piece piece a ∧ c.rest = piece ++ next.rest ∧ next.offset = c.offset + piece.length

/-- What stands from a place on stands up to a later place, or behind it. -/
theorem drop_eq_extract_append (hle : offset ≤ next) :
    buffer.drop offset = buffer.extract offset next ++ buffer.drop next := by
  have hbehind : (buffer.drop offset).drop (next - offset) = buffer.drop next := by
    rw [List.drop_drop, Nat.add_sub_cancel' hle]
  rw [List.extract_eq_take_drop, ← hbehind, List.take_append_drop]

/-- A piece between two places is as long as they are apart. -/
theorem length_extract (hend : next ≤ buffer.length) :
    (buffer.extract offset next).length = next - offset := by
  rw [List.extract_eq_take_drop, List.length_take, List.length_drop]
  omega

/-- **Reading between two places.**  A reader of pieces comes from one place to the other exactly if
there is a piece between them. -/
theorem ReadsPieces.readAt_eq_ok_iff (h : ReadsPieces Piece read) :
    readAt read buffer offset = .ok (a, next) ↔
      offset < next ∧ next ≤ buffer.length ∧ Piece (buffer.extract offset next) a := by
  constructor
  · intro hread
    obtain ⟨⟨_, place⟩, hfound, heq⟩ := map_eq_ok_iff.mp hread
    obtain ⟨rfl, rfl⟩ := Prod.mk.inj heq
    obtain ⟨piece, hpiece, hrest, hplace⟩ := h.sound hfound
    have hdrop : buffer.drop offset = piece ++ place.rest := hrest
    have hnext : place.offset = offset + piece.length := hplace
    have hpos := h.length_pos hpiece
    have hlength := congrArg List.length hdrop
    rw [List.length_drop, List.length_append] at hlength
    rw [hnext, extract_of_drop_eq hdrop]
    exact ⟨by omega, by omega, hpiece⟩
  · rintro ⟨hahead, hend, hpiece⟩
    have hread := h.reads hpiece offset (buffer.drop next)
    rw [length_extract hend, Nat.add_sub_cancel' hahead.le] at hread
    rw [readAt, Cursor.ofOffset, drop_eq_extract_append hahead.le, hread]
    rfl

/-- A reader whose results are wrapped up reads the same pieces. -/
theorem ReadsPieces.of_map {wrap : α → β} {Wrapped : Bytes → β → Prop}
    (hwrap : Function.Injective wrap)
    (h : ReadsPieces Wrapped fun c => (read c).map fun (a, next) => (wrap a, next)) :
    ReadsPieces (fun piece a => Wrapped piece (wrap a)) read where
  length_pos := h.length_pos
  reads hpiece offset rest := by
    obtain ⟨⟨_, place⟩, hread, heq⟩ := map_eq_ok_iff.mp (h.reads hpiece offset rest)
    obtain ⟨hsame, rfl⟩ := Prod.mk.inj heq
    rw [hread, hwrap hsame]
  sound hread := h.sound (map_eq_ok_iff.mpr ⟨_, hread, rfl⟩)

/-- A reader that looks at nothing but what it takes up. -/
structure LocalReader (read : Cursor → Except ParseError (α × Cursor)) : Prop where
  /-- A piece is read where it stands exactly if it is read on its own. -/
  alone : ∀ (before piece behind : Bytes) (a : α),
    readAt read (before ++ piece ++ behind) before.length
        = .ok (a, before.length + piece.length)
      ↔ readAt read piece 0 = .ok (a, piece.length)
  /-- Something is taken up, and it lies in the buffer. -/
  inside : ∀ (buffer : Bytes) (offset next : Nat) (a : α),
    readAt read buffer offset = .ok (a, next) → offset < next ∧ next ≤ buffer.length
  /-- Wherever else the same octets stand, the same is read from them. -/
  elsewhere : ∀ (buffer other : Bytes) (offset next place behind : Nat) (a : α),
    readAt read buffer offset = .ok (a, next) →
    other.extract place behind = buffer.extract offset next →
    behind ≤ other.length → readAt read other place = .ok (a, behind)

/-- **Whoever reads pieces looks at nothing else.** -/
theorem ReadsPieces.localReader (h : ReadsPieces Piece read) : LocalReader read where
  alone before piece behind a := by
    have hdrop : (before ++ piece ++ behind).drop before.length = piece ++ behind := by
      rw [List.append_assoc, List.drop_left]
    have hmiddle := extract_of_drop_eq hdrop
    have hwhole : piece.extract 0 piece.length = piece := by
      rw [List.extract_eq_take_drop, List.drop_zero, Nat.sub_zero, List.take_length]
    rw [h.readAt_eq_ok_iff, h.readAt_eq_ok_iff, hmiddle, hwhole, List.length_append,
      List.length_append]
    constructor
    · rintro ⟨hahead, -, hpiece⟩
      exact ⟨by omega, Nat.le_refl _, hpiece⟩
    · rintro ⟨hpos, -, hpiece⟩
      exact ⟨by omega, by omega, hpiece⟩
  inside buffer offset next a hread := by
    obtain ⟨hahead, hend, -⟩ := h.readAt_eq_ok_iff.mp hread
    exact ⟨hahead, hend⟩
  elsewhere buffer other offset next place behind a hread hsame hend := by
    obtain ⟨-, -, hpiece⟩ := h.readAt_eq_ok_iff.mp hread
    rw [← hsame] at hpiece
    have hpos := h.length_pos hpiece
    rw [length_extract hend] at hpos
    exact h.readAt_eq_ok_iff.mpr ⟨by omega, hend, hpiece⟩

end Pieces

section Readers

variable (d : Decoder) (levels : Nat)

/-- Octets spell a field that nests no deeper than so many levels. -/
def FieldPiece (r : Registry) (levels : Nat) (type : FieldType) (piece : Bytes) (f : Field) : Prop :=
  (∃ truths, SpellsField r piece type f truths) ∧ f.nesting ≤ levels

/-- Octets spell one element, whose fields nest no deeper than so many levels. -/
def ElementPiece (r : Registry) (levels : Nat) (layout : List FieldDef) (piece : Bytes)
    (e : Element) : Prop :=
  (∃ truths, SpellsElements r piece layout [e] truths) ∧ e.nesting ≤ levels

/-- **A field is read exactly where it is spelled.** -/
theorem readField_pieces (type : FieldType) :
    ReadsPieces (FieldPiece d.registry levels type) (d.readField (d.inner levels) type) where
  length_pos := by
    rintro piece f ⟨⟨truths, hspells⟩, -⟩
    have hsome := hspells.append_ne_nil []
    rw [List.append_nil] at hsome
    exact List.length_pos_iff.mpr hsome
  reads := by
    rintro piece f ⟨⟨truths, hspells⟩, hdepth⟩ offset rest
    exact hspells.read levels offset rest hdepth
  sound := by
    intro c f next hread
    obtain ⟨octets, truths, hspells, hrest, hoffset, hdepth⟩ :=
      soundField_inner levels type c f next hread
    exact ⟨octets, ⟨⟨truths, hspells⟩, hdepth⟩, hrest, hoffset⟩

/-- **An element is read exactly where it is spelled.** -/
theorem readElement_pieces (layout : List FieldDef) :
    ReadsPieces (ElementPiece d.registry levels layout)
      (readElement (d.readFields levels) layout) where
  length_pos := by
    rintro piece e ⟨⟨truths, hspells⟩, -⟩
    cases hspells with
    | cons index body rest hfields hshort hrest => exact Nat.zero_lt_succ _
  reads := by
    rintro piece e ⟨⟨truths, hspells⟩, hdepth⟩ offset rest
    cases hspells with
    | cons index body behind hfields hshort hbehind =>
        cases hbehind with
        | nil =>
            rw [Element.nesting] at hdepth
            have hbody := Decoder.readFields_of_readEach (hfields.read levels 0 hdepth)
            have hread := readElement_block index offset rest hshort hbody
            rw [List.append_nil, List.cons_append, List.length_cons, Nat.add_comm _ 1,
              ← Nat.add_assoc]
            exact hread
  sound := by
    intro c e next hread
    obtain ⟨body, truths, hfields, hshort, hrest, hoffset, hdepth⟩ :=
      spells_of_readElement (sound_readFields levels) hread
    obtain ⟨index, fields⟩ := e
    refine ⟨index :: (block body ++ []), ⟨⟨truths ++ [], ?_⟩, hdepth⟩, ?_, ?_⟩
    · exact .cons index body [] hfields hshort .nil
    · rw [hrest, List.append_nil, List.cons_append]
    · rw [hoffset, List.append_nil, List.length_cons]
      omega

/-- **An array is read exactly where it is spelled**: it is read as a field is, one level up. -/
theorem readArray_pieces (layout : List FieldDef) :
    ReadsPieces
      (fun piece es => FieldPiece d.registry (levels + 1) (.array layout) piece
        ⟨.array layout, .array es⟩)
      (readArray (d.readFields levels) layout) := by
  have hinjective : Function.Injective fun es : List Element =>
      (⟨.array layout, .array es⟩ : Field) := by
    intro es es' hsame
    cases hsame
    rfl
  exact .of_map hinjective (readField_pieces d (levels + 1) (.array layout))

end Readers

/-- A decoder at a depth, where as many levels are left as its limit exceeds the depth by, looks at
nothing but what it takes up: in fields of every type, and in elements and arrays of every layout. -/
structure Decoder.ReadsLocally (d : Decoder) (depth : Nat) : Prop where
  field : ∀ type, LocalReader (d.readField (d.inner (d.limit - depth)) type)
  element : ∀ layout, LocalReader (readElement (d.readFields (d.limit - depth)) layout)
  array : ∀ layout, LocalReader (readArray (d.readFields (d.limit - depth)) layout)

namespace Wordwise

section Words

variable {α : Type} {read : Cursor → Except ParseError (α × Cursor)} {buffer : Bytes}
  {offset next : UInt64} {a : α}

/-- Words succeed exactly if numbers do, with the same places. -/
theorem eq_ended_ok_iff {x : Attempt (α × UInt64)}
    (h : Agrees (Ahead buffer offset) x (read (.ofOffset buffer offset.toNat))) :
    x = .ended (.ok (a, next)) ↔ readAt read buffer offset.toNat = .ok (a, next.toNat) := by
  unfold readAt
  refine h.ends (C := fun x r => x = .ended (.ok (a, next))
    ↔ r.map (fun (a, place) => (a, place.offset)) = .ok (a, next.toNat)) ?_ ?_
  · rintro ⟨found, place⟩ _ ⟨rfl, -, -⟩
    simp [Except.map, Cursor.ofOffset, UInt64.toNat_inj]
  · intro fault
    simp [Except.map]

/-- With words, too, a piece is read where it stands exactly if it is read on its own, in every
buffer that a word can count. -/
def LocalReader (words : Bytes → UInt64 → Attempt (α × UInt64)) : Prop :=
  ∀ (before piece behind : Bytes) (a : α),
    (before ++ piece ++ behind).length < UInt64.size →
    (words (before ++ piece ++ behind) (size before)
        = .ended (.ok (a, size before + size piece))
      ↔ words piece 0 = .ended (.ok (a, size piece)))

/-- Words that agree with the decoder everywhere are as local as it is. -/
theorem localReader {words : Bytes → UInt64 → Attempt (α × UInt64)}
    (hagrees : ∀ buffer offset, buffer.length < UInt64.size →
      Agrees (Ahead buffer offset) (words buffer offset) (read (.ofOffset buffer offset.toNat)))
    (hlocal : SatWire.LocalReader read) : LocalReader words := by
  intro before piece behind a hsmall
  have hlength : (before ++ piece ++ behind).length
      = before.length + piece.length + behind.length := by
    rw [List.length_append, List.length_append]
  have hbefore : (size before).toNat = before.length := toNat_size (by omega)
  have hpiece : (size piece).toNat = piece.length := toNat_size (by omega)
  have hsum : (size before + size piece).toNat = before.length + piece.length := by
    rw [toNat_add (by omega), hbefore, hpiece]
  rw [eq_ended_ok_iff (hagrees _ _ hsmall), eq_ended_ok_iff (hagrees piece 0 (by omega)), hbefore,
    hpiece, hsum]
  exact hlocal.alone before piece behind a

end Words

/-- Reading with words at a depth, where places are counted from the start of the whole buffer and
the stack has a level for each octet of it. -/
structure ReadsLocally (registry : Registry) (limit depth : UInt64) : Prop where
  field : ∀ type, LocalReader fun buffer =>
    readField registry limit (readFields registry limit buffer.length) depth buffer type
  element : ∀ layout, LocalReader fun buffer =>
    readElement (readFields registry limit buffer.length depth) layout buffer
  array : ∀ layout, LocalReader fun buffer =>
    readArray (readFields registry limit buffer.length depth) layout buffer

end Wordwise

/-- **Fields at any place.**  Whatever the registry, the limit and the depth: a field, an element or
an array is read from a piece of a buffer exactly if it is read from the piece alone, and nothing
outside of the piece has a part in it.  The same holds of reading with words. -/
theorem fields_at_any_place (registry : Registry) :
    (∀ limit depth : Nat, Decoder.ReadsLocally ⟨registry, limit⟩ depth)
      ∧ ∀ limit depth : UInt64, Wordwise.ReadsLocally registry limit depth := by
  have hnumbers : ∀ limit depth : Nat, Decoder.ReadsLocally ⟨registry, limit⟩ depth :=
    fun limit depth =>
      { field := fun type => (readField_pieces _ _ type).localReader
        element := fun layout => (readElement_pieces _ _ layout).localReader
        array := fun layout => (readArray_pieces _ _ layout).localReader }
  refine ⟨hnumbers, fun limit depth => ⟨fun type => ?_, fun layout => ?_, fun layout => ?_⟩⟩
  · refine Wordwise.localReader (fun buffer offset hsmall => ?_)
      ((hnumbers limit.toNat depth.toNat).field type)
    exact Wordwise.readField_agrees hsmall
      (Wordwise.agreesBelow_readFields (Nat.le_refl _) hsmall) type offset
  · refine Wordwise.localReader (fun buffer offset hsmall => ?_)
      ((hnumbers limit.toNat depth.toNat).element layout)
    exact Wordwise.readElement_agrees hsmall
      (Wordwise.agreesBelow_readFields (Nat.le_refl _) hsmall depth) layout
  · refine Wordwise.localReader (fun buffer offset hsmall => ?_)
      ((hnumbers limit.toNat depth.toNat).array layout)
    exact Wordwise.readArray_agrees hsmall
      (Wordwise.agreesBelow_readFields (Nat.le_refl _) hsmall depth) layout

/-- An envelope is read alone, between octets that might begin and end one, and behind another one.
With words, a truth value is read in the midst of others. -/
theorem fields_at_any_place_envelope :
    let octets : Bytes := [1, 1, 0, 1, 238, 249, 1]
    let read := Decoder.readField ⟨envelopes, 4⟩ (Decoder.inner ⟨envelopes, 4⟩ (4 - 3)) .message
    readAt read octets 0 = .ok (.message (envelope 0), 7)
      ∧ readAt read ([1, 1] ++ octets ++ [1]) 2 = .ok (.message (envelope 0), 9)
      ∧ readAt read (octets ++ octets) 7 = .ok (.message (envelope 0), 14)
      ∧ Wordwise.readField envelopes 4 (Wordwise.readFields envelopes 4 4) 3
          ([0, 0] ++ [7] ++ [0]) .bool 2 = .ended (.ok (.bool true, 3)) := by
  intro octets read
  obtain ⟨hnumbers, hwords⟩ := fields_at_any_place envelopes
  have hfield : LocalReader read := (hnumbers 4 3).field .message
  have halone : readAt read octets 0 = .ok (.message (envelope 0), 7) := by decide +kernel
  have htruth := (hwords 4 3).field .bool [0, 0] [7] [0] (.bool true) (by decide)
  exact ⟨halone, (hfield.alone [1, 1] octets [1] _).mpr halone,
    hfield.elsewhere octets (octets ++ octets) 0 7 7 14 _ halone (by rfl) (by decide),
    htruth.mpr (by rfl)⟩

end SatWire
