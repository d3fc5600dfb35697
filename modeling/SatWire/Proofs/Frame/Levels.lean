import SatWire.Proofs.Frame.InBounds

/-!
# The limit of levels

A decoder with a higher limit does what one with a lower limit does, step by step, until the lower
limit is met; so an answer that does not come from the limit stands under every higher one
(`readFields_stands`).

And no limit is met that is not below the number of octets.  An array or a message is read out of
octets that are left, and what is read inside it is fewer of them, so the octets run out before the
levels do, whatever the schema allows (`readFields_within`).  A stack with a level for each octet is
enough for a reader on a device, too.
-/

namespace SatWire

/-- The result is no refusal for the structure. -/
def WithinLevels {α : Type} (r : Except ParseError α) : Prop :=
  ¬ FailsAs r .invalidStructure

/-- The first result stands: the second is the same, unless the first is a refusal for the
structure. -/
def Stands {α : Type} (r s : Except ParseError α) : Prop :=
  WithinLevels r → s = r

namespace WithinLevels

variable {α β : Type} {r : Except ParseError α} {f : α → Except ParseError β} {scope : Scope}

theorem ok (a : α) : WithinLevels (.ok a) :=
  fun hfails => hfails.ne_ok a rfl

/-- A result that fails for something else is no refusal for the structure. -/
theorem of_failsAs {kind : ParseError.Kind} (hfails : FailsAs r kind)
    (hother : kind ≠ .invalidStructure) : WithinLevels r := by
  obtain ⟨fault, rfl, hkind⟩ := hfails
  rintro ⟨_, hfault, hstructure⟩
  cases hfault
  exact hother (hkind.symm.trans hstructure)

/-- What is refused for another cause is not refused for the structure. -/
theorem refuse {cause : ParseError.Cause} (hother : cause.kind ≠ .invalidStructure) :
    WithinLevels (α := α) (refuse cause) :=
  of_failsAs (FailsAs.refuse cause) hother

/-- Only the places told differ. -/
theorem located_iff : WithinLevels (located scope r) ↔ WithinLevels r := by
  cases r with
  | ok a => exact iff_of_true (ok a) (ok a)
  | error fault =>
      refine not_congr ⟨?_, fun hfails => hfails.located scope⟩
      rintro ⟨_, hfault, hkind⟩
      cases hfault
      exact ⟨fault, rfl, hkind⟩

/-- A chain is not refused for its structure if no step of it is. -/
theorem bind (hfirst : WithinLevels r) (hnext : ∀ a, r = .ok a → WithinLevels (f a)) :
    WithinLevels (r.bind f) := by
  cases r with
  | ok a => exact hnext a rfl
  | error fault =>
      rintro ⟨_, hfault, hkind⟩
      cases hfault
      exact hfirst ⟨fault, rfl, hkind⟩

/-- What is made of a result that is no such refusal is none either. -/
theorem map (g : α → β) (h : WithinLevels r) : WithinLevels (r.map g) := by
  cases r with
  | ok a => exact ok (g a)
  | error fault =>
      rintro ⟨_, hfault, hkind⟩
      cases hfault
      exact h ⟨fault, rfl, hkind⟩

/-- If a chain is not refused for its structure, neither is its first step. -/
theorem of_bind (h : WithinLevels (r.bind f)) : WithinLevels r := by
  rintro ⟨fault, rfl, hkind⟩
  exact h ⟨fault, rfl, hkind⟩

/-- If what is made of a result is no such refusal, neither is the result. -/
theorem of_map {g : α → β} (h : WithinLevels (r.map g)) : WithinLevels r :=
  fun hfails => h (hfails.map g)

end WithinLevels

namespace Stands

variable {α β : Type} {r s : Except ParseError α} {f g : α → Except ParseError β}

theorem refl (r : Except ParseError α) : Stands r r :=
  fun _ => rfl

/-- A result stands wherever it is said to be. -/
theorem located (scope : Scope) (h : Stands r s) : Stands (located scope r) (located scope s) := by
  intro hwithin
  rw [h (WithinLevels.located_iff.mp hwithin)]

theorem map (k : α → β) (h : Stands r s) : Stands (r.map k) (s.map k) := by
  intro hwithin
  rw [h hwithin.of_map]

/-- A chain stands if its steps do. -/
theorem bind (hfirst : Stands r s) (hnext : ∀ a, r = .ok a → Stands (f a) (g a)) :
    Stands (r.bind f) (s.bind g) := by
  intro hwithin
  rw [hfirst hwithin.of_bind]
  cases r with
  | ok a => exact hnext a rfl hwithin
  | error fault => rfl

end Stands

section Higher

/-- Whatever the first reader makes of fields stands in the second. -/
def StandsIn (read read' : FieldReader) : Prop :=
  ∀ (ds : List FieldDef) (buffer : Bytes), Stands (read ds buffer) (read' ds buffer)

variable {read read' : FieldReader}

/-- Fields stand if each of them does. -/
theorem readEach_stands {one one' : FieldType → Cursor → Except ParseError (Field × Cursor)}
    (hone : ∀ type c, Stands (one type c) (one' type c)) (ds : List FieldDef) (c : Cursor) :
    Stands (readEach one ds c) (readEach one' ds c) := by
  induction ds generalizing c with
  | nil => exact .refl _
  | cons d ds ih =>
      rw [readEach_cons_eq_bind, readEach_cons_eq_bind]
      by_cases hempty : c.rest = []
      · rw [if_pos hempty, if_pos hempty]
        by_cases hoptional : d.optional = true
        · rw [if_pos hoptional, if_pos hoptional]
          exact ih c
        · rw [if_neg hoptional, if_neg hoptional]
          exact .refl _
      · rw [if_neg hempty, if_neg hempty]
        refine ((hone d.type c).located _).bind ?_
        rintro ⟨f, next⟩ -
        exact (ih next).map _

/-- An element stands if its fields do: its index and its block know no levels. -/
theorem readElement_stands (hstands : StandsIn read read') (layout : List FieldDef) (c : Cursor) :
    Stands (readElement read layout c) (readElement read' layout c) := by
  rw [readElement_eq_bind, readElement_eq_bind]
  refine (Stands.refl _).bind ?_
  rintro ⟨index, place⟩ -
  refine (Stands.refl _).bind ?_
  rintro ⟨body, next⟩ -
  exact ((hstands layout body).bind fun _ _ => .refl _).located _

/-- Elements stand, as many as the octets hold. -/
theorem readElements_stands (hstands : StandsIn read read') (layout : List FieldDef) (count : Nat)
    (c : Cursor) :
    Stands (readElements read layout count c) (readElements read' layout count c) := by
  induction hsize : c.rest.length using Nat.strongRecOn generalizing count c with
  | ind size ih =>
      rw [readElements_eq_bind, readElements_eq_bind]
      by_cases hempty : c.rest = []
      · rw [if_pos hempty, if_pos hempty]
        exact .refl _
      · rw [if_neg hempty, if_neg hempty]
        refine ((readElement_stands hstands layout c).located _).bind ?_
        rintro ⟨e, next⟩ helement
        have hshorter := readElement_shorter (located_eq_ok_iff.mp helement)
        exact (ih next.rest.length (hsize ▸ hshorter) (count + 1) next rfl).map _

/-- An array stands if its elements do. -/
theorem readArray_stands (hstands : StandsIn read read') (layout : List FieldDef) (c : Cursor) :
    Stands (readArray read layout c) (readArray read' layout c) := by
  rw [readArray_eq_bind, readArray_eq_bind]
  refine (Stands.refl _).bind ?_
  rintro ⟨body, next⟩ -
  exact (readElements_stands hstands layout 0 (.start body)).map _

/-- A frame stands if its payload does: headers and schemas know no levels. -/
theorem readFrame_stands (hstands : StandsIn read read') (r : Registry) (octets : Bytes) :
    Stands (readFrame r read octets) (readFrame r read' octets) := by
  rw [readFrame_eq_bind, readFrame_eq_bind]
  refine (Stands.refl _).bind ?_
  rintro ⟨header, payload, rest⟩ -
  refine (Stands.refl _).bind ?_
  intro entry _
  exact ((hstands entry.fields payload).bind fun _ _ => .refl _).located _

variable {r : Registry} {limit limit' : Nat}

/-- What one decoder reads in a field stands in another that has a level left wherever the first
one has. -/
theorem readField_stands {inner inner' : Option FieldReader}
    (hinner : ∀ read, inner = some read → ∃ read', inner' = some read' ∧ StandsIn read read')
    (type : FieldType) (c : Cursor) :
    Stands (Decoder.readField ⟨r, limit⟩ inner type c)
      (Decoder.readField ⟨r, limit'⟩ inner' type c) := by
  by_cases hcomposite : type.isComposite = true
  · cases hsome : inner with
    | none =>
        -- Without a level left the first decoder refuses the field for its nesting.
        have hdeep : FailsAs (Decoder.readField ⟨r, limit⟩ none type c) .invalidStructure := by
          cases type with
          | array | message => exact FailsAs.refuse (.tooDeep limit)
          | uint | int | bool | text | bytes | enum => cases hcomposite
        exact fun hwithin => absurd hdeep hwithin
    | some read =>
        obtain ⟨read', hsome', hstands⟩ := hinner read hsome
        rw [hsome']
        cases type with
        | array layout => exact (readArray_stands hstands layout c).map _
        | message => exact (readFrame_stands hstands r c.rest).map _
        | uint | int | bool | text | bytes | enum => cases hcomposite
  · have hplain : type.isComposite = false := Bool.eq_false_iff.mpr hcomposite
    rw [Decoder.readField_scalar hplain, Decoder.readField_scalar hplain]
    exact .refl _

/-- **What is read with some levels left stands with more of them**, whatever the limits are that
the refusals tell. -/
theorem readFields_stands {levels levels' : Nat} (hmore : levels ≤ levels') :
    StandsIn (Decoder.readFields ⟨r, limit⟩ levels) (Decoder.readFields ⟨r, limit'⟩ levels') := by
  induction levels generalizing levels' with
  | zero =>
      intro ds buffer
      rw [Decoder.readFields_eq, Decoder.readFields_eq]
      refine (readEach_stands (readField_stands ?_) ds _).map _
      intro read hnone
      cases hnone
  | succ levels ih =>
      obtain ⟨below, rfl⟩ : ∃ below, levels' = below + 1 := ⟨levels' - 1, by omega⟩
      have hbelow := ih (Nat.le_of_succ_le_succ hmore)
      intro ds buffer
      rw [Decoder.readFields_eq, Decoder.readFields_eq]
      refine (readEach_stands (readField_stands ?_) ds _).map _
      intro read hread
      cases hread
      exact ⟨_, rfl, hbelow⟩

end Higher

section Enough

/-- Octets that are missing are no matter of structure. -/
theorem Cursor.take_within (c : Cursor) (count : Nat) (part : Part) :
    WithinLevels (c.take count part) := by
  rw [Cursor.take]
  split
  · exact .ok _
  · exact .refuse (by simp [ParseError.Cause.kind])

theorem Cursor.takeOctet_within (c : Cursor) (part : Part) : WithinLevels (c.takeOctet part) := by
  rw [Cursor.takeOctet]
  split
  · exact .ok _
  · exact .refuse (by simp [ParseError.Cause.kind])

theorem Cursor.takeBlock_within (c : Cursor) (length body : Part) :
    WithinLevels (c.takeBlock length body) :=
  ((c.take_within 2 length).map _).bind fun _ _ => Cursor.take_within _ _ _

/-- A value without fields is never refused for the structure. -/
theorem Scalar.decode_within {type : FieldType} (c : Cursor) (hplain : type.isComposite = false) :
    WithinLevels (Scalar.decode c type) := by
  cases type with
  | uint | int => exact (c.take_within _ _).map _
  | bool | enum => exact (c.takeOctet_within _).map _
  | bytes => exact (c.takeBlock_within _ _).map _
  | text =>
      refine (c.takeBlock_within _ _).bind ?_
      rintro ⟨octets, next⟩ -
      dsimp only
      split
      · exact .ok _
      · exact .refuse (by simp [ParseError.Cause.kind])
  | array | message => cases hplain

/-- No header is refused for the structure. -/
theorem Header.parse_within (octets : Bytes) : WithinLevels (Header.parse octets) := by
  by_cases hwhole : headerSize + Header.declared octets ≤ octets.length
  · rcases Header.parse_whole hwhole with ⟨h, payload, rest, hparse⟩ | hfails
    · rw [hparse]
      exact .ok _
    · exact .of_failsAs hfails (by decide)
  · exact .of_failsAs (Header.parse_cut (Nat.lt_of_not_le hwhole)) (by decide)

/-- Nor is a message that no schema knows. -/
theorem Registry.lookup_within (r : Registry) (serviceId messageId : UInt8) :
    WithinLevels (r.lookup serviceId messageId) := by
  rw [Registry.lookup]
  split
  · exact .ok _
  · split <;> exact .refuse (by simp [ParseError.Cause.kind])

/-- The reader meets no limit in buffers of at most so many octets. -/
def EnoughFor (size : Nat) (read : FieldReader) : Prop :=
  ∀ (ds : List FieldDef) (buffer : Bytes), buffer.length ≤ size → WithinLevels (read ds buffer)

variable {read : FieldReader} {size : Nat}

/-- Fields meet no limit if none of them does in the octets that are left for it. -/
theorem readEach_within {one : FieldType → Cursor → Except ParseError (Field × Cursor)}
    (hone : ∀ (type : FieldType) (c : Cursor), c.rest ≠ [] → c.rest.length ≤ size →
      WithinLevels (one type c)
        ∧ ∀ (f : Field) (next : Cursor), one type c = .ok (f, next) →
          next.rest.length ≤ c.rest.length)
    (ds : List FieldDef) {c : Cursor} (hfits : c.rest.length ≤ size) :
    WithinLevels (readEach one ds c) := by
  induction ds generalizing c with
  | nil => exact .ok _
  | cons d ds ih =>
      rw [readEach_cons_eq_bind]
      by_cases hempty : c.rest = []
      · rw [if_pos hempty]
        split
        · exact ih hfits
        · exact .refuse (by simp [ParseError.Cause.kind])
      · rw [if_neg hempty]
        obtain ⟨hwithin, hshrinks⟩ := hone d.type c hempty hfits
        refine (WithinLevels.located_iff.mpr hwithin).bind ?_
        rintro ⟨f, next⟩ hread
        have hless := hshrinks f next (located_eq_ok_iff.mp hread)
        exact (ih (Nat.le_trans hless hfits)).map _

/-- The body of an element is shorter than what the element is read from. -/
theorem readElement_within (hread : EnoughFor size read) (layout : List FieldDef) {c : Cursor}
    (hfits : c.rest.length ≤ size + 1) : WithinLevels (readElement read layout c) := by
  rw [readElement_eq_bind]
  refine (c.takeOctet_within _).bind ?_
  rintro ⟨index, place⟩ hindex
  obtain ⟨hfront, -⟩ := Cursor.rest_of_takeOctet hindex
  refine (place.takeBlock_within _ _).bind ?_
  rintro ⟨body, next⟩ hblock
  obtain ⟨hlength, -⟩ := Cursor.rest_of_takeBlock hblock
  have hbody : body.length ≤ size := by
    rw [hfront, List.length_cons] at hfits
    omega
  refine WithinLevels.located_iff.mpr ((hread layout body hbody).bind ?_)
  rintro ⟨fields, taken⟩ -
  dsimp only
  split
  · exact .ok _
  · exact .refuse (by simp [ParseError.Cause.kind])

/-- Elements meet no limit if the octets behind an index and a length suffice for what is in them.
-/
theorem readElements_within (hread : EnoughFor size read) (layout : List FieldDef) (count : Nat)
    {c : Cursor} (hfits : c.rest.length ≤ size + 1) :
    WithinLevels (readElements read layout count c) := by
  induction hlength : c.rest.length using Nat.strongRecOn generalizing count c with
  | ind length ih =>
      rw [readElements_eq_bind]
      split
      · exact .ok _
      · refine (WithinLevels.located_iff.mpr (readElement_within hread layout hfits)).bind ?_
        rintro ⟨e, next⟩ helement
        have hshorter := readElement_shorter (located_eq_ok_iff.mp helement)
        exact (ih next.rest.length (hlength ▸ hshorter) (count + 1) (by omega) rfl).map _

/-- An array meets no limit if its body is no longer than was provided for. -/
theorem readArray_within (hread : EnoughFor size read) (layout : List FieldDef) {c : Cursor}
    (hfits : c.rest.length ≤ size + 1) : WithinLevels (readArray read layout c) := by
  rw [readArray_eq_bind]
  refine (c.takeBlock_within _ _).bind ?_
  rintro ⟨body, next⟩ hblock
  obtain ⟨hlength, -⟩ := Cursor.rest_of_takeBlock hblock
  have hbody : (Cursor.start body).rest.length ≤ size + 1 := by
    change body.length ≤ size + 1
    omega
  exact (readElements_within hread layout 0 hbody).map _

/-- The payload of a frame is shorter than the frame. -/
theorem readFrame_within (hread : EnoughFor size read) (r : Registry) {octets : Bytes}
    (hfits : octets.length ≤ size + 1) : WithinLevels (readFrame r read octets) := by
  rw [readFrame_eq_bind]
  refine (Header.parse_within octets).bind ?_
  rintro ⟨header, payload, rest⟩ hparse
  obtain ⟨-, -, hframe⟩ := Header.framed_of_parse hparse
  have hpayload : payload.length ≤ size := by
    rw [hframe, List.length_append, Header.length_framed] at hfits
    omega
  refine (r.lookup_within _ _).bind ?_
  intro entry _
  refine WithinLevels.located_iff.mpr ((hread entry.fields payload hpayload).bind ?_)
  rintro ⟨fields, taken⟩ -
  dsimp only
  split
  · exact .ok _
  · exact .refuse (by simp [ParseError.Cause.kind])

variable {d : Decoder}

/-- A field is read out of octets that are left, and what is inside it out of fewer. -/
theorem readField_within {below : Nat} (hread : EnoughFor below (d.readFields below))
    (type : FieldType) {c : Cursor} (hfits : c.rest.length ≤ below + 1) :
    WithinLevels (d.readField (d.inner (below + 1)) type c) := by
  by_cases hcomposite : type.isComposite = true
  · cases type with
    | array layout => exact (readArray_within hread layout hfits).map _
    | message => exact (readFrame_within hread d.registry hfits).map _
    | uint | int | bool | text | bytes | enum => cases hcomposite
  · have hplain : type.isComposite = false := Bool.eq_false_iff.mpr hcomposite
    rw [Decoder.readField_scalar hplain]
    exact (Scalar.decode_within c hplain).map _

/-- What is left behind a field is no more than was left in front of it. -/
theorem readField_shrinks {levels : Nat} {type : FieldType} {c next : Cursor} {f : Field}
    (hread : d.readField (d.inner levels) type c = .ok (f, next)) :
    next.rest.length ≤ c.rest.length := by
  obtain ⟨octets, truths, -, hrest, -, -⟩ := soundField_inner levels type c f next hread
  rw [hrest, List.length_append]
  exact Nat.le_add_left _ _

/-- **As many levels as octets are enough.** -/
theorem readFields_within (levels : Nat) : EnoughFor levels (d.readFields levels) := by
  induction levels with
  | zero =>
      intro ds buffer hfits
      rw [Decoder.readFields_eq]
      refine (readEach_within ?_ ds hfits).map _
      -- There is nothing in the buffer to read a field from.
      intro type c hleft hnone
      exact absurd (List.length_eq_zero_iff.mp (Nat.le_zero.mp hnone)) hleft
  | succ below ih =>
      intro ds buffer hfits
      rw [Decoder.readFields_eq]
      refine (readEach_within ?_ ds hfits).map _
      intro type c _ hsize
      exact ⟨readField_within ih type hsize, fun f next => readField_shrinks⟩

end Enough

variable {r : Registry} {octets : Bytes} {limit limit' : Nat}

/-- A higher limit does not change how a frame is read off the front. -/
theorem decodePrefix_stands (hmore : limit ≤ limit') (octets : Bytes) :
    Stands (Decoder.decodePrefix ⟨r, limit⟩ octets) (Decoder.decodePrefix ⟨r, limit'⟩ octets) :=
  readFrame_stands (readFields_stands hmore) r octets

/-- As many levels as octets are enough to read a frame off the front. -/
theorem decodePrefix_within (hmore : octets.length ≤ limit) :
    WithinLevels (Decoder.decodePrefix ⟨r, limit⟩ octets) :=
  readFrame_within (readFields_within limit) r (Nat.le_succ_of_le hmore)

/-- A message that was read keeps the limit. -/
theorem nesting_of_decodePrefix {m : Message} {size : Nat}
    (hread : Decoder.decodePrefix ⟨r, limit⟩ octets = .ok (m, size)) : m.nesting ≤ limit := by
  have hsound : Sound r limit (Decoder.readFields ⟨r, limit⟩ limit) := sound_readFields limit
  obtain ⟨frame, truths, rest, -, -, -, hdepth⟩ := spells_of_readFrame hsound hread
  exact hdepth

/-- A higher limit does not change how a frame is decoded. -/
theorem decode_stands (hmore : limit ≤ limit') (octets : Bytes) :
    Stands (Decoder.decode ⟨r, limit⟩ octets) (Decoder.decode ⟨r, limit'⟩ octets) := by
  rw [Decoder.decode_eq_bind, Decoder.decode_eq_bind]
  exact (decodePrefix_stands hmore octets).bind fun _ _ => .refl _

/-- As many levels as octets are enough to decode a frame. -/
theorem decode_within (hmore : octets.length ≤ limit) :
    WithinLevels (Decoder.decode ⟨r, limit⟩ octets) := by
  rw [Decoder.decode_eq_bind]
  refine (decodePrefix_within hmore).bind ?_
  rintro ⟨m, size⟩ -
  dsimp only
  split
  · exact .ok m
  · exact .refuse (by simp [ParseError.Cause.kind])

/-- **The limit only rejects**, and the octets bound the recursion themselves.  What is not refused
for its structure is answered alike under every higher limit; a message that was read nests no
deeper than the limit; where the limit is no less than the number of octets nothing is refused for
its structure.  So a higher limit than that changes nothing, and a stack with a level for each
octet is enough under all of them. -/
theorem limit_only_rejects (r : Registry) (octets : Bytes) :
    (∀ limit limit', limit ≤ limit' →
      (¬ FailsAs (Decoder.decodePrefix ⟨r, limit⟩ octets) .invalidStructure →
        Decoder.decodePrefix ⟨r, limit'⟩ octets = Decoder.decodePrefix ⟨r, limit⟩ octets)
      ∧ (¬ FailsAs (Decoder.decode ⟨r, limit⟩ octets) .invalidStructure →
        Decoder.decode ⟨r, limit'⟩ octets = Decoder.decode ⟨r, limit⟩ octets))
    ∧ (∀ limit m,
      (∀ size, Decoder.decodePrefix ⟨r, limit⟩ octets = .ok (m, size) → m.nesting ≤ limit)
      ∧ (Decoder.decode ⟨r, limit⟩ octets = .ok m → m.nesting ≤ limit))
    ∧ (∀ limit, octets.length ≤ limit →
      ¬ FailsAs (Decoder.decodePrefix ⟨r, limit⟩ octets) .invalidStructure
      ∧ ¬ FailsAs (Decoder.decode ⟨r, limit⟩ octets) .invalidStructure
      ∧ Decoder.decodePrefix ⟨r, limit⟩ octets = Decoder.decodePrefix ⟨r, octets.length⟩ octets
      ∧ Decoder.decode ⟨r, limit⟩ octets = Decoder.decode ⟨r, octets.length⟩ octets)
    ∧ (octets.length < UInt64.size → ∀ limit : UInt64,
      Wordwise.decode r limit octets = .ended (Decoder.decode ⟨r, limit.toNat⟩ octets)) := by
  refine ⟨?_, ?_, ?_, ?_⟩
  · intro limit limit' hmore
    exact ⟨decodePrefix_stands hmore octets, decode_stands hmore octets⟩
  · intro limit m
    exact ⟨fun _ => nesting_of_decodePrefix, fun hread => (decode_eq_ok_iff.mp hread).2⟩
  · intro limit hmore
    exact ⟨decodePrefix_within hmore, decode_within hmore,
      decodePrefix_stands hmore octets (decodePrefix_within (Nat.le_refl _)),
      decode_stands hmore octets (decode_within (Nat.le_refl _))⟩
  · intro hsmall limit
    exact Wordwise.decode_eq_ended hsmall

/-- An envelope in another is refused where nothing may nest, and read alike from one level on. -/
theorem limit_only_rejects_envelope :
    let octets : Bytes := [1, 1, 0, 8, 184, 212, 1, 1, 1, 0, 1, 238, 249, 1]
    FailsAs (Decoder.decode ⟨envelopes, 0⟩ octets) .invalidStructure
      ∧ (∀ limit, 1 ≤ limit → Decoder.decode ⟨envelopes, limit⟩ octets = .ok (envelope 1))
      ∧ (envelope 1).nesting ≤ 1
      ∧ ¬ FailsAs (Decoder.decode ⟨envelopes, 14⟩ octets) .invalidStructure
      ∧ Wordwise.decode envelopes 18446744073709551615 octets = .ended (.ok (envelope 1)) := by
  intro octets
  obtain ⟨hstands, hnesting, henough, hwords⟩ := limit_only_rejects envelopes octets
  have hread : Decoder.decode ⟨envelopes, 1⟩ octets = .ok (envelope 1) := by decide +kernel
  have hlater : ∀ limit, 1 ≤ limit →
      Decoder.decode ⟨envelopes, limit⟩ octets = .ok (envelope 1) := by
    intro limit hmore
    refine ((hstands 1 limit hmore).2 ?_).trans hread
    exact fun hfails => hfails.ne_ok _ hread
  refine ⟨?_, hlater, (hnesting 1 _).2 hread, (henough 14 (by decide)).2.1, ?_⟩
  · obtain ⟨⟨truths, hspells⟩, -⟩ := decode_eq_ok_iff.mp hread
    exact decode_too_deep hspells (by rw [nesting_envelope]; decide)
  · rw [hwords (by decide), hlater _ (by decide)]

end SatWire
