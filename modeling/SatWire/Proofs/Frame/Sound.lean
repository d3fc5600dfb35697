import SatWire.Proofs.Frame.Reading
import SatWire.Proofs.Frame.Steps

/-!
# What is read is spelled

The converse of reading what is spelled: an octet string that a decoder accepts is the spelling of
the message that it returns, down to the last octet.  Nothing is skipped and nothing is read twice,
so every accepted octet string, from whatever source, has a derivation in the grammar.  With the
other direction, a decoder accepts the grammar down to its limit and nothing else
(`decode_eq_ok_iff`).

The induction follows the decoder.  `Sound` is what a reader of fields owes one level up, and
`sound_readFields` discharges it level by level; within one level the definitions, and in an array
the octets left, are walked through in order.
-/

namespace SatWire

variable {r : Registry} {levels : Nat}

/-- Whatever the reader takes up wholly is spelled, and nests no deeper than so many levels. -/
def Sound (r : Registry) (levels : Nat) (read : FieldReader) : Prop :=
  ∀ (ds : List FieldDef) (buffer : Bytes) (fs : List Field),
    read ds buffer = .ok (fs, buffer.length) →
      (∃ truths, SpellsFields r buffer ds fs truths) ∧ Field.deepest fs ≤ levels

/-- Whatever single field is read stood in front of what is left, and nests no deeper than so many
levels. -/
def SoundField (r : Registry) (levels : Nat)
    (one : FieldType → Cursor → Except ParseError (Field × Cursor)) : Prop :=
  ∀ (type : FieldType) (c : Cursor) (f : Field) (next : Cursor), one type c = .ok (f, next) →
    ∃ octets truths, SpellsField r octets type f truths ∧ c.rest = octets ++ next.rest
      ∧ next.offset = c.offset + octets.length ∧ f.nesting ≤ levels

/-- At the end of a buffer no field is read, and every definition left is optional. -/
theorem readEach_of_empty {one : FieldType → Cursor → Except ParseError (Field × Cursor)}
    {ds : List FieldDef} {c last : Cursor} {fs : List Field} (hempty : c.rest = [])
    (hread : readEach one ds c = .ok (fs, last)) :
    (∀ d ∈ ds, d.optional = true) ∧ fs = [] ∧ last = c := by
  induction ds with
  | nil =>
      cases hread
      exact ⟨fun _ hmem => absurd hmem List.not_mem_nil, rfl, rfl⟩
  | cons d ds ih =>
      rw [readEach, hempty] at hread
      simp only [List.isEmpty_nil, if_true] at hread
      by_cases hoptional : d.optional = true
      · rw [if_pos hoptional] at hread
        obtain ⟨hothers, hnone, hplace⟩ := ih hread
        exact ⟨List.forall_mem_cons.mpr ⟨hoptional, hothers⟩, hnone, hplace⟩
      · rw [if_neg hoptional] at hread
        exact absurd hread refuse_ne_ok

/-- **Fields that are read are spelled**, if each is. -/
theorem spells_of_readEach {one : FieldType → Cursor → Except ParseError (Field × Cursor)}
    (hone : SoundField r levels one) {ds : List FieldDef} {c last : Cursor} {fs : List Field}
    (hread : readEach one ds c = .ok (fs, last)) :
    ∃ octets truths, SpellsFields r octets ds fs truths ∧ c.rest = octets ++ last.rest
      ∧ last.offset = c.offset + octets.length ∧ Field.deepest fs ≤ levels := by
  induction ds generalizing c fs with
  | nil =>
      cases hread
      exact ⟨[], [], .nil fun _ hmem => absurd hmem List.not_mem_nil, rfl, rfl, Nat.zero_le _⟩
  | cons d ds ih =>
      by_cases hempty : c.rest = []
      · obtain ⟨hoptional, rfl, rfl⟩ := readEach_of_empty hempty hread
        exact ⟨[], [], .nil hoptional, rfl, rfl, Nat.zero_le _⟩
      · have hsome : c.rest.isEmpty = false := List.isEmpty_eq_false_iff.mpr hempty
        rw [readEach, hsome] at hread
        simp only [Bool.false_eq_true, if_false] at hread
        split at hread
        · cases hread
        · rename_i f next hfield
          obtain ⟨⟨others, place⟩, hothers, heq⟩ := map_eq_ok_iff.mp hread
          obtain ⟨rfl, rfl⟩ := Prod.mk.inj heq
          obtain ⟨first, t, hfirst, hfront, hnext, hdepth⟩ :=
            hone d.type c f next (located_eq_ok_iff.mp hfield)
          obtain ⟨rest, u, hrest, hback, hlast, hdepths⟩ := ih hothers
          refine ⟨first ++ rest, t ++ u, .cons first rest hfirst hrest, ?_, ?_, ?_⟩
          · rw [hfront, hback, List.append_assoc]
          · rw [hlast, hnext, List.length_append, Nat.add_assoc]
          · rw [Field.deepest]
            exact Nat.max_le.mpr ⟨hdepth, hdepths⟩

section Inner

variable {read : FieldReader}

/-- An element that was read stood in front of what is left: its index, and the block of its fields.
-/
theorem spells_of_readElement (hsound : Sound r levels read) {layout : List FieldDef}
    {c next : Cursor} {e : Element} (hread : readElement read layout c = .ok (e, next)) :
    ∃ body truths, SpellsFields r body layout e.fields truths ∧ body.length ≤ maxLength
      ∧ c.rest = e.index :: (block body ++ next.rest)
      ∧ next.offset = c.offset + 1 + (block body).length ∧ e.nesting ≤ levels := by
  rw [readElement_eq_bind] at hread
  obtain ⟨⟨index, place⟩, hindex, hread⟩ := bind_eq_ok_iff.mp hread
  obtain ⟨⟨body, behind⟩, hblock, hread⟩ := bind_eq_ok_iff.mp hread
  obtain ⟨⟨fields, taken⟩, hfields, hread⟩ := bind_eq_ok_iff.mp (located_eq_ok_iff.mp hread)
  obtain ⟨rfl, heq⟩ := ite_refuse_eq_ok_iff.mp hread
  obtain ⟨rfl, rfl⟩ := Prod.mk.inj heq
  obtain ⟨hfront, hplace⟩ := Cursor.rest_of_takeOctet hindex
  obtain ⟨hshort, hback, hnext⟩ := Cursor.block_of_takeBlock hblock
  obtain ⟨⟨truths, hspells⟩, hdepth⟩ := hsound _ _ _ hfields
  exact ⟨body, truths, hspells, hshort, by rw [hfront, hback], by rw [hnext, hplace], hdepth⟩

/-- **Elements that are read are spelled.**  The induction is on the octets left, as the reader's
recursion is. -/
theorem spells_of_readElements (hsound : Sound r levels read) {layout : List FieldDef}
    (count : Nat) (c : Cursor) {es : List Element}
    (hread : readElements read layout count c = .ok es) :
    (∃ truths, SpellsElements r c.rest layout es truths) ∧ Element.deepest es ≤ levels := by
  induction hsize : c.rest.length using Nat.strongRecOn generalizing count c es with
  | ind size ih =>
      rw [readElements] at hread
      by_cases hempty : c.rest = []
      · simp only [hempty, List.isEmpty_nil, if_true] at hread
        cases hread
        exact ⟨⟨[], by rw [hempty]; exact .nil⟩, Nat.zero_le _⟩
      · have hsome : c.rest.isEmpty = false := List.isEmpty_eq_false_iff.mpr hempty
        simp only [hsome, Bool.false_eq_true, if_false] at hread
        split at hread
        · cases hread
        · rename_i e next helement
          obtain ⟨others, hothers, rfl⟩ := map_eq_ok_iff.mp hread
          have hshorter := readElement_shorter helement
          obtain ⟨⟨u, hrest⟩, hdepths⟩ :=
            ih next.rest.length (hsize ▸ hshorter) (count + 1) next hothers rfl
          obtain ⟨body, t, hfields, hshort, hfront, -, hdepth⟩ :=
            spells_of_readElement hsound helement
          obtain ⟨index, fields⟩ := e
          refine ⟨⟨t ++ u, ?_⟩, ?_⟩
          · rw [hfront]
            exact .cons index body next.rest hfields hshort hrest
          · rw [Element.deepest]
            exact Nat.max_le.mpr ⟨hdepth, hdepths⟩

/-- **A frame that is read is spelled.** -/
theorem spells_of_readFrame (hsound : Sound r levels read) {octets : Bytes} {m : Message}
    {size : Nat} (hread : readFrame r read octets = .ok (m, size)) :
    ∃ frame truths rest, SpellsMessage r frame m truths ∧ octets = frame ++ rest
      ∧ size = frame.length ∧ m.nesting ≤ levels := by
  rw [readFrame_eq_bind] at hread
  obtain ⟨⟨header, payload, rest⟩, hparse, hread⟩ := bind_eq_ok_iff.mp hread
  obtain ⟨entry, hlookup, hread⟩ := bind_eq_ok_iff.mp hread
  obtain ⟨⟨fields, taken⟩, hfields, hread⟩ := bind_eq_ok_iff.mp (located_eq_ok_iff.mp hread)
  obtain ⟨rfl, heq⟩ := ite_refuse_eq_ok_iff.mp hread
  obtain ⟨rfl, rfl⟩ := Prod.mk.inj heq
  obtain ⟨hshort, hheader, hframe⟩ := Header.framed_of_parse hparse
  obtain ⟨⟨truths, hspells⟩, hdepth⟩ := hsound _ _ _ hfields
  refine ⟨_, truths, rest, .framed hlookup hspells hshort, hframe, ?_, hdepth⟩
  rw [← Header.frameLength_ofFitting hshort, ← hheader]

end Inner

variable {d : Decoder}

/-- **A field that is read is spelled**, if the readers further down are sound. -/
theorem soundField_readField
    (hinner : ∀ read, d.inner levels = some read →
      ∃ below, levels = below + 1 ∧ Sound d.registry below read) :
    SoundField d.registry levels (d.readField (d.inner levels)) := by
  intro type c f next hread
  by_cases hcomposite : type.isComposite = true
  · -- Without a reader further down an array or a message is refused, so there is one.
    obtain ⟨read, hsome⟩ : ∃ read, d.inner levels = some read := by
      cases hsome : d.inner levels with
      | none =>
          rw [hsome] at hread
          cases type with
          | array | message => exact absurd hread refuse_ne_ok
          | uint | int | bool | text | bytes | enum => cases hcomposite
      | some read => exact ⟨read, rfl⟩
    obtain ⟨below, rfl, hsound⟩ := hinner read hsome
    rw [hsome] at hread
    cases type with
    | array layout =>
        obtain ⟨⟨es, place⟩, harray, heq⟩ := map_eq_ok_iff.mp hread
        obtain ⟨rfl, rfl⟩ := Prod.mk.inj heq
        unfold readArray at harray
        split at harray
        · cases harray
        · rename_i body behind hblock
          obtain ⟨hshort, hrest, hoffset⟩ := Cursor.block_of_takeBlock hblock
          obtain ⟨_, helements, heq⟩ := map_eq_ok_iff.mp harray
          obtain ⟨rfl, rfl⟩ := Prod.mk.inj heq
          obtain ⟨⟨truths, hspells⟩, hdepth⟩ :=
            spells_of_readElements hsound 0 (.start body) helements
          refine ⟨block body, truths, .array hspells hshort, hrest, hoffset, ?_⟩
          rw [Field.nesting, Value.nesting]
          omega
    | message =>
        obtain ⟨⟨m, size⟩, hframe, heq⟩ := map_eq_ok_iff.mp hread
        obtain ⟨rfl, rfl⟩ := Prod.mk.inj heq
        obtain ⟨frame, truths, rest, hspells, hrest, rfl, hdepth⟩ :=
          spells_of_readFrame hsound hframe
        refine ⟨frame, truths, .message hspells, ?_, rfl, ?_⟩
        · rw [Cursor.skip, hrest, List.drop_left]
        · rw [Field.nesting, Value.nesting]
          omega
    | uint | int | bool | text | bytes | enum => cases hcomposite
  · have hplain : type.isComposite = false := Bool.eq_false_iff.mpr hcomposite
    rw [Decoder.readField_scalar hplain] at hread
    obtain ⟨⟨value, place⟩, hdecode, heq⟩ := map_eq_ok_iff.mp hread
    obtain ⟨rfl, rfl⟩ := Prod.mk.inj heq
    obtain ⟨octets, truths, hspells, hrest, hoffset⟩ := spells_of_decode hdecode
    refine ⟨octets, truths, .scalar hspells, hrest, hoffset, ?_⟩
    cases hspells <;> exact Nat.zero_le _

/-- Reading is sound at a level if it is one level further down. -/
theorem sound_of_inner
    (hinner : ∀ read, d.inner levels = some read →
      ∃ below, levels = below + 1 ∧ Sound d.registry below read) :
    Sound d.registry levels (d.readFields levels) := by
  intro ds buffer fs hread
  rw [d.readFields_eq] at hread
  obtain ⟨⟨_, last⟩, heach, heq⟩ := map_eq_ok_iff.mp hread
  obtain ⟨rfl, hwhole⟩ := Prod.mk.inj heq
  obtain ⟨octets, truths, hspells, hrest, hoffset, hdepth⟩ :=
    spells_of_readEach (soundField_readField hinner) heach
  -- The fields end where the buffer does, so they are the whole buffer.
  have hsame : octets = buffer := by
    have hsize := congrArg List.length hrest
    simp only [Cursor.start, List.length_append] at hsize hoffset
    have hnone : last.rest = [] := List.length_eq_zero_iff.mp (by omega)
    rw [hnone, List.append_nil] at hrest
    exact hrest.symm
  exact ⟨⟨truths, hsame ▸ hspells⟩, hdepth⟩

/-- **Readers of fields are sound**, with any number of levels left. -/
theorem sound_readFields (levels : Nat) : Sound d.registry levels (d.readFields levels) := by
  induction levels with
  | zero => exact sound_of_inner fun _ hnone => nomatch hnone
  | succ below ih =>
      exact sound_of_inner fun _ hsome => ⟨below, rfl, Option.some.inj hsome ▸ ih⟩

/-- **Readers of a field are sound**, with any number of levels left. -/
theorem soundField_inner (levels : Nat) :
    SoundField d.registry levels (d.readField (d.inner levels)) := by
  apply soundField_readField
  intro read hsome
  cases levels with
  | zero => cases hsome
  | succ below =>
      cases hsome
      exact ⟨below, rfl, sound_readFields below⟩

/-- **The decoder and the grammar.**  A decoder returns a message exactly for its spellings, if the
message nests no deeper than the decoder's limit. -/
theorem decode_eq_ok_iff {octets : Bytes} {m : Message} :
    d.decode octets = .ok m ↔
      (∃ truths, SpellsMessage d.registry octets m truths) ∧ m.nesting ≤ d.limit := by
  rw [Decoder.decode_eq_bind, Decoder.decodePrefix]
  constructor
  · intro hdecode
    obtain ⟨⟨found, size⟩, hread, hdecode⟩ := bind_eq_ok_iff.mp hdecode
    obtain ⟨hwhole, rfl⟩ := ite_refuse_eq_ok_iff.mp hdecode
    obtain ⟨frame, truths, rest, hspells, hsplit, rfl, hdepth⟩ :=
      spells_of_readFrame (sound_readFields d.limit) hread
    rw [hsplit, List.length_append] at hwhole
    have hnone : rest = [] := List.length_eq_zero_iff.mp (by omega)
    rw [hnone, List.append_nil] at hsplit
    exact ⟨⟨truths, hsplit ▸ hspells⟩, hdepth⟩
  · rintro ⟨⟨truths, hspells⟩, hdepth⟩
    have hread := hspells.read d.limit [] hdepth
    rw [List.append_nil] at hread
    rw [hread]
    exact if_pos rfl

/-- What a decoder returns is data. -/
theorem category_of_decode {octets : Bytes} {m : Message} (hdecode : d.decode octets = .ok m) :
    m.category = .data := by
  obtain ⟨⟨truths, hspells⟩, -⟩ := decode_eq_ok_iff.mp hdecode
  cases hspells with
  | framed hlookup hfields hshort => rfl

/-- **Too deep for the decoder.**  The spelling of a message that nests deeper than the limit is
refused, and for its structure. -/
theorem decode_too_deep {octets truths : Bytes} {m : Message}
    (hspells : SpellsMessage d.registry octets m truths) (hdepth : d.limit < m.nesting) :
    FailsAs (d.decode octets) .invalidStructure := by
  obtain ⟨fault, hfault, hkind⟩ := hspells.too_deep d.limit [] hdepth
  rw [List.append_nil] at hfault
  exact ⟨fault, by rw [Decoder.decode, Decoder.decodePrefix, hfault], hkind⟩

end SatWire
