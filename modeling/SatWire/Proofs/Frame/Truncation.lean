import SatWire.Proofs.Frame.Extension
import SatWire.Proofs.Frame.Size
import SatWire.Proofs.Frame.Steps

/-!
# Payloads cut short

A payload that a decoder accepts is the octets of its fields, one behind the other.  Of a payload cut
at the end of a field the fields before the cut are left, and a decoder takes them for the whole, if
nothing but optional definitions are left; otherwise it misses the field that must be there.  A cut
inside a field is told from both: every reader of a field finds out how much it needs before it looks
at what is there, and so fails for the size (`SpellsField.cut_short`).

* `SpellsFields.front` — the fields before a cut, spelled by what is left;
* `SpellsFields.missing`, `SpellsFields.cut_short` — the two ways to fail.
-/

namespace SatWire

namespace Cursor

variable {part length body : Part}

/-- A piece that is not wholly there is not taken. -/
theorem take_short {c : Cursor} {count : Nat} (hshort : c.rest.length < count) :
    FailsAs (c.take count part) .invalidSize := by
  have hpiece : ¬ (c.rest.take count).length = count := by
    rw [List.length_take]
    omega
  simp only [take, if_neg hpiece]
  exact .refuse _

/-- A block that is not wholly there is not taken, whether its length is cut or what follows it. -/
theorem takeBlock_short {octets front back : Bytes} (offset : Nat)
    (hshort : octets.length ≤ maxLength) (hback : back ≠ []) (hblock : block octets = front ++ back) :
    FailsAs ((Cursor.mk offset front).takeBlock length body) .invalidSize := by
  have hmissing := List.length_pos_iff.mpr hback
  have hsize := congrArg List.length hblock
  rw [length_block, List.length_append] at hsize
  by_cases hlength : front.length < 2
  · have htake : FailsAs ((Cursor.mk offset front).take 2 length) .invalidSize := take_short hlength
    exact (htake.map _).bind _
  · obtain ⟨rest, rfl⟩ : ∃ rest, front = BigEndian.ofNat 2 octets.length ++ rest := by
      have htwo := congrArg (List.take 2) hblock
      rw [block, List.take_left' (BigEndian.length_ofNat 2 _),
        List.take_append_of_le_length (by omega)] at htwo
      exact ⟨front.drop 2, by rw [htwo, List.take_append_drop]⟩
    rw [List.length_append, BigEndian.length_ofNat] at hsize
    rw [takeBlock, takeNat_ofNat offset rest (lt_wordCount_of_le hshort)]
    exact take_short (by simp only; omega)

end Cursor

/-- A part of a value's spelling that lacks something at the end is not read. -/
theorem SpellsScalar.cut_short {octets truths front back : Bytes} {type : FieldType} {value : Value}
    (h : SpellsScalar octets type value truths) (offset : Nat) (hback : back ≠ [])
    (hcut : octets = front ++ back) : FailsAs (Scalar.decode ⟨offset, front⟩ type) .invalidSize := by
  have hmissing := List.length_pos_iff.mpr hback
  have hsize := congrArg List.length hcut
  rw [List.length_append] at hsize
  cases h with
  | uint width n hfits =>
      rw [BigEndian.length_ofNat] at hsize
      exact (Cursor.take_short (by simp only; omega)).map _
  | int width n hlow hhigh =>
      rw [BigEndian.ofInt, BigEndian.length_ofNat] at hsize
      exact (Cursor.take_short (by simp only; omega)).map _
  | bool octet | enum n =>
      have hnone : front = [] := by
        rw [List.length_singleton] at hsize
        exact List.length_eq_zero_iff.mp (by omega)
      rw [hnone]
      exact .refuse _
  | text s hshort => exact (Cursor.takeBlock_short offset hshort hback hcut).bind _
  | bytes octets hshort => exact (Cursor.takeBlock_short offset hshort hback hcut).map _

variable {d : Decoder} {levels : Nat}

/-- **A field cut short.**  A part of a field's spelling that lacks something at the end fails for its
size, whatever the type of the field is. -/
theorem SpellsField.cut_short {octets truths front back : Bytes} {type : FieldType} {f : Field}
    (h : SpellsField d.registry octets type f truths) (offset : Nat) (hdepth : f.nesting ≤ levels)
    (hback : back ≠ []) (hcut : octets = front ++ back) :
    FailsAs (d.readField (d.inner levels) type ⟨offset, front⟩) .invalidSize := by
  cases h with
  | scalar hscalar =>
      rw [Decoder.readField_scalar hscalar.not_composite]
      exact (hscalar.cut_short offset hback hcut).map _
  | array helements hshort =>
      rw [Field.nesting, Value.nesting] at hdepth
      obtain ⟨below, rfl⟩ : ∃ below, levels = below + 1 := ⟨levels - 1, by omega⟩
      change FailsAs ((readArray (d.readFields below) _ _).map _) _
      have hblock : FailsAs ((Cursor.mk offset front).takeBlock .arrayLength .arrayBody) .invalidSize :=
        Cursor.takeBlock_short offset hshort hback hcut
      rw [readArray_eq_bind]
      exact (hblock.bind _).map _
  | message hmessage =>
      rw [Field.nesting, Value.nesting] at hdepth
      obtain ⟨below, rfl⟩ : ∃ below, levels = below + 1 := ⟨levels - 1, by omega⟩
      change FailsAs ((readFrame d.registry (d.readFields below) front).map _) _
      cases hmessage with
      | framed hlookup hfields hshort =>
          have hparse := Header.parse_part hshort hback hcut
          rw [readFrame_eq_bind]
          exact (hparse.bind _).map _

section Fields

/-- Fewer fields nest no deeper. -/
theorem Field.deepest_take_le (fs : List Field) (count : Nat) :
    Field.deepest (fs.take count) ≤ Field.deepest fs := by
  induction fs generalizing count with
  | nil => rw [List.take_nil]
  | cons f fs ih =>
      cases count with
      | zero => exact Nat.zero_le _
      | succ count =>
          have hrest := ih count
          rw [List.take_succ_cons, Field.deepest, Field.deepest]
          omega

/-- Every place before the end of the fields is in one of them. -/
theorem Field.exists_place {fs : List Field} {n : Nat} (hn : n < Field.totalSize fs) :
    ∃ count < fs.length, Field.totalSize (fs.take count) ≤ n
      ∧ n < Field.totalSize (fs.take (count + 1)) := by
  induction fs generalizing n with
  | nil => exact absurd hn (Nat.not_lt_zero n)
  | cons f fs ih =>
      by_cases hfirst : n < f.size
      · exact ⟨0, Nat.zero_lt_succ _, Nat.zero_le _, hfirst⟩
      · rw [Field.totalSize] at hn
        obtain ⟨count, hcount, hlow, hhigh⟩ := ih (n := n - f.size) (by omega)
        refine ⟨count + 1, Nat.succ_lt_succ hcount, ?_, ?_⟩
        · rw [List.take_succ_cons, Field.totalSize]
          omega
        · rw [List.take_succ_cons, Field.totalSize]
          omega

variable {octets truths : Bytes} {ds : List FieldDef} {fs : List Field}

/-- The first fields are spelled by the octets up to their end, along the first definitions. -/
theorem SpellsFields.front {r : Registry} (h : SpellsFields r octets ds fs truths) (count : Nat) :
    ∃ t, SpellsFields r (octets.take (Field.totalSize (fs.take count))) (ds.take count)
      (fs.take count) t := by
  induction fs generalizing octets truths ds count with
  | nil =>
      cases h with
      | nil hoptional =>
          rw [List.take_nil, List.take_nil]
          exact ⟨[], .nil fun d hd => hoptional d (List.mem_of_mem_take hd)⟩
  | cons f fs ih =>
      cases h with
      | cons first rest hfirst hrest =>
          cases count with
          | zero => exact ⟨[], .nil fun d hd => absurd hd List.not_mem_nil⟩
          | succ count =>
              obtain ⟨t, ht⟩ := ih hrest count
              rw [List.take_succ_cons, List.take_succ_cons, Field.totalSize, ← hfirst.length_eq,
                List.take_length_add_append]
              exact ⟨_, .cons first _ hfirst ht⟩

/-- Where nothing is left, a definition that is not optional is missed. -/
theorem readEach_missing {one : FieldType → Cursor → Except ParseError (Field × Cursor)}
    {offset : Nat} (hrequired : ∃ d ∈ ds, d.optional = false) :
    FailsAs (readEach one ds ⟨offset, []⟩) .missingField := by
  induction ds with
  | nil =>
      obtain ⟨d, hmem, -⟩ := hrequired
      exact absurd hmem List.not_mem_nil
  | cons d ds ih =>
      rw [readEach_cons_eq_bind, if_pos rfl]
      by_cases hoptional : d.optional = true
      · rw [if_pos hoptional]
        obtain ⟨e, hmem, he⟩ := hrequired
        rcases List.mem_cons.mp hmem with rfl | hlater
        · rw [hoptional] at he
          cases he
        · exact ih ⟨e, hlater, he⟩
      · rw [if_neg hoptional]
        exact .refuse _

/-- **Cut at the end of a field, too early.**  The fields before the cut are read, and the next
definition that must have a field is missed. -/
theorem SpellsFields.missing (h : SpellsFields d.registry octets ds fs truths) (offset : Nat)
    (hdepth : Field.deepest fs ≤ levels) {count : Nat}
    (hrequired : ∃ e ∈ ds.drop count, e.optional = false) :
    FailsAs (readEach (d.readField (d.inner levels)) ds
      ⟨offset, octets.take (Field.totalSize (fs.take count))⟩) .missingField := by
  induction fs generalizing octets truths ds offset count with
  | nil =>
      cases h with
      | nil hoptional =>
          obtain ⟨e, hmem, he⟩ := hrequired
          rw [hoptional e (List.mem_of_mem_drop hmem)] at he
          cases he
  | cons f fs ih =>
      cases h with
      | cons first rest hfirst hrest =>
          cases count with
          | zero => exact readEach_missing hrequired
          | succ count =>
              rw [Field.deepest, Nat.max_le] at hdepth
              rw [List.take_succ_cons, Field.totalSize, ← hfirst.length_eq,
                List.take_length_add_append]
              have hleft := hfirst.append_ne_nil (rest.take (Field.totalSize (fs.take count)))
              have hread := hfirst.read levels offset (rest.take (Field.totalSize (fs.take count)))
                hdepth.1
              have hfails := ih hrest (offset + first.length) hdepth.2 hrequired
              rw [readEach_cons hleft hread]
              exact hfails.map _

/-- **Cut inside a field.**  The fields before it are read, and the field itself fails for its
size. -/
theorem SpellsFields.cut_short (h : SpellsFields d.registry octets ds fs truths) (offset : Nat)
    (hdepth : Field.deepest fs ≤ levels) {count n : Nat} (hcount : count < fs.length)
    (hlow : Field.totalSize (fs.take count) < n)
    (hhigh : n < Field.totalSize (fs.take (count + 1))) :
    FailsAs (readEach (d.readField (d.inner levels)) ds ⟨offset, octets.take n⟩) .invalidSize := by
  induction fs generalizing octets truths ds offset count n with
  | nil => cases hcount
  | cons f fs ih =>
      cases h with
      | cons first rest hfirst hrest =>
          have hsize := hfirst.length_eq
          rw [Field.deepest, Nat.max_le] at hdepth
          cases count with
          | zero =>
              have hinside : n < first.length := by
                rw [List.take_succ_cons, List.take_zero, Field.totalSize, Field.totalSize] at hhigh
                omega
              have hleft : first.take n ≠ [] := by
                apply List.length_pos_iff.mp
                rw [List.length_take]
                omega
              have hback : first.drop n ≠ [] := by
                apply List.length_pos_iff.mp
                rw [List.length_drop]
                omega
              rw [List.take_append_of_le_length (Nat.le_of_lt hinside)]
              exact readEach_fails hleft (hfirst.cut_short offset hdepth.1 hback
                (List.take_append_drop n first).symm)
          | succ count =>
              rw [List.take_succ_cons, Field.totalSize] at hlow hhigh
              obtain ⟨beyond, rfl⟩ : ∃ beyond, n = first.length + beyond := ⟨n - f.size, by omega⟩
              have hleft := hfirst.append_ne_nil (rest.take beyond)
              have hread := hfirst.read levels offset (rest.take beyond) hdepth.1
              have hbelow : count < _ := Nat.lt_of_succ_lt_succ hcount
              have hfails := ih hrest (offset + first.length) hdepth.2 (n := beyond) hbelow
                (by omega) (by omega)
              rw [List.take_length_add_append, readEach_cons hleft hread]
              exact hfails.map _

end Fields

/-- A decoder fails where the reader of the payload's fields does, in the same way. -/
theorem decode_framed_fails {serviceId messageId : UInt8} {payload : Bytes} {entry : SchemaEntry}
    {kind : ParseError.Kind} (hlookup : d.registry.lookup serviceId messageId = .ok entry)
    (hfits : payload.length ≤ maxLength)
    (hfails : FailsAs (readEach (d.readField (d.inner d.limit)) entry.fields ⟨0, payload⟩) kind) :
    FailsAs (d.decode (Header.framed serviceId messageId payload)) kind := by
  have hframe := readFrame_fails hlookup hfits (Decoder.readFields_fails hfails) []
  rw [List.append_nil] at hframe
  rw [Decoder.decode_eq_bind]
  exact hframe.bind _

/-- **Every cut of a payload.**  A payload that is accepted in its frame ends with its last field, and
each field before ends where writing the fields up to it would end.

A cut somewhere before the end of the payload, put into a frame of its own, is at the end of a field or
inside one.  At the end of a field the fields before the cut come back, and no others, if all
definitions behind them are optional, and otherwise a field is missing.  Inside a field the size is
wrong. -/
theorem cut_payload {serviceId messageId : UInt8} {payload frame : Bytes} {m : Message}
    (hframe : Header.assemble serviceId messageId payload = .ok frame)
    (hdecode : d.decode frame = .ok m) :
    ∃ entry, d.registry.lookup serviceId messageId = .ok entry
      ∧ Field.totalSize m.fields = payload.length
      ∧ (∀ j, ∃ octets, Field.encodeEach 0 (m.fields.take j) = .ok octets
        ∧ octets.length = Field.totalSize (m.fields.take j))
      ∧ ∀ n < payload.length, ∃ cut, Header.assemble serviceId messageId (payload.take n) = .ok cut
        ∧ (∃ j < m.fields.length, Field.totalSize (m.fields.take j) ≤ n
          ∧ n < Field.totalSize (m.fields.take (j + 1)))
        ∧ (∀ j, n = Field.totalSize (m.fields.take j) →
          ((∀ e ∈ entry.fields.drop j, e.optional = true) →
              d.decode cut = .ok { m with fields := m.fields.take j })
            ∧ ((∃ e ∈ entry.fields.drop j, e.optional = false) →
              FailsAs (d.decode cut) .missingField))
        ∧ ∀ j < m.fields.length, Field.totalSize (m.fields.take j) < n →
          n < Field.totalSize (m.fields.take (j + 1)) → FailsAs (d.decode cut) .invalidSize := by
  obtain ⟨hfits, rfl⟩ := Header.assemble_eq_ok_iff.mp hframe
  obtain ⟨⟨truths, hspells⟩, hdepth⟩ := decode_eq_ok_iff.mp hdecode
  obtain ⟨entry, hlookup, hfields, hmarks⟩ := hspells.of_framed
  have hdeepest : Field.deepest m.fields ≤ d.limit := by
    rw [hmarks, Message.nesting] at hdepth
    exact hdepth
  refine ⟨entry, hlookup, hfields.length_eq.symm, ?_, ?_⟩
  · intro j
    obtain ⟨t, hfront⟩ := hfields.front j
    obtain ⟨octets, hencode, hlength, -⟩ := hfront.encode 0
    exact ⟨octets, hencode, hlength.trans hfront.length_eq⟩
  · intro n hn
    have hshort : (payload.take n).length ≤ maxLength :=
      Nat.le_trans (List.length_take_le' n payload) hfits
    refine ⟨_, Header.assemble_eq_ok_iff.mpr ⟨hshort, rfl⟩, ?_, ?_, ?_⟩
    · exact Field.exists_place (hfields.length_eq ▸ hn)
    · rintro j rfl
      refine ⟨fun hoptional => ?_, fun hrequired => ?_⟩
      · obtain ⟨t, hfront⟩ := hfields.front j
        have hwhole : SpellsFields d.registry _ entry.fields (m.fields.take j) t :=
          hfront.lengthened ⟨_, (List.take_append_drop j entry.fields).symm, hoptional⟩
        have hcut := SpellsMessage.framed hlookup hwhole hshort
        rw [hmarks]
        refine decode_eq_ok_iff.mpr ⟨⟨t, hcut⟩, ?_⟩
        rw [Message.nesting]
        exact Nat.le_trans (Field.deepest_take_le m.fields j) hdeepest
      · exact decode_framed_fails hlookup hshort (hfields.missing 0 hdeepest hrequired)
    · intro j hj hlow hhigh
      exact decode_framed_fails hlookup hshort (hfields.cut_short 0 hdeepest hj hlow hhigh)

/-- An envelope in another, cut in front of the seal, behind it, and inside the envelope within. -/
theorem cut_payload_envelopes :
    ∃ (d : Decoder) (payload frame none one part : Bytes),
      Header.assemble 1 1 payload = .ok frame ∧ d.decode frame = .ok (envelope 1)
        ∧ Header.assemble 1 1 (payload.take 0) = .ok none ∧ FailsAs (d.decode none) .missingField
        ∧ Header.assemble 1 1 (payload.take 1) = .ok one ∧ d.decode one = .ok (envelope 0)
        ∧ Header.assemble 1 1 (payload.take 5) = .ok part
        ∧ FailsAs (d.decode part) .invalidSize := by
  let d : Decoder := { registry := envelopes }
  let payload : Bytes := [1, 1, 1, 0, 1, 238, 249, 1]
  let frame : Bytes := [1, 1, 0, 8, 184, 212] ++ payload
  have hframe : Header.assemble 1 1 payload = .ok frame := by decide +kernel
  have hdecode : d.decode frame = .ok (envelope 1) := by decide +kernel
  obtain ⟨entry, hlookup, -, -, hcuts⟩ := cut_payload hframe hdecode
  have hentry : entry = envelopeEntry := Except.ok.inj (hlookup.symm.trans rfl)
  obtain ⟨none, hnone, -, hends, -⟩ := hcuts 0 (by decide)
  obtain ⟨one, hone, -, hend, -⟩ := hcuts 1 (by decide)
  obtain ⟨part, hpart, -, -, hinside⟩ := hcuts 5 (by decide)
  refine ⟨d, payload, frame, none, one, part, hframe, hdecode, hnone, ?_, hone, ?_, hpart, ?_⟩
  · exact (hends 0 rfl).2 (by rw [hentry]; decide)
  · exact (hend 1 rfl).1 (by rw [hentry]; decide)
  · exact hinside 1 (by decide) (by decide) (by decide)

end SatWire
