import SatWire.Proofs.Form.Depth
import SatWire.Proofs.Frame.RoundTrip
import SatWire.Proofs.Message.Inside

/-!
# Forms are read back

Every form is read as what it is the form of.  Types and values nest, so for both this is an induction
on the levels that the reader allows: a part has a form that is less deep than the whole, and what is
read back one level further down is read back by the record around it.  A field is checked where it is
read; so values, fields, elements and messages come back if everything in them fits its type.

Forms are plain values, and what holds of them holds of their texts, as far as texts may nest
(`Reader.ReadsBack`).
-/

namespace SatWire

/-! ### Layouts -/

mutual

/-- The form of a type is a plain value. -/
theorem FieldType.toJson_plain : ∀ t : FieldType, t.toJson.Plain
  | .array layout => by
      rw [FieldType.toJson]
      exact ⟨FieldDef.layoutToJson_plain layout, trivial⟩
  | .uint _ | .int _ | .bool | .text | .bytes | .enum | .message => trivial

theorem FieldDef.toJson_plain : ∀ d : FieldDef, d.toJson.Plain
  | ⟨_, type, _⟩ => by
      rw [FieldDef.toJson]
      exact ⟨trivial, FieldType.toJson_plain type, trivial, trivial⟩

theorem FieldDef.layoutToJson_plain : ∀ layout : List FieldDef,
    Json.PlainItems (FieldDef.layoutToJson layout)
  | [] => trivial
  | d :: ds => by
      rw [FieldDef.layoutToJson]
      exact ⟨FieldDef.toJson_plain d, FieldDef.layoutToJson_plain ds⟩

end

/-- The type of a definition stands inside it. -/
theorem FieldDef.depth_type_lt (d : FieldDef) : d.type.toJson.depth < d.toJson.depth := by
  obtain ⟨name, type, optional⟩ := d
  simp only [FieldDef.toJson, Json.depth, Json.depthOfMembers]
  omega

section Layouts

variable {dialect : Dialect}

/-- A type without a layout is told by its name. -/
theorem FieldType.choose_name {t : FieldType} (hplain : ∀ layout, t ≠ .array layout) :
    Reader.choose FieldType.named? t.name = .ok t := by
  cases t with
  | array layout => exact absurd rfl (hplain layout)
  | uint width | int width => cases width <;> rfl
  | _ => rfl

/-- A definition comes back if its type does. -/
theorem FieldDef.reader_toJson {readType : Reader FieldType} (d : FieldDef)
    (htype : readType d.type.toJson = .ok d.type) :
    FieldDef.reader dialect readType d.toJson = .ok d := by
  obtain ⟨name, type, optional⟩ := d
  have hput : Draft.put readType "type" type.toJson ⟨some name, none, false⟩
      = .ok ⟨some name, some type, false⟩ := map_eq_ok_iff.mpr ⟨type, htype, rfl⟩
  rw [FieldDef.toJson]
  exact Reader.record_obj ⟨[], rfl⟩ (by decide)
    ⟨trivial, type.toJson_plain, trivial, trivial⟩ (.cons rfl (.cons hput (.cons rfl .nil))) rfl

/-- **A type comes back**, with all layouts inside it. -/
theorem FieldType.readWithin_toJson (levels : Nat) :
    ∀ t : FieldType, t.toJson.depth < levels →
      FieldType.readWithin dialect levels t.toJson = .ok t := by
  induction levels with
  | zero =>
      intro t hdepth
      exact absurd hdepth (Nat.not_lt_zero _)
  | succ levels ih =>
      intro t hdepth
      cases t with
      | array layout =>
          rw [FieldType.toJson, FieldDef.layoutToJson_eq] at hdepth ⊢
          have hinside : Json.depthOfItems (layout.map FieldDef.toJson) < levels := by
            simp only [Json.depth, Json.depthOfMembers] at hdepth
            omega
          have heach : ∀ d ∈ layout,
              FieldDef.reader dialect (FieldType.readWithin dialect levels) d.toJson = .ok d := by
            intro d hmem
            have hdef := Json.depth_le_of_mem (List.mem_map_of_mem (f := FieldDef.toJson) hmem)
            have htype := d.depth_type_lt
            exact FieldDef.reader_toJson d (ih d.type (by omega))
          rw [FieldType.readWithin]
          refine Reader.variant_single ?_
          rw [Reader.list_map heach]
          rfl
      | uint width => exact FieldType.choose_name (t := .uint width) fun layout h => nomatch h
      | int width => exact FieldType.choose_name (t := .int width) fun layout h => nomatch h
      | bool | text | bytes | enum | message => rfl

/-- Types are read back, however deep their layouts nest. -/
theorem FieldType.read_toJson (t : FieldType) : FieldType.read dialect t.toJson = .ok t :=
  readWithin_toJson _ t (Nat.lt_succ_self _)

/-- Definitions are read back. -/
theorem FieldDef.read_toJson (d : FieldDef) : FieldDef.read dialect d.toJson = .ok d :=
  reader_toJson d d.type.read_toJson

/-- The form of a schema entry is a plain value. -/
theorem SchemaEntry.toJson_plain (e : SchemaEntry) : e.toJson.Plain :=
  ⟨trivial, trivial, trivial, trivial, FieldDef.layoutToJson_plain e.fields, trivial⟩

/-- Schema entries are read back, whatever direction they name. -/
theorem SchemaEntry.read_toJson (e : SchemaEntry) : SchemaEntry.read dialect e.toJson = .ok e := by
  obtain ⟨serviceId, messageId, name, direction, fields⟩ := e
  have hservice : ∀ d : Draft, Draft.put dialect "service_id" (.int serviceId.toNat) d
      = .ok { d with serviceId := some serviceId } := by
    intro d
    rw [Draft.put, Reader.uint8_toNat]
    rfl
  have hmessage : ∀ d : Draft, Draft.put dialect "message_id" (.int messageId.toNat) d
      = .ok { d with messageId := some messageId } := by
    intro d
    rw [Draft.put, Reader.uint8_toNat]
    rfl
  have hdirection : ∀ d : Draft, Draft.put dialect "direction" direction.toJson d
      = .ok { d with direction } := by
    intro d
    cases direction <;> rfl
  have hfields : Reader.list (FieldDef.read dialect) (.arr (FieldDef.layoutToJson fields))
      = .ok fields := by
    rw [FieldDef.layoutToJson_eq]
    exact Reader.list_map fun d _ => d.read_toJson
  exact Reader.record_obj ⟨[], rfl⟩ (by decide) (toJson_plain ⟨_, _, _, _, _⟩)
    (.cons (hservice _) (.cons (hmessage _) (.cons rfl (.cons (hdirection _)
      (.cons (map_eq_ok_iff.mpr ⟨fields, hfields, rfl⟩) .nil))))) rfl

end Layouts

/-! ### Settings of the link -/

/-- The form of size limits is a plain value. -/
theorem SizeLimits.toJson_plain (l : SizeLimits) : l.toJson.Plain :=
  ⟨trivial, trivial, trivial⟩

/-- Size limits are read back. -/
theorem SizeLimits.read_toJson {dialect : Dialect} (l : SizeLimits) :
    SizeLimits.read dialect l.toJson = .ok l := by
  obtain ⟨normal, lowPower⟩ := l
  have hnormal : ∀ l : SizeLimits, put "normal" (.int normal.toNat) l = .ok { l with normal } := by
    intro l
    rw [put, Reader.uint64_toNat]
    rfl
  have hlowPower : ∀ l : SizeLimits, put "low_power" (.int lowPower.toNat) l
      = .ok { l with lowPower } := by
    intro l
    rw [put, Reader.uint64_toNat]
    · rfl
    · decide
  exact Reader.record_obj ⟨[], rfl⟩ (by decide) (toJson_plain ⟨_, _⟩)
    (.cons (hnormal _) (.cons (hlowPower _) .nil)) rfl

/-- The form of settings is a plain value. -/
theorem LinkSettings.toJson_plain (s : LinkSettings) : s.toJson.Plain :=
  ⟨s.sizeLimits.toJson_plain, trivial, trivial⟩

/-- Settings are read back, the limits inside them too. -/
theorem LinkSettings.read_toJson {dialect : Dialect} (s : LinkSettings) :
    LinkSettings.read dialect s.toJson = .ok s := by
  obtain ⟨sizeLimits, maxNesting⟩ := s
  have hlimits : ∀ s : LinkSettings, put dialect "size_limits" sizeLimits.toJson s
      = .ok { s with sizeLimits } := by
    intro s
    rw [put, SizeLimits.read_toJson]
    rfl
  have hnesting : ∀ s : LinkSettings, put dialect "max_nesting_depth" (.int maxNesting.toNat) s
      = .ok { s with maxNesting } := by
    intro s
    rw [put, Reader.uint64_toNat]
    · rfl
    · decide
  exact Reader.record_obj ⟨[], rfl⟩ (by decide) (toJson_plain ⟨_, _⟩)
    (.cons (hlimits _) (.cons (hnesting _) .nil)) rfl

/-! ### Values -/

mutual

/-- The form of a value is plain, to any depth. -/
theorem Value.toJson_plain : ∀ v : Value, v.toJson.Plain
  | .bytes octets => by
      rw [Value.toJson]
      refine ⟨Json.plainItems_iff.mpr ?_, trivial⟩
      intro j hmem
      obtain ⟨octet, _, rfl⟩ := List.mem_map.mp hmem
      trivial
  | .array es => by
      rw [Value.toJson]
      exact ⟨Element.listToJson_plain es, trivial⟩
  | .message m => by
      rw [Value.toJson]
      exact ⟨Message.toJson_plain m, trivial⟩
  | .uint _ | .int _ | .bool _ | .text _ | .enum _ => ⟨trivial, trivial⟩

theorem Field.toJson_plain : ∀ f : Field, f.toJson.Plain
  | ⟨type, value⟩ => by
      rw [Field.toJson]
      exact ⟨type.toJson_plain, Value.toJson_plain value, trivial⟩

theorem Field.listToJson_plain : ∀ fs : List Field, Json.PlainItems (Field.listToJson fs)
  | [] => trivial
  | f :: fs => by
      rw [Field.listToJson]
      exact ⟨Field.toJson_plain f, Field.listToJson_plain fs⟩

theorem Element.toJson_plain : ∀ e : Element, e.toJson.Plain
  | ⟨_, fields⟩ => by
      rw [Element.toJson]
      exact ⟨trivial, Field.listToJson_plain fields, trivial⟩

theorem Element.listToJson_plain : ∀ es : List Element, Json.PlainItems (Element.listToJson es)
  | [] => trivial
  | e :: es => by
      rw [Element.listToJson]
      exact ⟨Element.toJson_plain e, Element.listToJson_plain es⟩

/-- The form of a message is plain, whether it bears a name or not. -/
theorem Message.toJson_plain : ∀ m : Message, m.toJson.Plain
  | ⟨_, _, _, _, fields, name⟩ => by
      rw [Message.toJson]
      refine ⟨trivial, trivial, trivial, trivial, Field.listToJson_plain fields, ?_⟩
      cases name with
      | none => trivial
      | some name => exact ⟨trivial, trivial⟩

end

section Parts

variable {readValue : Reader Value} {bound : Nat}

/-- Values come back if they are less deep than the bound and all fields inside them fit. -/
def Value.BackBelow (readValue : Reader Value) (bound : Nat) : Prop :=
  ∀ v : Value, Field.AllFit v.parts → v.toJson.depth < bound → readValue v.toJson = .ok v

/-- A field comes back if its value does: the check that is made of it succeeds. -/
theorem Field.reader_toJson (hvalues : Value.BackBelow readValue bound) {f : Field}
    (hfit : Field.AllFit [f]) (hdepth : f.toJson.depth ≤ bound) :
    Field.reader readValue f.toJson = .ok f := by
  obtain ⟨type, value⟩ := f
  obtain ⟨hcheck, hparts⟩ := allFit_singleton.mp hfit
  have hinside : value.toJson.depth < bound := by
    simp only [Field.toJson, Json.depth, Json.depthOfMembers] at hdepth
    omega
  have htype : ∀ d : Draft, Draft.put readValue "field_type" type.toJson d
      = .ok { d with type := some type } := by
    intro d
    rw [Draft.put, FieldType.ofJson, FieldType.read_toJson]
    rfl
  have hvalue : ∀ d : Draft, Draft.put readValue "value" value.toJson d
      = .ok { d with value := some value } :=
    fun d => map_eq_ok_iff.mpr ⟨value, hvalues value hparts hinside, rfl⟩
  have hrecord : Reader.record .json slots (Draft.put readValue) {} Draft.finish
      (Field.toJson ⟨type, value⟩) = .ok (type, value) :=
    Reader.record_obj ⟨[], rfl⟩ (by decide) (toJson_plain ⟨type, value⟩)
      (.cons (htype _) (.cons (hvalue _) .nil)) rfl
  rw [Field.reader, hrecord]
  exact mapError_eq_ok_iff.mpr (map_eq_ok_iff.mpr ⟨(), hcheck, rfl⟩)

/-- Fields come back one by one, if their values do. -/
theorem Field.list_toJson (hvalues : Value.BackBelow readValue bound) {fs : List Field}
    (hfit : Field.AllFit fs) (hdepth : Json.depthOfItems (listToJson fs) ≤ bound) :
    Reader.list (Field.reader readValue) (.arr (listToJson fs)) = .ok fs := by
  rw [listToJson_eq] at hdepth ⊢
  refine Reader.list_map fun f hmem => reader_toJson hvalues (hfit.of_mem hmem) ?_
  exact Nat.le_trans (Json.depth_le_of_mem (List.mem_map_of_mem hmem)) hdepth

/-- An element comes back if the values of its fields do. -/
theorem Element.reader_toJson (hvalues : Value.BackBelow readValue bound) {e : Element}
    (hfit : Field.AllFit e.fields) (hdepth : e.toJson.depth ≤ bound) :
    Element.reader (Field.reader readValue) e.toJson = .ok e := by
  obtain ⟨index, fields⟩ := e
  have hinside : Json.depthOfItems (Field.listToJson fields) ≤ bound := by
    simp only [Element.toJson, Json.depth, Json.depthOfMembers] at hdepth
    omega
  have hindex : ∀ d : Draft, Draft.put (Field.reader readValue) "index" (.int index.toNat) d
      = .ok { d with index := some index } := by
    intro d
    rw [Draft.put, Reader.uint8_toNat]
    rfl
  have hfields : ∀ d : Draft,
      Draft.put (Field.reader readValue) "fields" (.arr (Field.listToJson fields)) d
        = .ok { d with fields := some fields } :=
    fun d => map_eq_ok_iff.mpr ⟨fields, Field.list_toJson hvalues hfit hinside, rfl⟩
  exact Reader.record_obj ⟨[], rfl⟩ (by decide) (toJson_plain ⟨_, _⟩)
    (.cons (hindex _) (.cons (hfields _) .nil)) rfl

/-- A message comes back if the values of its fields do. -/
theorem Message.reader_toJson (hvalues : Value.BackBelow readValue bound) {m : Message}
    (hfit : Field.AllFit m.fields) (hdepth : m.toJson.depth ≤ bound) :
    Message.reader (Field.reader readValue) m.toJson = .ok m := by
  obtain ⟨serviceId, messageId, category, isForward, fields, name⟩ := m
  have hinside : Json.depthOfItems (Field.listToJson fields) ≤ bound := by
    simp only [Message.toJson, Json.depth, Json.depthOfMembers] at hdepth
    omega
  have hservice : ∀ d : Draft,
      Draft.put (Field.reader readValue) "service_id" (.int serviceId.toNat) d
        = .ok { d with serviceId := some serviceId } := by
    intro d
    rw [Draft.put, Reader.uint8_toNat]
    rfl
  have hmessage : ∀ d : Draft,
      Draft.put (Field.reader readValue) "message_id" (.int messageId.toNat) d
        = .ok { d with messageId := some messageId } := by
    intro d
    rw [Draft.put, Reader.uint8_toNat]
    rfl
  have hcategory : ∀ d : Draft,
      Draft.put (Field.reader readValue) "category" category.toJson d = .ok { d with category } := by
    intro d
    cases category <;> rfl
  have hfields : ∀ d : Draft,
      Draft.put (Field.reader readValue) "fields" (.arr (Field.listToJson fields)) d
        = .ok { d with fields } :=
    fun d => map_eq_ok_iff.mpr ⟨fields, Field.list_toJson hvalues hfit hinside, rfl⟩
  have hplain := toJson_plain ⟨serviceId, messageId, category, isForward, fields, name⟩
  -- A name that is absent is not written, and its slot stays free.
  cases name with
  | none =>
      exact Reader.record_obj ⟨["name"], rfl⟩ (by decide) hplain
        (.cons (hservice _) (.cons (hmessage _) (.cons (hcategory _) (.cons rfl
          (.cons (hfields _) .nil))))) rfl
  | some name =>
      exact Reader.record_obj ⟨[], rfl⟩ (by decide) hplain
        (.cons (hservice _) (.cons (hmessage _) (.cons (hcategory _) (.cons rfl
          (.cons (hfields _) (.cons rfl .nil)))))) rfl

end Parts

/-- **A value comes back**, if all fields inside it fit their types. -/
theorem Value.readWithin_toJson (levels : Nat) :
    Value.BackBelow (Value.readWithin levels) levels := by
  induction levels with
  | zero =>
      intro v _ hdepth
      exact absurd hdepth (Nat.not_lt_zero _)
  | succ levels ih =>
      intro v hfit hdepth
      rw [Value.readWithin]
      cases v with
      | uint n =>
          refine Reader.variant_single ?_
          rw [payload, Reader.uint64_toNat]
          rfl
      | int n =>
          refine Reader.variant_single ?_
          rw [payload, Reader.int64_toInt]
          rfl
      | bool b => rfl
      | text s => rfl
      | bytes octets =>
          have hoctets : Reader.bytes (.arr (octets.map fun octet => .int octet.toNat))
              = .ok octets := Reader.list_map fun octet _ => Reader.uint8_toNat octet
          exact Reader.variant_single (map_eq_ok_iff.mpr ⟨octets, hoctets, rfl⟩)
      | enum n =>
          refine Reader.variant_single ?_
          rw [payload, Reader.uint8_toNat]
          rfl
      | array es =>
          rw [Value.toJson, Element.listToJson_eq] at hdepth ⊢
          have helements : Reader.list (Element.reader (Field.reader (Value.readWithin levels)))
              (.arr (es.map Element.toJson)) = .ok es := by
            refine Reader.list_map fun e hmem => ?_
            have helement := Json.depth_le_of_mem (List.mem_map_of_mem (f := Element.toJson) hmem)
            simp only [Json.depth, Json.depthOfMembers] at hdepth
            exact Element.reader_toJson ih (Field.allFit_flatMap_iff.mp hfit e hmem) (by omega)
          exact Reader.variant_single (map_eq_ok_iff.mpr ⟨es, helements, rfl⟩)
      | message m =>
          rw [Value.toJson] at hdepth ⊢
          have hmessage : Message.reader (Field.reader (Value.readWithin levels)) m.toJson
              = .ok m := by
            simp only [Json.depth, Json.depthOfMembers] at hdepth
            exact Message.reader_toJson ih hfit (by omega)
          exact Reader.variant_single (map_eq_ok_iff.mpr ⟨m, hmessage, rfl⟩)

/-- Values are read back if the fields inside them fit. -/
theorem Value.ofJson_toJson {v : Value} (hfit : Field.AllFit v.parts) :
    Value.ofJson v.toJson = .ok v :=
  readWithin_toJson _ v hfit (Nat.lt_succ_self _)

/-- Fields are read back if they fit, with all that is inside them. -/
theorem Field.ofJson_toJson {f : Field} (hfit : Field.AllFit [f]) :
    Field.ofJson f.toJson = .ok f :=
  reader_toJson (Value.readWithin_toJson _) hfit (Nat.le_succ _)

/-- Elements are read back if their fields fit. -/
theorem Element.ofJson_toJson {e : Element} (hfit : Field.AllFit e.fields) :
    Element.ofJson e.toJson = .ok e :=
  reader_toJson (Value.readWithin_toJson _) hfit (Nat.le_succ _)

/-- Messages are read back if their fields fit. -/
theorem Message.ofJson_toJson {m : Message} (hfit : Field.AllFit m.fields) :
    Message.ofJson m.toJson = .ok m :=
  reader_toJson (Value.readWithin_toJson _) hfit (Nat.le_succ _)

/-! ### Texts -/

/-- The text of a form is read as what it is the form of, if it nests at most 127 arrays and objects,
and is rejected if it nests more. -/
def Reader.ReadsBack {α : Type} (read : Reader α) (form : Json) (a : α) : Prop :=
  (Json.nesting form.render ≤ 127 → Reader.parse read form.render = .ok a)
    ∧ (127 < Json.nesting form.render →
      ∃ rejection, Reader.parse read form.render = .error rejection)

/-- What is read back as a value, and refused where there is not room for it, is read back as a
text. -/
theorem Reader.readsBack {α : Type} {read : Reader α} {form : Json} {a : α} (hplain : form.Plain)
    (hread : read form = .ok a) (hroom : read.NeedsRoom form) : Reader.ReadsBack read form a := by
  have hnesting := Json.nesting_render hplain
  constructor
  · intro hdepth
    rw [hnesting] at hdepth
    have hwhole : form.bury Json.maxDepth = form := Json.bury_of_le hdepth
    rw [Reader.parse_render hplain, hwhole, hread]
  · intro hdepth
    rw [hnesting] at hdepth
    exact hroom.parse_render hplain hdepth

/-- **What names no slot may nest freely.**  A text is read as a message past a member in front that
messages do not have, however deep that member nests. -/
theorem Message.parse_unknown {m : Message} (hfit : Field.AllFit m.fields) {name : String}
    {value : Json} {members : List (String × Json)} (hform : m.toJson = .obj members)
    (hunknown : name ∉ slots) (hplain : value.Plain) (hshallow : m.toJson.depth ≤ Json.maxDepth) :
    Reader.parse ofJson (Json.obj ((name, value) :: members)).render = .ok m := by
  have hmembers : Json.PlainMembers members := by
    have hmessage := m.toJson_plain
    rwa [hform] at hmessage
  rw [hform, Json.depth] at hshallow
  -- One level is taken by the object; the members of the message fit into the others.
  have hroom : Json.depthOfMembers members ≤ 126 := Nat.le_of_succ_le_succ hshallow
  have hbury : (Json.obj ((name, value) :: members)).bury Json.maxDepth
      = .obj ((name, value.bury 126) :: members) :=
    congrArg (fun others => Json.obj ((name, value.bury 126) :: others)) (Json.buryMembers_of_le hroom)
  have hreadable : (value.bury 126).isReadable = true := by
    rw [Json.isReadable_bury, hplain.isReadable]
  have hplainText : (Json.obj ((name, value) :: members)).Plain := ⟨hplain, hmembers⟩
  rw [Reader.parse_render hplainText, hbury, ofJson, reader,
    Reader.record_unknown hunknown (hplain.bury_ne_unnamed 126) hreadable, ← hform]
  refine reader_toJson (Value.readWithin_toJson _) hfit ?_
  rw [hform, Json.depth, Json.depth, Json.depthOfMembers]
  omega

/-- **What is written is read back.**  The text of a type, a definition, a schema entry or settings of
the link is read as just that, and so is the text of a value, a field, an element or a message in
which every field fits its type; unless it nests deeper than texts may, and then it is rejected. -/
theorem forms_read_back :
    (∀ t : FieldType, FieldType.ofJson.ReadsBack t.toJson t)
    ∧ (∀ d : FieldDef, FieldDef.ofJson.ReadsBack d.toJson d)
    ∧ (∀ e : SchemaEntry, SchemaEntry.ofJson.ReadsBack e.toJson e)
    ∧ (∀ s : LinkSettings, LinkSettings.ofJson.ReadsBack s.toJson s)
    ∧ (∀ v : Value, v.WellTyped → Reader.ReadsBack Value.ofJson v.toJson v)
    ∧ (∀ f : Field, f.WellTyped → Field.ofJson.ReadsBack f.toJson f)
    ∧ (∀ e : Element, e.WellTyped → Element.ofJson.ReadsBack e.toJson e)
    ∧ ∀ m : Message, m.WellTyped → Message.ofJson.ReadsBack m.toJson m := by
  refine ⟨?_, ?_, ?_, ?_, ?_, ?_, ?_, ?_⟩
  · exact fun t => Reader.readsBack t.toJson_plain t.read_toJson t.read_needsRoom
  · exact fun d => Reader.readsBack d.toJson_plain d.read_toJson d.read_needsRoom
  · exact fun e => Reader.readsBack e.toJson_plain e.read_toJson e.read_needsRoom
  · exact fun s => Reader.readsBack s.toJson_plain s.read_toJson s.read_needsRoom
  · intro v htyped
    have hfit : Field.AllFit v.parts := v.wellTyped_iff.mp htyped
    exact Reader.readsBack v.toJson_plain (Value.ofJson_toJson hfit) v.ofJson_needsRoom
  · intro f htyped
    have hfit : Field.AllFit [f] := (Field.allWellTyped_iff [f]).mp ⟨htyped, trivial⟩
    exact Reader.readsBack f.toJson_plain (Field.ofJson_toJson hfit) f.ofJson_needsRoom
  · intro e htyped
    obtain ⟨index, fields⟩ := e
    have hfit : Field.AllFit fields := (Field.allWellTyped_iff fields).mp htyped
    exact Reader.readsBack (Element.toJson_plain ⟨index, fields⟩) (Element.ofJson_toJson hfit)
      (Element.ofJson_needsRoom ⟨index, fields⟩)
  · intro m htyped
    have hfit : Field.AllFit m.fields := m.wellTyped_iff.mp htyped
    exact Reader.readsBack m.toJson_plain (Message.ofJson_toJson hfit) m.ofJson_needsRoom

/-- The form of an envelope nests four levels for each envelope around the innermost. -/
theorem depth_envelope (count : Nat) : (envelope count).toJson.depth = 4 * count + 4 := by
  induction count with
  | zero => rfl
  | succ count ih =>
      simp only [envelope, Field.bool, Field.message, Message.toJson, Field.listToJson, Field.toJson,
        Value.toJson, FieldType.toJson, Category.toJson, Option.map, Option.toList, Json.depth,
        Json.depthOfMembers, Json.depthOfItems, ih]
      omega

/-- A message without a name that holds the least number and a text of many kinds of characters, and
envelopes, of which thirty-one may stand inside each other but not thirty-two. -/
theorem forms_read_back_samples :
    let layout : List FieldDef := [⟨"größe", .int .eight, false⟩, ⟨"", .text, true⟩]
    let element : Element := ⟨255, [.int64 Int64.minValue, .text "\"\\/\n\x01\x7f é 😀"]⟩
    let m : Message := ⟨1, 2, .nack, true, [⟨.array layout, .array [element]⟩], none⟩
    m.WellTyped ∧ Reader.parse Message.ofJson m.toJson.render = .ok m
      ∧ Reader.parse Message.ofJson (envelope 30).toJson.render = .ok (envelope 30)
      ∧ ∃ rejection, Reader.parse Message.ofJson (envelope 31).toJson.render = .error rejection := by
  intro layout element m
  obtain ⟨-, -, -, -, -, -, -, hmessages⟩ := forms_read_back
  have htyped : m.WellTyped := by
    refine ⟨⟨?_, ⟨⟨rfl, trivial⟩, ⟨rfl, trivial⟩, trivial⟩, trivial⟩, trivial⟩
    decide +kernel
  have hshallow : Json.nesting m.toJson.render ≤ 127 := by
    rw [Json.nesting_render m.toJson_plain]
    decide
  have hthirty : Json.nesting (envelope 30).toJson.render ≤ 127 := by
    rw [Json.nesting_render (Message.toJson_plain _), depth_envelope]
    decide
  have hdeep : 127 < Json.nesting (envelope 31).toJson.render := by
    rw [Json.nesting_render (Message.toJson_plain _), depth_envelope]
    decide
  exact ⟨htyped, (hmessages m htyped).1 hshallow,
    (hmessages _ (wellTyped_envelope 30)).1 hthirty, (hmessages _ (wellTyped_envelope 31)).2 hdeep⟩

end SatWire
