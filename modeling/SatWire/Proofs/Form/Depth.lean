import SatWire.Form.Message
import SatWire.Form.Settings
import SatWire.Proofs.Form.Combinators

/-!
# Forms that nest too deep

No reader takes a container that is buried.  So a reader refuses a form wherever there is not room for
all of it, if its parts are refused where there is not room for them (`Reader.NeedsRoom`): an array
for one of its items, a variant for its payload, a record for one of its slots.  Going down the forms
this way, each of them is refused in a text that nests too deep.

Members that name no slot are passed over and not read, so they need no room.
-/

namespace SatWire

namespace Json

/-- The items of an array are buried one by one. -/
theorem buryItems_eq (room : Nat) (items : List Json) :
    buryItems room items = items.map (bury room) := by
  induction items with
  | nil => rfl
  | cons item items ih => rw [buryItems, ih, List.map_cons]

/-- The members of an object are buried one by one, under their names. -/
theorem mem_buryMembers {room : Nat} {members : List (String × Json)} {name : String} {value : Json}
    (hmem : (name, value) ∈ members) : (name, value.bury room) ∈ buryMembers room members := by
  induction members with
  | nil => cases hmem
  | cons first members ih =>
      obtain ⟨other, held⟩ := first
      rw [buryMembers]
      rcases List.mem_cons.mp hmem with heq | hlater
      · obtain ⟨rfl, rfl⟩ := Prod.mk.inj heq
        exact List.mem_cons_self
      · exact List.mem_cons_of_mem _ (ih hlater)

/-- Some item is as deep as all of them. -/
theorem exists_deep_item {items : List Json} {room : Nat} (hdeep : room < depthOfItems items) :
    ∃ item ∈ items, room < item.depth := by
  induction items with
  | nil => exact absurd hdeep (Nat.not_lt_zero _)
  | cons item items ih =>
      rw [depthOfItems] at hdeep
      by_cases hfirst : room < item.depth
      · exact ⟨item, List.mem_cons_self, hfirst⟩
      · obtain ⟨other, hmem, hother⟩ := ih (by omega)
        exact ⟨other, List.mem_cons_of_mem _ hmem, hother⟩

/-- Some member is as deep as all of them. -/
theorem exists_deep_member {members : List (String × Json)} {room : Nat}
    (hdeep : room < depthOfMembers members) : ∃ m ∈ members, room < m.2.depth := by
  induction members with
  | nil => exact absurd hdeep (Nat.not_lt_zero _)
  | cons first members ih =>
      obtain ⟨name, value⟩ := first
      rw [depthOfMembers] at hdeep
      by_cases hfirst : room < value.depth
      · exact ⟨(name, value), List.mem_cons_self, hfirst⟩
      · obtain ⟨other, hmem, hother⟩ := ih (by omega)
        exact ⟨other, List.mem_cons_of_mem _ hmem, hother⟩

end Json

namespace Reader

variable {α β δ : Type} {read : Reader α} {form : Json}

/-- The reader refuses the value. -/
def Refuses (read : Reader α) (j : Json) : Prop :=
  ∃ rejection, read j = .error rejection

/-- The reader refuses the form wherever there is not room for all of it. -/
def NeedsRoom (read : Reader α) (form : Json) : Prop :=
  ∀ room, room < form.depth → Refuses read (form.bury room)

/-- There is room everywhere for a form without containers. -/
theorem needsRoom_of_flat (hflat : form.depth = 0) : NeedsRoom read form :=
  fun _ hdeep => absurd (hflat ▸ hdeep) (Nat.not_lt_zero _)

/-- What is made of a value is refused with it. -/
theorem NeedsRoom.map (h : NeedsRoom read form) (f : α → β) :
    NeedsRoom (fun j => (read j).map f) form := by
  intro room hdeep
  obtain ⟨rejection, hread⟩ := h room hdeep
  exact ⟨rejection, congrArg (Except.map f) hread⟩

/-- An array is refused for any of its items. -/
theorem each_refuses {items : List Json} {item : Json} (hmem : item ∈ items)
    (hrefuses : Refuses read item) (done : List α) :
    ∃ rejection, each read done items = .error rejection := by
  induction items generalizing done with
  | nil => cases hmem
  | cons first items ih =>
      rw [each]
      cases hfirst : read first with
      | error rejection => exact ⟨rejection, rfl⟩
      | ok a =>
          rcases List.mem_cons.mp hmem with rfl | hlater
          · obtain ⟨rejection, hread⟩ := hrefuses
            cases hfirst.symm.trans hread
          · exact ih hlater (a :: done)

/-- An array needs the room that its items need. -/
theorem NeedsRoom.list {items : List Json} (h : ∀ item ∈ items, NeedsRoom read item) :
    NeedsRoom (list read) (.arr items) := by
  intro room hdeep
  rw [Json.depth] at hdeep
  cases room with
  | zero => exact ⟨_, rfl⟩
  | succ room =>
      obtain ⟨item, hmem, hitem⟩ := Json.exists_deep_item (Nat.lt_of_succ_lt_succ hdeep)
      have hburied : item.bury room ∈ Json.buryItems room items := by
        rw [Json.buryItems_eq]
        exact List.mem_map_of_mem hmem
      exact each_refuses hburied (h item hmem room hitem) []

/-- A variant needs the room that its payload needs. -/
theorem NeedsRoom.variant {payload : String → Reader α} {name : String} {value : Json}
    (h : NeedsRoom (payload name) value) : NeedsRoom (variant payload) (.obj [(name, value)]) := by
  intro room hdeep
  rw [Json.depth, Json.depthOfMembers, Json.depthOfMembers, Nat.max_zero] at hdeep
  cases room with
  | zero => exact ⟨_, rfl⟩
  | succ room =>
      obtain ⟨rejection, hread⟩ := h room (Nat.lt_of_succ_lt_succ hdeep)
      refine ⟨rejection, ?_⟩
      change Reader.variant payload (.obj [(name, value.bury room)]) = _
      rw [Reader.variant, hread]

section Records

variable {slots : List String} {put : String → Json → δ → Except Rejection δ}
  {ms : List (String × Json)}

/-- An object is refused for any of its slots that nothing can fill. -/
theorem members_refuses {name : String} {value : Json} (hmem : (name, value) ∈ ms)
    (hslot : name ∈ slots) (hrefuses : ∀ d, Refuses (fun j => put name j d) value)
    (seen : List String) (d : δ) :
    ∃ rejection, members slots put seen d ms = .error rejection := by
  induction ms generalizing seen d with
  | nil => cases hmem
  | cons first ms ih =>
      unfold members
      split
      · rename_i hnil
        cases hnil
      · exact ⟨_, rfl⟩
      · rename_i other held rest hnamed hcons
        obtain ⟨rfl, rfl⟩ := List.cons.inj hcons
        -- Either this is the member that is refused, or it comes later.
        have hlater : (name, value) ≠ (other, held) → (name, value) ∈ ms :=
          fun hother => (List.mem_cons.mp hmem).resolve_left hother
        split
        · split
          · exact ⟨_, rfl⟩
          · split
            · rename_i filled hput
              refine ih (hlater ?_) _ _
              intro hsame
              obtain ⟨rfl, rfl⟩ := Prod.mk.inj hsame
              obtain ⟨rejection, hrefused⟩ := hrefuses d
              cases hput.symm.trans hrefused
            · exact ⟨_, rfl⟩
        · rename_i hunknown
          split
          · refine ih (hlater ?_) _ _
            intro hsame
            obtain ⟨rfl, rfl⟩ := Prod.mk.inj hsame
            exact hunknown (List.contains_iff_mem.mpr hslot)
          · exact ⟨_, rfl⟩

/-- No member fills its slot where there is not room for all of the member; a member without
containers has room everywhere. -/
inductive SlotsNeedRoom (put : String → Json → δ → Except Rejection δ) : List (String × Json) → Prop
  | nil : SlotsNeedRoom put []
  | flat {name : String} {value : Json} {ms : List (String × Json)} (hflat : value.depth = 0)
      (hrest : SlotsNeedRoom put ms) : SlotsNeedRoom put ((name, value) :: ms)
  | cons {name : String} {value : Json} {ms : List (String × Json)}
      (hput : ∀ d, NeedsRoom (fun j => put name j d) value) (hrest : SlotsNeedRoom put ms) :
      SlotsNeedRoom put ((name, value) :: ms)

/-- Each of the members is refused as its slot where there is not room for it. -/
theorem SlotsNeedRoom.of_mem (h : SlotsNeedRoom put ms) {name : String} {value : Json}
    (hmem : (name, value) ∈ ms) (d : δ) : NeedsRoom (fun j => put name j d) value := by
  induction h with
  | nil => cases hmem
  | flat hflat hrest ih =>
      rcases List.mem_cons.mp hmem with hfirst | hlater
      · obtain ⟨rfl, rfl⟩ := Prod.mk.inj hfirst
        exact needsRoom_of_flat hflat
      · exact ih hlater
  | cons hput hrest ih =>
      rcases List.mem_cons.mp hmem with hfirst | hlater
      · obtain ⟨rfl, rfl⟩ := Prod.mk.inj hfirst
        exact hput d
      · exact ih hlater

/-- A record needs the room that its slots need. -/
theorem NeedsRoom.record {dialect : Dialect} {blank : δ} {finish : δ → Option α}
    (hnames : ms.map Prod.fst <+: slots) (hslots : SlotsNeedRoom put ms) :
    NeedsRoom (record dialect slots put blank finish) (.obj ms) := by
  intro room hdeep
  rw [Json.depth] at hdeep
  cases room with
  | zero => exact ⟨_, rfl⟩
  | succ room =>
      obtain ⟨⟨name, value⟩, hmem, hvalue⟩ := Json.exists_deep_member (Nat.lt_of_succ_lt_succ hdeep)
      have hslot : name ∈ slots := hnames.subset (List.mem_map_of_mem hmem)
      obtain ⟨rejection, hmembers⟩ := members_refuses (Json.mem_buryMembers hmem) hslot
        (fun d => hslots.of_mem hmem d room hvalue) [] blank
      refine ⟨rejection, ?_⟩
      change Reader.record dialect slots put blank finish (.obj (Json.buryMembers room ms)) = _
      rw [Reader.record, hmembers]

end Records

/-- The text of a form that nests deeper than texts may is rejected. -/
theorem NeedsRoom.parse_render (h : NeedsRoom read form) (hplain : form.Plain)
    (hdeep : Json.maxDepth < form.depth) :
    ∃ rejection, parse read form.render = .error rejection := by
  rw [Reader.parse_render hplain]
  exact h Json.maxDepth hdeep

end Reader

open Reader (NeedsRoom needsRoom_of_flat)

/-! ### Layouts -/

section Layouts

variable {dialect : Dialect}

/-- A definition needs the room that its type needs. -/
theorem FieldDef.reader_needsRoom {readType : Reader FieldType} {d : FieldDef}
    (htype : NeedsRoom readType d.type.toJson) :
    NeedsRoom (FieldDef.reader dialect readType) d.toJson := by
  obtain ⟨name, type, optional⟩ := d
  rw [FieldDef.toJson]
  exact .record ⟨[], rfl⟩ (.flat rfl (.cons (fun _ => htype.map _) (.flat rfl .nil)))

/-- The forms of a layout are those of its definitions. -/
theorem FieldDef.layoutToJson_eq (layout : List FieldDef) :
    layoutToJson layout = layout.map toJson := by
  induction layout with
  | nil => rfl
  | cons d ds ih => rw [layoutToJson, ih, List.map_cons]

/-- A layout needs the room that its types need. -/
theorem FieldDef.list_needsRoom {readType : Reader FieldType}
    (htype : ∀ t : FieldType, NeedsRoom readType t.toJson) (layout : List FieldDef) :
    NeedsRoom (Reader.list (FieldDef.reader dialect readType)) (.arr (layoutToJson layout)) := by
  rw [layoutToJson_eq]
  refine .list fun item hmem => ?_
  obtain ⟨d, -, rfl⟩ := List.mem_map.mp hmem
  exact reader_needsRoom (htype d.type)

/-- **A type that nests too deep is refused**, however many levels the reader allows. -/
theorem FieldType.readWithin_needsRoom (levels : Nat) :
    ∀ t : FieldType, NeedsRoom (readWithin dialect levels) t.toJson := by
  induction levels with
  | zero => exact fun t room _ => ⟨_, rfl⟩
  | succ levels ih =>
      intro t
      cases t with
      | array layout =>
          rw [toJson]
          have hvariant : NeedsRoom (Reader.variant fun _ inside =>
                (Reader.list (FieldDef.reader dialect (readWithin dialect levels)) inside).map array)
              (.obj [("array", .arr (FieldDef.layoutToJson layout))]) :=
            .variant ((FieldDef.list_needsRoom ih layout).map array)
          intro room hdeep
          cases room with
          | zero => exact ⟨_, rfl⟩
          | succ room => exact hvariant (room + 1) hdeep
      | uint | int | bool | text | bytes | enum | message => exact needsRoom_of_flat rfl

/-- A type needs room for its layouts. -/
theorem FieldType.read_needsRoom (t : FieldType) : NeedsRoom (read dialect) t.toJson :=
  fun room => readWithin_needsRoom _ t room

/-- A definition needs room for its type. -/
theorem FieldDef.read_needsRoom (d : FieldDef) : NeedsRoom (read dialect) d.toJson :=
  reader_needsRoom d.type.read_needsRoom

/-- A schema entry needs room for its layout. -/
theorem SchemaEntry.read_needsRoom (e : SchemaEntry) : NeedsRoom (read dialect) e.toJson := by
  obtain ⟨serviceId, messageId, name, direction, fields⟩ := e
  have hfields : NeedsRoom (Reader.list (FieldDef.read dialect))
      (.arr (FieldDef.layoutToJson fields)) :=
    FieldDef.list_needsRoom FieldType.read_needsRoom fields
  exact .record ⟨[], rfl⟩ (.flat rfl (.flat rfl (.flat rfl (.flat rfl
    (.cons (fun _ => hfields.map _) .nil)))))

end Layouts

/-! ### Settings of the link -/

/-- Settings need room for their ceilings. -/
theorem LinkSettings.read_needsRoom {dialect : Dialect} (s : LinkSettings) :
    NeedsRoom (read dialect) s.toJson := by
  have hlimits : NeedsRoom (SizeLimits.read dialect) s.sizeLimits.toJson :=
    .record ⟨[], rfl⟩ (.flat rfl (.flat rfl .nil))
  exact .record ⟨[], rfl⟩ (.cons (fun _ => hlimits.map _) (.flat rfl .nil))

/-! ### Values -/

/-- The forms of fields are those of each. -/
theorem Field.listToJson_eq (fs : List Field) : listToJson fs = fs.map toJson := by
  induction fs with
  | nil => rfl
  | cons f fs ih => rw [listToJson, ih, List.map_cons]

/-- The forms of elements are those of each. -/
theorem Element.listToJson_eq (es : List Element) : listToJson es = es.map toJson := by
  induction es with
  | nil => rfl
  | cons e es ih => rw [listToJson, ih, List.map_cons]

section Parts

variable {readValue : Reader Value} (hvalues : ∀ v : Value, NeedsRoom readValue v.toJson)

include hvalues

/-- A field needs room for its type and its value. -/
theorem Field.reader_needsRoom (f : Field) : NeedsRoom (reader readValue) f.toJson := by
  obtain ⟨type, value⟩ := f
  have hrecord : NeedsRoom (Reader.record .json slots (Draft.put readValue) {} Draft.finish)
      (.obj [("field_type", type.toJson), ("value", value.toJson)]) :=
    .record ⟨[], rfl⟩
      (.cons (fun _ => type.read_needsRoom.map _) (.cons (fun _ => (hvalues value).map _) .nil))
  intro room hdeep
  rw [toJson] at hdeep ⊢
  obtain ⟨rejection, hread⟩ := hrecord room hdeep
  refine ⟨rejection, ?_⟩
  rw [reader, hread]

/-- Fields need the room that each of them needs. -/
theorem Field.list_needsRoom (fs : List Field) :
    NeedsRoom (Reader.list (reader readValue)) (.arr (listToJson fs)) := by
  rw [listToJson_eq]
  refine .list fun item hmem => ?_
  obtain ⟨f, -, rfl⟩ := List.mem_map.mp hmem
  exact reader_needsRoom hvalues f

/-- An element needs room for its fields. -/
theorem Element.reader_needsRoom (e : Element) :
    NeedsRoom (reader (Field.reader readValue)) e.toJson := by
  obtain ⟨index, fields⟩ := e
  have hfields := Field.list_needsRoom hvalues fields
  rw [toJson]
  exact .record ⟨[], rfl⟩ (.flat rfl (.cons (fun _ => hfields.map _) .nil))

/-- A message needs room for its fields. -/
theorem Message.reader_needsRoom (m : Message) :
    NeedsRoom (reader (Field.reader readValue)) m.toJson := by
  obtain ⟨serviceId, messageId, category, isForward, fields, name⟩ := m
  have hfields := Field.list_needsRoom hvalues fields
  rw [toJson]
  cases name with
  | none =>
      exact .record ⟨["name"], rfl⟩ (.flat rfl (.flat rfl (.flat rfl (.flat rfl
        (.cons (fun _ => hfields.map _) .nil)))))
  | some name =>
      exact .record ⟨[], rfl⟩ (.flat rfl (.flat rfl (.flat rfl (.flat rfl
        (.cons (fun _ => hfields.map _) (.flat rfl .nil))))))

end Parts

/-- **A value that nests too deep is refused**, however many levels the reader allows. -/
theorem Value.readWithin_needsRoom (levels : Nat) :
    ∀ v : Value, NeedsRoom (readWithin levels) v.toJson := by
  induction levels with
  | zero => exact fun v room _ => ⟨_, rfl⟩
  | succ levels ih =>
      intro v
      cases v with
      | uint | int | bool | text | enum => exact .variant (needsRoom_of_flat rfl)
      | bytes octets =>
          rw [toJson]
          refine .variant (NeedsRoom.map (.list fun item hmem => ?_) _)
          obtain ⟨octet, -, rfl⟩ := List.mem_map.mp hmem
          exact needsRoom_of_flat rfl
      | array es =>
          rw [toJson, Element.listToJson_eq]
          refine .variant (NeedsRoom.map (.list fun item hmem => ?_) _)
          obtain ⟨e, -, rfl⟩ := List.mem_map.mp hmem
          exact Element.reader_needsRoom ih e
      | message m =>
          rw [toJson]
          exact .variant ((Message.reader_needsRoom ih m).map _)

/-- A value needs room for its parts. -/
theorem Value.ofJson_needsRoom (v : Value) : NeedsRoom ofJson v.toJson := by
  intro room hdeep
  rw [Reader.Refuses, ofJson]
  exact readWithin_needsRoom _ v room hdeep

/-- A field needs room for its parts. -/
theorem Field.ofJson_needsRoom (f : Field) : NeedsRoom ofJson f.toJson := by
  intro room hdeep
  rw [Reader.Refuses, ofJson]
  exact reader_needsRoom (Value.readWithin_needsRoom _) f room hdeep

/-- An element needs room for its parts. -/
theorem Element.ofJson_needsRoom (e : Element) : NeedsRoom ofJson e.toJson := by
  intro room hdeep
  rw [Reader.Refuses, ofJson]
  exact reader_needsRoom (Value.readWithin_needsRoom _) e room hdeep

/-- A message needs room for its parts. -/
theorem Message.ofJson_needsRoom (m : Message) : NeedsRoom ofJson m.toJson := by
  intro room hdeep
  rw [Reader.Refuses, ofJson]
  exact reader_needsRoom (Value.readWithin_needsRoom _) m room hdeep

end SatWire
