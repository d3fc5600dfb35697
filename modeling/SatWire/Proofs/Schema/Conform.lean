import SatWire.Proofs.Outcome
import SatWire.Schema.Conform

/-!
# What the checks of a schema ask

The checks walk over lists and fail at the first fault they meet.  Here each is turned into the
condition that it passes under: fields follow a layout (`conformFields_eq_ok_iff`), and a message
conforms if its entry exists, its fields follow it and the messages inside conform
(`conform_eq_ok_iff`).
-/

namespace SatWire

/-- Fields follow a layout: each has the declared type, and only optional definitions at the end go
without a field. -/
def Follows : List FieldDef → List Field → Prop
  | ds, [] => ∀ d ∈ ds, d.optional = true
  | [], _ :: _ => False
  | d :: ds, f :: fs => f.type = d.type ∧ Follows ds fs

/-- A layout may end early where all that is left of it is optional. -/
theorem conformEach_nil_eq_ok_iff {ds : List FieldDef} :
    conformEach ds [] = .ok () ↔ ∀ d ∈ ds, d.optional = true := by
  induction ds with
  | nil => simp [conformEach]
  | cons d ds ih =>
      rw [conformEach, List.forall_mem_cons]
      by_cases hoptional : d.optional = true
      · simp [hoptional, ih]
      · simp [hoptional, refuse]

/-- **The layout check.**  It passes exactly for the fields that follow the layout. -/
theorem conformFields_eq_ok_iff {ds : List FieldDef} {fs : List Field} :
    conformFields ds fs = .ok () ↔ Follows ds fs := by
  induction ds generalizing fs with
  | nil =>
      cases fs with
      | nil => simp [conformFields, conformEach, Follows]
      | cons f fs => simp [conformFields, refuse, Follows]
  | cons d ds ih =>
      cases fs with
      | nil =>
          have hfew : ¬ (d :: ds).length < ([] : List Field).length := Nat.not_lt_zero _
          rw [conformFields, if_neg hfew, conformEach_nil_eq_ok_iff, Follows]
      | cons f fs =>
          rw [Follows, ← ih, conformFields, conformFields, conformEach]
          simp only [List.length_cons, Nat.add_lt_add_iff_right]
          by_cases hmany : ds.length < fs.length
          · simp [hmany, refuse]
          · by_cases htype : f.type = d.type
            · simp [hmany, htype]
            · simp [hmany, htype, refuse]

namespace Registry

variable {r : Registry}

/-- **The check of a message.**  It tells the entry of a message exactly if the message has one, the
fields follow it and the messages inside them conform. -/
theorem conform_eq_ok_iff {m : Message} {entry : SchemaEntry} :
    r.conform m = .ok entry ↔ r.lookup m.serviceId m.messageId = .ok entry
      ∧ Follows entry.fields m.fields ∧ conformNested r entry.fields m.fields = .ok () := by
  obtain ⟨serviceId, messageId, category, isForward, fields, name⟩ := m
  rw [conform]
  cases hlookup : r.lookup serviceId messageId with
  | error fault => simp
  | ok found =>
      dsimp only
      rw [← conformFields_eq_ok_iff]
      cases hfields : conformFields found.fields fields with
      | error fault =>
          simp only [located_error, reduceCtorEq, false_iff, Except.ok.injEq, not_and]
          rintro rfl hfollows
          simp [hfields] at hfollows
      | ok =>
          simp only [located_ok, map_eq_ok_iff, located_eq_ok_iff, Except.ok.injEq]
          constructor
          · rintro ⟨⟨⟩, hnested, rfl⟩
            exact ⟨rfl, hfields, hnested⟩
          · rintro ⟨rfl, hfollows, hnested⟩
            exact ⟨(), hnested, rfl⟩

/-- Fields conform inside if the first does and those behind it do. -/
theorem conformNested_cons_eq_ok_iff {d : FieldDef} {ds : List FieldDef} {f : Field}
    {fs : List Field} :
    conformNested r (d :: ds) (f :: fs) = .ok () ↔
      conformNestedValue r d.type f.value = .ok () ∧ conformNested r ds fs = .ok () := by
  obtain ⟨type, value⟩ := f
  rw [conformNested]
  cases conformNestedValue r d.type value <;> simp

/-- Elements conform if the first follows the layout and conforms inside, and those behind it do. -/
theorem conformNestedElements_cons_eq_ok_iff {layout : List FieldDef} {e : Element}
    {es : List Element} :
    conformNestedElements r layout (e :: es) = .ok () ↔
      Follows layout e.fields ∧ conformNested r layout e.fields = .ok ()
        ∧ conformNestedElements r layout es = .ok () := by
  obtain ⟨index, fields⟩ := e
  rw [conformNestedElements, ← conformFields_eq_ok_iff]
  cases conformFields layout fields with
  | error fault => simp
  | ok =>
      cases conformNested r layout fields <;> simp

/-- A message that is a value conforms if the registry knows it. -/
theorem conformNestedValue_message_eq_ok_iff {type : FieldType} {inner : Message} :
    conformNestedValue r type (.message inner) = .ok () ↔ ∃ entry, r.conform inner = .ok entry := by
  rw [conformNestedValue, map_eq_ok_iff]
  simp

end Registry

end SatWire
