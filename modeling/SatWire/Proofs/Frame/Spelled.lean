import SatWire.Proofs.Frame.Grammar
import SatWire.Proofs.Schema.Conform
import SatWire.Proofs.Schema.Restore

/-!
# What is spelled is in order

A spelling asks nothing of the message but its entries and its layouts, and yet whatever is spelled
passes every check there is: its fields are well typed at every level, it conforms to the registry,
and it has the marks of its entry.  Whoever accepts spellings only need not check them again.

* `SpellsMessage.wellTyped`, `SpellsMessage.conforms` — the two checks;
* `SpellsMessage.restored` — the marks.
-/

namespace SatWire

variable {r : Registry}

/-- A field is spelled with the type it is declared with. -/
theorem SpellsField.type_eq {octets truths : Bytes} {type : FieldType} {f : Field}
    (h : SpellsField r octets type f truths) : f.type = type := by
  cases h <;> rfl

/-- Spelled fields follow their layout. -/
theorem SpellsFields.follows {octets truths : Bytes} {ds : List FieldDef} {fs : List Field}
    (h : SpellsFields r octets ds fs truths) : Follows ds fs := by
  induction fs generalizing octets ds truths with
  | nil =>
      cases h with
      | nil hoptional =>
          rw [Follows]
          exact hoptional
  | cons f fs ih =>
      cases h with
      | cons first rest hfirst hrest =>
          rw [Follows]
          exact ⟨hfirst.type_eq, ih hrest⟩

/-- Spelled elements follow their layout, each of them. -/
theorem SpellsElements.fits {octets truths : Bytes} {layout : List FieldDef} {es : List Element}
    (h : SpellsElements r octets layout es truths) : conformElements layout es = .ok () := by
  induction es generalizing octets truths with
  | nil => rfl
  | cons e es ih =>
      cases h with
      | cons index body rest hfields hshort hrest =>
          rw [conformElements, conformFields_eq_ok_iff.mpr hfields.follows, located_ok]
          exact ih hrest

mutual

/-- A field that octets spell is well typed. -/
theorem SpellsField.wellTyped {octets truths : Bytes} {type : FieldType} {f : Field} :
    SpellsField r octets type f truths → f.WellTyped
  | .scalar hscalar => by
      have hholds := hscalar.holds
      rw [Field.WellTyped]
      cases hscalar <;> exact ⟨by simp [FieldType.check, hholds], trivial⟩
  | .array helements _ => by
      rw [Field.WellTyped, Value.WellTyped]
      exact ⟨helements.fits, SpellsElements.wellTyped helements⟩
  | .message hmessage => by
      rw [Field.WellTyped, Value.WellTyped]
      exact ⟨rfl, SpellsMessage.wellTyped hmessage⟩

/-- Fields that octets spell are well typed. -/
theorem SpellsFields.wellTyped {octets truths : Bytes} {ds : List FieldDef} {fs : List Field} :
    SpellsFields r octets ds fs truths → Field.AllWellTyped fs
  | .nil _ => by
      rw [Field.AllWellTyped]
      trivial
  | .cons _ _ hfirst hrest => by
      rw [Field.AllWellTyped]
      exact ⟨SpellsField.wellTyped hfirst, SpellsFields.wellTyped hrest⟩

theorem SpellsElements.wellTyped {octets truths : Bytes} {layout : List FieldDef}
    {es : List Element} :
    SpellsElements r octets layout es truths → Element.AllWellTyped es
  | .nil => by
      rw [Element.AllWellTyped]
      trivial
  | .cons _ _ _ hfields _ hrest => by
      rw [Element.AllWellTyped, Element.WellTyped]
      exact ⟨SpellsFields.wellTyped hfields, SpellsElements.wellTyped hrest⟩

/-- **A spelled message is well typed**, at every level. -/
theorem SpellsMessage.wellTyped {octets truths : Bytes} {m : Message} :
    SpellsMessage r octets m truths → m.WellTyped
  | .framed _ hfields _ => by
      rw [Message.WellTyped]
      exact SpellsFields.wellTyped hfields

end

mutual

/-- A field that octets spell conforms inside. -/
theorem SpellsField.conforms {octets truths : Bytes} {type : FieldType} {f : Field} :
    SpellsField r octets type f truths → Registry.conformNestedValue r type f.value = .ok ()
  | .scalar hscalar => by
      cases hscalar <;> simp only [Registry.conformNestedValue]
  | .array helements _ => by
      rw [Registry.conformNestedValue]
      exact SpellsElements.conforms helements
  | .message hmessage => Registry.conformNestedValue_message_eq_ok_iff.mpr
      (SpellsMessage.conforms hmessage)

/-- Fields that octets spell conform inside. -/
theorem SpellsFields.conforms {octets truths : Bytes} {ds : List FieldDef} {fs : List Field} :
    SpellsFields r octets ds fs truths → Registry.conformNested r ds fs = .ok ()
  | .nil _ => by simp [Registry.conformNested]
  | .cons _ _ hfirst hrest => Registry.conformNested_cons_eq_ok_iff.mpr
      ⟨SpellsField.conforms hfirst, SpellsFields.conforms hrest⟩

theorem SpellsElements.conforms {octets truths : Bytes} {layout : List FieldDef}
    {es : List Element} :
    SpellsElements r octets layout es truths →
      Registry.conformNestedElements r layout es = .ok ()
  | .nil => by rw [Registry.conformNestedElements]
  | .cons _ _ _ hfields _ hrest => Registry.conformNestedElements_cons_eq_ok_iff.mpr
      ⟨hfields.follows, SpellsFields.conforms hfields, SpellsElements.conforms hrest⟩

/-- **A spelled message conforms** to the registry it is spelled in. -/
theorem SpellsMessage.conforms {octets truths : Bytes} {m : Message} :
    SpellsMessage r octets m truths → ∃ entry, r.conform m = .ok entry
  | .framed hlookup hfields _ => ⟨_, Registry.conform_eq_ok_iff.mpr
      ⟨hlookup, hfields.follows, SpellsFields.conforms hfields⟩⟩

end

/-- A value without fields has no messages inside. -/
theorem SpellsScalar.restored {octets truths : Bytes} {type : FieldType} {value : Value}
    (h : SpellsScalar octets type value truths) : Registry.restoreValue r value = value := by
  cases h <;> rw [Registry.restoreValue]

mutual

/-- A field that octets spell bears the registry's own marks inside. -/
theorem SpellsField.restored {octets truths : Bytes} {type : FieldType} {f : Field} :
    SpellsField r octets type f truths → Registry.restoreField r f = f
  | .scalar hscalar => by rw [Registry.restoreField, hscalar.restored]
  | .array helements _ => by
      rw [Registry.restoreField, Registry.restoreValue, SpellsElements.restored helements]
  | .message hmessage => by
      rw [Registry.restoreField, Registry.restoreValue, SpellsMessage.restored hmessage]

/-- Fields that octets spell have nothing to restore. -/
theorem SpellsFields.restored {octets truths : Bytes} {ds : List FieldDef} {fs : List Field} :
    SpellsFields r octets ds fs truths → Registry.restoreEach r fs = fs
  | .nil _ => by rw [Registry.restoreEach]
  | .cons _ _ hfirst hrest => by
      rw [Registry.restoreEach, SpellsField.restored hfirst, SpellsFields.restored hrest]

theorem SpellsElements.restored {octets truths : Bytes} {layout : List FieldDef}
    {es : List Element} :
    SpellsElements r octets layout es truths → Registry.restoreElements r es = es
  | .nil => by rw [Registry.restoreElements]
  | .cons _ _ _ hfields _ hrest => by
      rw [Registry.restoreElements, Registry.restoreElement, SpellsFields.restored hfields,
        SpellsElements.restored hrest]

/-- **A spelled message has the marks of its entry**, and so has every message inside it. -/
theorem SpellsMessage.restored {octets truths : Bytes} {m : Message} :
    SpellsMessage r octets m truths → r.restore m = m
  | .framed hlookup hfields _ => by
      rw [Registry.restore_of_lookup hlookup, SpellsFields.restored hfields]

end

end SatWire
