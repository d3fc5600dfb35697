import SatWire.Form.Message
import SatWire.Proofs.Message.Inside

/-!
# What forms are accepted as

A reader that accepts only what has a property passes the property on: to the items of an array, to
the payload of a variant, to what a record is put together from (`Reader.Gives`).  A field is checked
where it is read, around parts that were read before it; so by induction on the levels of values
inside each other, whatever is accepted fits its type with everything inside it.
-/

namespace SatWire

namespace Reader

/-- Whatever the reader accepts has the property. -/
def Gives {α : Type} (read : Reader α) (P : α → Prop) : Prop :=
  ∀ j a, read j = .ok a → P a

namespace Gives

variable {α δ : Type} {read : Reader α} {P : α → Prop}

/-- Item by item, behind those that were read before. -/
theorem each (h : Gives read P) {is : List Json} {done as : List α} (hdone : ∀ a ∈ done, P a)
    (hread : each read done is = .ok as) : ∀ a ∈ as, P a := by
  induction is generalizing done with
  | nil =>
      rw [Reader.each] at hread
      cases hread
      exact fun a hmem => hdone a (List.mem_reverse.mp hmem)
  | cons item is ih =>
      rw [Reader.each] at hread
      split at hread
      · rename_i a hitem
        exact ih (List.forall_mem_cons.mpr ⟨h item a hitem, hdone⟩) hread
      · cases hread

/-- The items of an array have what each of them has. -/
theorem list (h : Gives read P) : Gives (list read) fun as => ∀ a ∈ as, P a := by
  intro j as hread
  unfold Reader.list at hread
  split at hread
  · exact h.each (fun _ hmem => absurd hmem List.not_mem_nil) hread
  · cases hread

/-- A variant has what all its payloads have. -/
theorem variant {payload : String → Reader α} (h : ∀ name, Gives (payload name) P) :
    Gives (variant payload) P := by
  intro j a hread
  unfold Reader.variant at hread
  split at hread
  · rename_i name value more
    split at hread
    · rename_i b hpayload
      split at hread
      · cases hread
        exact h name value _ hpayload
      · cases hread
    · cases hread
  · cases hread

variable {I : δ → Prop} {put : String → Json → δ → Except Rejection δ}

/-- What every slot keeps, the members of an object keep. -/
theorem members (hput : ∀ slot j d d', I d → put slot j d = .ok d' → I d') {slots : List String}
    {ms : List (String × Json)} {seen : List String} {d d' : δ} (hdraft : I d)
    (hread : members slots put seen d ms = .ok d') : I d' := by
  induction ms generalizing seen d with
  | nil =>
      cases hread
      exact hdraft
  | cons m ms ih =>
      unfold Reader.members at hread
      split at hread
      · cases hread
        exact hdraft
      · cases hread
      · rename_i hcons
        cases hcons
        split at hread
        · split at hread
          · cases hread
          · split at hread
            · rename_i filled hslot
              exact ih (hput _ _ d filled hdraft hslot) hread
            · cases hread
        · split at hread
          · exact ih hdraft hread
          · cases hread

/-- What every slot keeps, the items of an array keep. -/
theorem items (hput : ∀ slot j d d', I d → put slot j d = .ok d' → I d') {dialect : Dialect}
    {slots : List String} {is : List Json} {d d' : δ} (hdraft : I d)
    (hread : items dialect put d slots is = .ok d') : I d' := by
  induction is generalizing slots d with
  | nil =>
      rw [Reader.items] at hread
      cases hread
      exact hdraft
  | cons item is ih =>
      cases slots with
      | nil =>
          rw [Reader.items] at hread
          split at hread
          · cases hread
            exact hdraft
          · cases hread
      | cons slot slots =>
          rw [Reader.items] at hread
          split at hread
          · rename_i filled hslot
            exact ih (hput slot item d filled hdraft hslot) hread
          · cases hread

/-- A record is put together from a draft, which has what the blank one has and every slot keeps. -/
theorem record {dialect : Dialect} {slots : List String} {blank : δ} {finish : δ → Option α}
    (hblank : I blank) (hput : ∀ slot j d d', I d → put slot j d = .ok d' → I d')
    (hfinish : ∀ d a, I d → finish d = some a → P a) :
    Gives (record dialect slots put blank finish) P := by
  intro j a hread
  unfold Reader.record at hread
  dsimp only at hread
  split at hread
  · cases hread
  · rename_i draft hfilled
    have hdraft : I draft := by
      split at hfilled
      · exact members hput hblank hfilled
      · exact items hput hblank hfilled
      · cases hfilled
    split at hread
    · rename_i b hdone
      cases hread
      exact hfinish draft _ hdraft hdone
    · cases hread

end Gives

end Reader

open Reader (Gives)

section Forms

variable {readValue : Reader Value} {readField : Reader Field}

/-- A field that is read is checked. -/
theorem Field.reader_gives (h : Gives readValue fun v => Field.AllFit v.parts) :
    Gives (Field.reader readValue) fun f => Field.AllFit [f] := by
  have hrecord : Gives (Reader.record .json Field.slots (Field.Draft.put readValue) {}
      Field.Draft.finish) fun parts => Field.AllFit parts.2.parts := by
    refine Gives.record (I := fun d => ∀ value, d.value = some value → Field.AllFit value.parts)
      ?_ ?_ ?_
    · intro value hvalue
      cases hvalue
    · intro slot j d d' hdraft hput
      unfold Field.Draft.put at hput
      split at hput
      · obtain ⟨type, -, rfl⟩ := map_eq_ok_iff.mp hput
        exact hdraft
      · obtain ⟨value, hvalue, rfl⟩ := map_eq_ok_iff.mp hput
        rintro _ ⟨⟩
        exact h j value hvalue
    · rintro ⟨_ | type, _ | value⟩ parts hdraft hfinish
      case some.some =>
        cases hfinish
        exact hdraft value rfl
      all_goals cases hfinish
  intro j f hread
  unfold Field.reader at hread
  split at hread
  · cases hread
  · rename_i type value hparts
    exact Field.allFit_of_ofValue (hrecord j _ hparts) (mapError_eq_ok_iff.mp hread)

/-- The fields of an element are read one by one. -/
theorem Element.reader_gives (h : Gives readField fun f => Field.AllFit [f]) :
    Gives (Element.reader readField) fun e => Field.AllFit e.fields := by
  refine Gives.record (I := fun d => ∀ fields, d.fields = some fields → Field.AllFit fields) ?_ ?_ ?_
  · intro fields hfields
    cases hfields
  · intro slot j d d' hdraft hput
    unfold Element.Draft.put at hput
    split at hput
    · obtain ⟨index, -, rfl⟩ := map_eq_ok_iff.mp hput
      exact hdraft
    · obtain ⟨fields, hfields, rfl⟩ := map_eq_ok_iff.mp hput
      rintro _ ⟨⟩
      exact Field.allFit_of_forall (h.list j fields hfields)
  · rintro ⟨_ | index, _ | fields⟩ e hdraft hfinish
    case some.some =>
      cases hfinish
      exact hdraft fields rfl
    all_goals cases hfinish

/-- The fields of a message are read one by one; where they are left out there are none. -/
theorem Message.reader_gives (h : Gives readField fun f => Field.AllFit [f]) :
    Gives (Message.reader readField) fun m => Field.AllFit m.fields := by
  refine Gives.record (I := fun d => Field.AllFit d.fields) Field.allFit_nil ?_ ?_
  · intro slot j d d' hdraft hput
    unfold Message.Draft.put at hput
    -- Only the slot of the fields changes the fields of a draft.
    split at hput
    case h_5 =>
      obtain ⟨fields, hfields, rfl⟩ := map_eq_ok_iff.mp hput
      exact Field.allFit_of_forall (h.list j fields hfields)
    all_goals
      obtain ⟨_, -, rfl⟩ := map_eq_ok_iff.mp hput
      exact hdraft
  · rintro ⟨_ | serviceId, _ | messageId, category, isForward, fields, name⟩ m hdraft hfinish
    case some.some =>
      cases hfinish
      exact hdraft
    all_goals cases hfinish

/-- A value is a number, a text or octets, or it is made of fields that were read. -/
theorem Value.payload_gives (h : Gives readField fun f => Field.AllFit [f]) (family : String) :
    Gives (Value.payload readField family) fun v => Field.AllFit v.parts := by
  intro j v hread
  unfold Value.payload at hread
  -- Arrays and messages are made of fields; values of the other families have no parts.
  split at hread
  case h_7 =>
    obtain ⟨es, helements, rfl⟩ := map_eq_ok_iff.mp hread
    exact Field.allFit_flatMap_iff.mpr ((Element.reader_gives h).list j es helements)
  case h_8 =>
    obtain ⟨m, hmessage, rfl⟩ := map_eq_ok_iff.mp hread
    exact Message.reader_gives h j m hmessage
  case h_9 => cases hread
  all_goals
    obtain ⟨_, -, rfl⟩ := map_eq_ok_iff.mp hread
    exact Field.allFit_nil

end Forms

/-- **What is read as a value is in order**, however many levels may stand inside each other. -/
theorem Value.readWithin_gives (levels : Nat) :
    Gives (Value.readWithin levels) fun v => Field.AllFit v.parts := by
  induction levels with
  | zero =>
      intro j v hread
      cases hread
  | succ levels ih => exact .variant (Value.payload_gives (Field.reader_gives ih))

/-- A field that is accepted fits, with all that is inside it. -/
theorem Field.ofJson_gives : Gives Field.ofJson fun f => Field.AllFit [f] :=
  fun j => Field.reader_gives (Value.readWithin_gives _) j

/-- An element that is accepted holds fields that fit. -/
theorem Element.ofJson_gives : Gives Element.ofJson fun e => Field.AllFit e.fields :=
  fun j => Element.reader_gives (Field.reader_gives (Value.readWithin_gives _)) j

/-- A message that is accepted holds fields that fit. -/
theorem Message.ofJson_gives : Gives Message.ofJson fun m => Field.AllFit m.fields :=
  fun j => Message.reader_gives (Field.reader_gives (Value.readWithin_gives _)) j

end SatWire
