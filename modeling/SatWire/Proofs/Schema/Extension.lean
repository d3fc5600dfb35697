import SatWire.Proofs.Schema.Conform

/-!
# Registries that grow

A later registry keeps what an earlier one says and may add to it: entries of new keys, and optional
definitions behind those that an entry had.  Old definitions stay as they were and where they were,
so fields follow a layout by the same rules as before and the end of a payload, which only optional
definitions may outlast, means what it meant.

* `lookup_eq_ok_iff` — a registry tells the entries it holds, and no others;
* `conform_of_extends` — what conforms to a registry conforms to every later one.
-/

namespace SatWire

/-- The second layout goes on where the first one ends, with optional definitions only. -/
def Lengthens (ds es : List FieldDef) : Prop :=
  ∃ added, es = ds ++ added ∧ ∀ d ∈ added, d.optional = true

/-- The second entry is the first one with a layout that may go on further. -/
structure SchemaEntry.Extends (old new : SchemaEntry) : Prop where
  serviceId : new.serviceId = old.serviceId
  messageId : new.messageId = old.messageId
  name : new.name = old.name
  direction : new.direction = old.direction
  fields : Lengthens old.fields new.fields

/-- Every entry of the first registry goes on in the second. -/
def Registry.Extends (old new : Registry) : Prop :=
  ∀ entry ∈ old.entries, ∃ later ∈ new.entries, entry.Extends later

section Layouts

variable {ds es : List FieldDef} {fs : List Field}

/-- Fields that follow a layout follow every longer one. -/
theorem Follows.lengthened (hfollows : Follows ds fs) (hlonger : Lengthens ds es) :
    Follows es fs := by
  obtain ⟨added, rfl, hadded⟩ := hlonger
  induction fs generalizing ds with
  | nil =>
      rw [Follows] at hfollows ⊢
      exact List.forall_mem_append.mpr ⟨hfollows, hadded⟩
  | cons f fs ih =>
      cases ds with
      | nil => exact hfollows.elim
      | cons d ds =>
          rw [Follows] at hfollows
          rw [List.cons_append, Follows]
          exact ⟨hfollows.1, ih hfollows.2⟩

end Layouts

namespace Registry

variable {r old new : Registry}

/-- No two entries of a registry have one key. -/
theorem eq_of_rank_eq {a b : SchemaEntry} (ha : a ∈ r.entries) (hb : b ∈ r.entries)
    (hrank : a.rank = b.rank) : a = b := by
  have hforward : r.entries.Pairwise fun a b => a.rank = b.rank → a = b :=
    r.ranked.imp fun hless hsame => absurd hsame (Nat.ne_of_lt hless)
  have hbackward : r.entries.Pairwise fun a b => b.rank = a.rank → b = a :=
    hforward.imp fun hsame hrank => (hsame hrank.symm).symm
  exact hforward.forall_of_forall_of_flip (fun _ _ _ => rfl) hbackward ha hb hrank

/-- **The entry with a key** is the one that the registry holds. -/
theorem lookup_eq_ok_iff {serviceId messageId : UInt8} {entry : SchemaEntry} :
    r.lookup serviceId messageId = .ok entry ↔
      entry ∈ r.entries ∧ entry.serviceId = serviceId ∧ entry.messageId = messageId := by
  rw [lookup]
  constructor
  · intro hlookup
    split at hlookup
    · rename_i found hfound
      cases hlookup
      have hkey := List.find?_some hfound
      simp only [Bool.and_eq_true, beq_iff_eq] at hkey
      exact ⟨List.mem_of_find?_eq_some hfound, hkey⟩
    · split at hlookup
      · exact absurd hlookup refuse_ne_ok
      · exact absurd hlookup refuse_ne_ok
  · rintro ⟨hmem, hservice, hmessage⟩
    split
    · rename_i found hfound
      have hkey := List.find?_some hfound
      simp only [Bool.and_eq_true, beq_iff_eq] at hkey
      have hrank : found.rank = entry.rank :=
        SchemaEntry.rank_inj.mpr ⟨hkey.1.trans hservice.symm, hkey.2.trans hmessage.symm⟩
      rw [eq_of_rank_eq (List.mem_of_find?_eq_some hfound) hmem hrank]
    · rename_i hnone
      have hother := List.find?_eq_none.mp hnone entry hmem
      simp [hservice, hmessage] at hother

/-- A key that is known stays known, and its entry goes on. -/
theorem Extends.lookup {serviceId messageId : UInt8} {entry : SchemaEntry}
    (hextends : old.Extends new) (hlookup : old.lookup serviceId messageId = .ok entry) :
    ∃ later, new.lookup serviceId messageId = .ok later ∧ entry.Extends later := by
  obtain ⟨hmem, hservice, hmessage⟩ := lookup_eq_ok_iff.mp hlookup
  obtain ⟨later, hlater, hentry⟩ := hextends entry hmem
  have hkey : later.serviceId = serviceId ∧ later.messageId = messageId :=
    ⟨hentry.serviceId.trans hservice, hentry.messageId.trans hmessage⟩
  exact ⟨later, lookup_eq_ok_iff.mpr ⟨hlater, hkey⟩, hentry⟩

/-- Definitions behind the last field have no messages to check. -/
theorem conformNested_lengthened {ds es : List FieldDef} {fs : List Field}
    (hfollows : Follows ds fs) (hlonger : Lengthens ds es)
    (hnested : conformNested r ds fs = .ok ()) : conformNested r es fs = .ok () := by
  obtain ⟨added, rfl, -⟩ := hlonger
  induction fs generalizing ds with
  | nil => simp [conformNested]
  | cons f fs ih =>
      cases ds with
      | nil => exact hfollows.elim
      | cons d ds =>
          rw [Follows] at hfollows
          obtain ⟨hfirst, hrest⟩ := conformNested_cons_eq_ok_iff.mp hnested
          exact conformNested_cons_eq_ok_iff.mpr ⟨hfirst, ih hfollows.2 hrest⟩

mutual

/-- **What conforms goes on to conform.**  A message that conforms to a registry conforms to every
one that extends it, under the entry that its own has become. -/
theorem conform_of_extends (hextends : old.Extends new) : ∀ {m : Message} {entry : SchemaEntry},
    old.conform m = .ok entry → ∃ later, new.conform m = .ok later ∧ entry.Extends later
  | ⟨serviceId, messageId, category, isForward, fields, name⟩, entry, hconform => by
      obtain ⟨hlookup, hfollows, hnested⟩ := conform_eq_ok_iff.mp hconform
      obtain ⟨later, hlater, hentry⟩ := hextends.lookup hlookup
      have hinside := conformNested_of_extends hextends fields hnested
      refine ⟨later, conform_eq_ok_iff.mpr ⟨hlater, ?_, ?_⟩, hentry⟩
      · exact hfollows.lengthened hentry.fields
      · exact conformNested_lengthened hfollows hentry.fields hinside

/-- What conforms inside under a registry does under a larger one. -/
theorem conformNested_of_extends (hextends : old.Extends new) : ∀ (fs : List Field)
    {ds : List FieldDef}, conformNested old ds fs = .ok () → conformNested new ds fs = .ok ()
  | [], ds, _ => by simp [conformNested]
  | f :: fs, [], _ => by simp [conformNested]
  | ⟨type, value⟩ :: fs, d :: ds, hnested => by
      obtain ⟨hfirst, hrest⟩ := conformNested_cons_eq_ok_iff.mp hnested
      exact conformNested_cons_eq_ok_iff.mpr
        ⟨conformNestedValue_of_extends hextends value hfirst,
          conformNested_of_extends hextends fs hrest⟩

theorem conformNestedValue_of_extends (hextends : old.Extends new) : ∀ (value : Value)
    {type : FieldType}, conformNestedValue old type value = .ok () →
      conformNestedValue new type value = .ok ()
  | .message inner, type, hnested => by
      obtain ⟨entry, hconform⟩ := conformNestedValue_message_eq_ok_iff.mp hnested
      obtain ⟨later, hlater, -⟩ := conform_of_extends hextends hconform
      exact conformNestedValue_message_eq_ok_iff.mpr ⟨later, hlater⟩
  | .array elements, type, hnested => by
      cases type with
      | array layout =>
          rw [conformNestedValue] at hnested ⊢
          exact conformNestedElements_of_extends hextends elements hnested
      | uint | int | bool | text | bytes | enum | message => simp [conformNestedValue]
  | .uint _, _, _ | .int _, _, _ | .bool _, _, _ | .text _, _, _ | .bytes _, _, _
  | .enum _, _, _ => by simp [conformNestedValue]

theorem conformNestedElements_of_extends (hextends : old.Extends new) : ∀ (es : List Element)
    {layout : List FieldDef}, conformNestedElements old layout es = .ok () →
      conformNestedElements new layout es = .ok ()
  | [], layout, _ => by rw [conformNestedElements]
  | ⟨index, fields⟩ :: es, layout, hnested => by
      obtain ⟨hfollows, hfirst, hrest⟩ := conformNestedElements_cons_eq_ok_iff.mp hnested
      exact conformNestedElements_cons_eq_ok_iff.mpr
        ⟨hfollows, conformNested_of_extends hextends fields hfirst,
          conformNestedElements_of_extends hextends es hrest⟩

end

end Registry

end SatWire
