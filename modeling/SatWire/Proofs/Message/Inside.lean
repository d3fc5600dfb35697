import SatWire.Proofs.Frame.Scalar

/-!
# Fields inside fields

A field stands among others, or inside one of them: in an element of an array value, or in a message
that is a value, to any depth (`Field.Within`).  The fields of a list all fit if each of them fits its
type wherever it stands (`Field.AllFit`).

* `Field.allWellTyped_iff` — this is what being well typed says level by level;
* `Field.allFit_of_ofValue` — a checked field fits if its parts do;
* `Field.Single.allFit`, `Field.allFit_message` — the constructors that check nothing need no check.
-/

namespace SatWire

/-- The fields that a value is made of. -/
def Value.parts : Value → List Field
  | .array elements => elements.flatMap Element.fields
  | .message inner => inner.fields
  | _ => []

namespace Field

/-- The field stands among these, or somewhere inside one of them. -/
inductive Within (f : Field) : List Field → Prop
  | here {fs : List Field} (hmem : f ∈ fs) : Within f fs
  | deeper {fs : List Field} {g : Field} (hmem : g ∈ fs) (hinside : Within f g.value.parts) :
      Within f fs

/-- Each of these fields fits its type, and so does every field inside them. -/
def AllFit (fs : List Field) : Prop :=
  ∀ f : Field, f.Within fs → f.type.check f.value = .ok ()

variable {f : Field} {fs : List Field} {es : List Element}

/-- Fields fit if each does, with what is inside it. -/
theorem allFit_iff :
    AllFit fs ↔ ∀ f ∈ fs, f.type.check f.value = .ok () ∧ AllFit f.value.parts := by
  constructor
  · intro h f hmem
    exact ⟨h f (.here hmem), fun g hwithin => h g (.deeper hmem hwithin)⟩
  · intro h f hwithin
    cases hwithin with
    | here hmem => exact (h f hmem).1
    | deeper hmem hinside => exact (h _ hmem).2 f hinside

theorem allFit_nil : AllFit [] :=
  allFit_iff.mpr fun _ hmem => absurd hmem List.not_mem_nil

/-- Fields fit if the first does, with its parts, and those behind it do. -/
theorem allFit_cons :
    AllFit (f :: fs) ↔ (f.type.check f.value = .ok () ∧ AllFit f.value.parts) ∧ AllFit fs := by
  rw [allFit_iff, List.forall_mem_cons, ← allFit_iff]

/-- A field fits if it passes its check and its parts fit. -/
theorem allFit_singleton :
    AllFit [f] ↔ f.type.check f.value = .ok () ∧ AllFit f.value.parts := by
  rw [allFit_iff, List.forall_mem_singleton]

/-- Each of the fields that fit fits alone. -/
theorem AllFit.of_mem (h : AllFit fs) (hmem : f ∈ fs) : AllFit [f] :=
  allFit_singleton.mpr (allFit_iff.mp h f hmem)

/-- Fields fit if each of them fits alone. -/
theorem allFit_of_forall (h : ∀ f ∈ fs, AllFit [f]) : AllFit fs :=
  allFit_iff.mpr fun f hmem => allFit_singleton.mp (h f hmem)

/-- The parts of an array value are the fields of its elements. -/
theorem allFit_flatMap_iff : AllFit (es.flatMap Element.fields) ↔ ∀ e ∈ es, AllFit e.fields := by
  constructor
  · intro h e he
    exact allFit_iff.mpr fun f hf => allFit_iff.mp h f (List.mem_flatMap.mpr ⟨e, he, hf⟩)
  · intro h
    refine allFit_iff.mpr fun f hf => ?_
    obtain ⟨e, he, hin⟩ := List.mem_flatMap.mp hf
    exact allFit_iff.mp (h e he) f hin

end Field

mutual

/-- A value is well typed if the fields that it is made of fit. -/
theorem Value.wellTyped_iff : ∀ v : Value, v.WellTyped ↔ Field.AllFit v.parts
  | .array es => by
      rw [Value.WellTyped, Value.parts, Field.allFit_flatMap_iff]
      exact Element.allWellTyped_iff es
  | .message ⟨_, _, _, _, fs, _⟩ => by
      rw [Value.WellTyped, Message.WellTyped]
      exact Field.allWellTyped_iff fs
  | .uint _ | .int _ | .bool _ | .text _ | .bytes _ | .enum _ =>
      iff_of_true trivial Field.allFit_nil

/-- **Well typed means that all fit**, to any depth. -/
theorem Field.allWellTyped_iff : ∀ fs : List Field, Field.AllWellTyped fs ↔ Field.AllFit fs
  | [] => iff_of_true trivial Field.allFit_nil
  | ⟨type, value⟩ :: fs => by
      rw [Field.AllWellTyped, Field.WellTyped, Value.wellTyped_iff value,
        Field.allWellTyped_iff fs, Field.allFit_cons]

/-- Elements are well typed if the fields of each fit. -/
theorem Element.allWellTyped_iff : ∀ es : List Element,
    Element.AllWellTyped es ↔ ∀ e ∈ es, Field.AllFit e.fields
  | [] => iff_of_true trivial fun _ hmem => absurd hmem List.not_mem_nil
  | ⟨_, fs⟩ :: es => by
      rw [Element.AllWellTyped, Element.WellTyped, Field.allWellTyped_iff fs,
        Element.allWellTyped_iff es, List.forall_mem_cons]

end

/-- **A message is well typed** exactly if all fields in it fit, to any depth. -/
theorem Message.wellTyped_iff (m : Message) : m.WellTyped ↔ Field.AllFit m.fields := by
  obtain ⟨serviceId, messageId, category, isForward, fields, name⟩ := m
  rw [Message.WellTyped]
  exact Field.allWellTyped_iff fields

namespace Field

variable {type : FieldType} {value : Value} {f : Field}

/-- A value that its type holds passes the check. -/
theorem check_of_holds (h : type.holds value = true) : type.check value = .ok () := by
  unfold FieldType.check
  split
  · exact absurd h Bool.false_ne_true
  · exact if_pos h

/-- A field is made of a value that passes the check, and of no other. -/
theorem ofValue_eq_ok_iff :
    ofValue type value = .ok f ↔ type.check value = .ok () ∧ f = ⟨type, value⟩ := by
  rw [ofValue, map_eq_ok_iff]
  constructor
  · rintro ⟨⟨⟩, hcheck, rfl⟩
    exact ⟨hcheck, rfl⟩
  · rintro ⟨hcheck, rfl⟩
    exact ⟨(), hcheck, rfl⟩

/-- A checked field fits if its parts do. -/
theorem allFit_of_ofValue (hparts : AllFit value.parts) (hmake : ofValue type value = .ok f) :
    AllFit [f] := by
  obtain ⟨hcheck, rfl⟩ := ofValue_eq_ok_iff.mp hmake
  exact allFit_singleton.mpr ⟨hcheck, hparts⟩

/-- A message needs no check to be a value. -/
theorem allFit_message {inner : Message} (hparts : AllFit inner.fields) : AllFit [message inner] :=
  allFit_singleton.mpr ⟨rfl, hparts⟩

/-- What the constructors for the single types make. -/
inductive Single : Field → Prop
  | uint8 (n : UInt8) : Single (uint8 n)
  | uint16 (n : UInt16) : Single (uint16 n)
  | uint32 (n : UInt32) : Single (uint32 n)
  | uint64 (n : UInt64) : Single (uint64 n)
  | int8 (n : Int8) : Single (int8 n)
  | int16 (n : Int16) : Single (int16 n)
  | int32 (n : Int32) : Single (int32 n)
  | int64 (n : Int64) : Single (int64 n)
  | bool (b : Bool) : Single (bool b)
  | text (s : String) : Single (text s)
  | bytes (octets : Bytes) : Single (bytes octets)
  | enum (n : UInt8) : Single (enum n)

/-- Half of the words of a width are below zero. -/
theorem holdsInt_of_half {width : Width} {n : Int64}
    (hlow : -(2 ^ (8 * width.octets - 1) : Int) ≤ n.toInt)
    (hhigh : n.toInt < (2 ^ (8 * width.octets - 1) : Int)) : width.holdsInt n = true := by
  have hhalf : (BigEndian.wordCount width.octets : Int) = 2 * 2 ^ (8 * width.octets - 1) := by
    cases width <;> rfl
  refine Width.holdsInt_iff.mpr ?_
  rw [hhalf]
  omega

/-- A number of a type is in its range. -/
theorem Single.holds (h : Single f) : f.type.holds f.value = true := by
  cases h with
  | uint8 n =>
      refine Width.holdsNat_iff.mpr ?_
      rw [UInt8.toNat_toUInt64]
      exact n.toNat_lt
  | uint16 n =>
      refine Width.holdsNat_iff.mpr ?_
      rw [UInt16.toNat_toUInt64]
      exact n.toNat_lt
  | uint32 n =>
      refine Width.holdsNat_iff.mpr ?_
      rw [UInt32.toNat_toUInt64]
      exact n.toNat_lt
  | uint64 n => exact Width.holdsNat_iff.mpr n.toNat_lt
  | int8 n =>
      refine holdsInt_of_half ?_ ?_
      · rw [Int8.toInt_toInt64]
        exact n.le_toInt
      · rw [Int8.toInt_toInt64]
        exact n.toInt_lt
  | int16 n =>
      refine holdsInt_of_half ?_ ?_
      · rw [Int16.toInt_toInt64]
        exact n.le_toInt
      · rw [Int16.toInt_toInt64]
        exact n.toInt_lt
  | int32 n =>
      refine holdsInt_of_half ?_ ?_
      · rw [Int32.toInt_toInt64]
        exact n.le_toInt
      · rw [Int32.toInt_toInt64]
        exact n.toInt_lt
  | int64 n => exact holdsInt_of_half n.le_toInt n.toInt_lt
  | bool | text | bytes | enum => rfl

/-- The constructors for the single types make fields that fit. -/
theorem Single.allFit (h : Single f) : AllFit [f] := by
  refine allFit_singleton.mpr ⟨check_of_holds h.holds, ?_⟩
  cases h <;> exact allFit_nil

end Field

end SatWire
