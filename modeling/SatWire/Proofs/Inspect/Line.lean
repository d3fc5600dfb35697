import SatWire.Inspect.Line
import SatWire.Proofs.Form.ReadBack
import SatWire.Proofs.Octets.Hex
import SatWire.Proofs.Text.Lines

/-!
# The lines of an inspection

The line that is printed for a decoded frame is the text of an object, on one line and without blanks
at its ends; a sequence number in it is a member that a message does not have, so the line reads back
as the message alone (`DecodedLine.parse_render`).  The line that is printed for an encoded message
is one of digits.
-/

namespace SatWire

namespace Json

variable {j : Json}

/-- The text of a plain value has no line feed in it. -/
theorem lineFeed_not_mem_render (hplain : j.Plain) : '\n' ∉ j.render.toList := by
  intro hmem
  have hprintable := List.all_eq_true.mp (spelling_printable hplain) '\n' (toList_render j ▸ hmem)
  exact absurd hprintable (by decide)

/-- The text of an object has no blanks at its ends. -/
theorem trim_render_obj (members : List (String × Json)) :
    Text.trim (Json.obj members).render.toList = (Json.obj members).render.toList := by
  obtain ⟨inner, hinner⟩ := exists_spelling_obj members
  rw [toList_render, hinner]
  apply Text.trim_eq
  · intro c hfirst
    cases hfirst
    rfl
  · intro c hlast
    rw [← List.cons_append, List.getLast?_concat] at hlast
    cases hlast
    rfl

end Json

/-- The text of octets has no line feed in it, and no blanks. -/
theorem Hex.clean_encode (octets : Bytes) :
    '\n' ∉ (Hex.encode octets).toList
      ∧ Text.trim (Hex.encode octets).toList = (Hex.encode octets).toList := by
  have hclean := (Hex.spells_encode octets).clean
  exact ⟨fun hmem => absurd (hclean _ hmem).1 (by decide),
    Text.trim_of_clean fun c hmem => (hclean c hmem).2.2⟩

namespace DecodedLine

/-- The form of a line is that of its message, perhaps with a number in front. -/
theorem exists_members (d : DecodedLine) :
    ∃ members, d.message.toJson = .obj members
      ∧ d.toJson
        = .obj ((d.number.map fun n => ("sequence", Json.int n.toNat)).toList ++ members) := by
  obtain ⟨number, message⟩ := d
  cases message with
  | mk serviceId messageId category isForward fields name =>
      refine ⟨_, by rw [Message.toJson], ?_⟩
      rw [toJson, Message.toJson]

/-- The form of a decoded line is a plain value. -/
theorem toJson_plain (d : DecodedLine) : d.toJson.Plain := by
  obtain ⟨members, hmessage, hline⟩ := d.exists_members
  have hplain := d.message.toJson_plain
  rw [hmessage] at hplain
  rw [hline]
  cases d.number with
  | none => exact hplain
  | some number => exact ⟨trivial, hplain⟩

/-- A number in front does not make the form deeper. -/
theorem depth_toJson (d : DecodedLine) : d.toJson.depth = d.message.toJson.depth := by
  obtain ⟨members, hmessage, hline⟩ := d.exists_members
  rw [hmessage, hline]
  cases d.number with
  | none => rfl
  | some number =>
      simp only [Option.map, Option.toList, List.singleton_append, Json.depth, Json.depthOfMembers,
        Nat.zero_max]

/-- The line has no line feed in it, and no blanks at its ends. -/
theorem clean_render (d : DecodedLine) :
    '\n' ∉ d.toJson.render.toList
      ∧ Text.trim d.toJson.render.toList = d.toJson.render.toList := by
  refine ⟨Json.lineFeed_not_mem_render d.toJson_plain, ?_⟩
  obtain ⟨members, -, hline⟩ := d.exists_members
  rw [hline]
  exact Json.trim_render_obj _

/-- **The line of a message reads back as the message**, past its number if it has one, unless it
nests too deep for a text. -/
theorem parse_render (d : DecodedLine) (hfit : Field.AllFit d.message.fields)
    (hshallow : Json.nesting d.toJson.render ≤ 127) :
    Reader.parse Message.ofJson d.toJson.render = .ok d.message := by
  rw [Json.nesting_render d.toJson_plain, depth_toJson] at hshallow
  obtain ⟨members, hmembers, hline⟩ := d.exists_members
  rw [hline]
  cases d.number with
  | none =>
      have hback := Reader.readsBack d.message.toJson_plain (Message.ofJson_toJson hfit)
        d.message.ofJson_needsRoom
      rw [← Json.nesting_render d.message.toJson_plain] at hshallow
      rw [hmembers] at hback hshallow
      exact hback.1 hshallow
  | some number =>
      have hnumber : (Json.int number.toNat).Plain := trivial
      exact Message.parse_unknown hfit hmembers (by decide) hnumber hshallow

end DecodedLine

end SatWire
