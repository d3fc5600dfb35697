import Mathlib.Data.List.Forall2
import SatWire.Proofs.Frame.RoundTrip
import SatWire.Proofs.Inspect.Isolation

/-!
# What is decoded is encoded back

A line that is answered holds a frame (`Inspector.Holds`), and its answer is the line of the message
of that frame.  Read as a line to be encoded, the answer gives the message, the message is written as
the frame that it was read from, and the frame passes the ceiling that it passed before
(`Inspector.encodeLine_render`).  So an input without refused lines, decoded and encoded again, gives
the frames of its lines, one by one.
-/

namespace SatWire

/-- Every octet of the frame that is read as a truth value is zero or one. -/
def Registry.CanonicalFrame (r : Registry) (frame : Bytes) : Prop :=
  ∃ m truths, SpellsMessage r frame m truths ∧ Canonical truths

namespace Inspector

/-- The line holds the frame in hexadecimal, perhaps behind a sequence number. -/
def Holds (line : String) (frame : Bytes) : Prop :=
  ∃ number text, splitNumber (Text.trim line.toList) = .ok (number, text) ∧ Hex.Spells text frame

/-- No line holds two frames. -/
theorem rightUnique_holds : Relator.RightUnique Holds := by
  intro line f g hf hg
  obtain ⟨number, text, hsplit, hf⟩ := hf
  obtain ⟨_, _, hsame, hg⟩ := hg
  rw [hsplit] at hsame
  cases hsame
  exact Except.ok.inj (hf.decode.symm.trans hg.decode)

variable {i : Inspector} {h : History}

/-- A line that is decoded holds the frame of its message. -/
theorem exists_of_decodeLine {line : List Char} {decoded : DecodedLine} {after : History}
    (hline : i.decodeLine h line = .ok (decoded, after)) :
    ∃ number text frame, splitNumber line = .ok (number, text) ∧ Hex.Spells text frame
      ∧ i.readFrame frame = .ok decoded.message := by
  obtain ⟨⟨number, text⟩, hsplit, hline⟩ := bind_eq_ok_iff.mp hline
  obtain ⟨frame, hhex, hline⟩ := bind_eq_ok_iff.mp hline
  obtain ⟨m, hread, hline⟩ := bind_eq_ok_iff.mp hline
  obtain ⟨next, -, hline⟩ := bind_eq_ok_iff.mp hline
  cases hline
  exact ⟨number, text, frame, hsplit, Hex.decode_eq_ok_iff.mp (mapError_eq_ok_iff.mp hhex),
    mapError_eq_ok_iff.mp hread⟩

/-- A frame that was read, with its line. -/
structure Printed (i : Inspector) where
  frame : Bytes
  decoded : DecodedLine
  read : i.readFrame frame = .ok decoded.message

/-- The text that was printed. -/
def Printed.text (p : Printed i) : String := p.decoded.toJson.render

/-- **Decoding, line by line.**  If no line is refused, the lines that are not blank hold frames, and
the answers are the lines of what is read in them. -/
theorem exists_printed {lines : List String}
    (haccepted : ∀ error, Verdict.refused error ∉ i.decoding.verdictsFrom h lines) :
    ∃ printed : List (Printed i),
      List.Forall₂ Holds (lines.filter Pipeline.isText) (printed.map Printed.frame)
        ∧ answers (i.decoding.verdictsFrom h lines) = printed.map Printed.text := by
  induction lines generalizing h with
  | nil => exact ⟨[], .nil, rfl⟩
  | cons line lines ih =>
      obtain ⟨v, next, hstep⟩ := i.decoding.exists_step h line
      rw [hstep.verdictsFrom_cons] at haccepted ⊢
      obtain ⟨printed, hholds, hanswers⟩ := ih (h := next) fun error hmem =>
        haccepted error (List.mem_cons_of_mem _ hmem)
      unfold answers at hanswers ⊢
      rw [List.filter_cons, hstep.isText_eq]
      cases hstep with
      | blank => exact ⟨printed, hholds, hanswers⟩
      | refused => exact absurd List.mem_cons_self (haccepted _)
      | answered htext hanswer =>
          obtain ⟨⟨decoded, after⟩, hline, hprint⟩ := map_eq_ok_iff.mp hanswer
          obtain ⟨rfl, rfl⟩ := Prod.mk.inj hprint
          obtain ⟨number, text, frame, hsplit, hspells, hread⟩ := exists_of_decodeLine hline
          refine ⟨⟨frame, decoded, hread⟩ :: printed, .cons ⟨number, text, hsplit, hspells⟩ hholds, ?_⟩
          rw [List.filterMap_cons, hanswers]
          rfl

/-- What is read from a canonical frame is written as this frame. -/
theorem writeFrame_of_readFrame {frame : Bytes} {m : Message} (hread : i.readFrame frame = .ok m)
    (hcanonical : i.registry.CanonicalFrame frame) : i.writeFrame m = .ok frame := by
  obtain ⟨_, hsize, hdecode⟩ := bind_eq_ok_iff.mp hread
  obtain ⟨found, truths, hspells, htruths⟩ := hcanonical
  -- The spelling is one of the message that was read, for a frame has no other.
  have hshallow : found.nesting ≤ i.decoder.limit := by
    by_contra hdeep
    have hrefused := decode_too_deep (d := i.decoder) hspells (Nat.lt_of_not_le hdeep)
    exact hrefused.ne_ok m hdecode
  have hfound := (decode_eq_ok_iff (d := i.decoder)).mpr ⟨⟨truths, hspells⟩, hshallow⟩
  rw [hdecode, Except.ok.injEq] at hfound
  rw [← hfound] at hspells
  obtain ⟨written, hencode, -, hsame⟩ := hspells.encode
  have hchecked : m.encodeChecked i.registry = .ok frame :=
    Message.encodeChecked_eq_ok_iff.mpr ⟨hspells.conforms, hsame.mpr htruths ▸ hencode⟩
  exact bind_eq_ok_iff.mpr ⟨frame, hchecked, bind_eq_ok_iff.mpr ⟨(), hsize, rfl⟩⟩

/-- **One line back.**  The line of a canonical frame is encoded as the frame. -/
theorem encodeLine_render (p : Printed i) (hcanonical : i.registry.CanonicalFrame p.frame)
    (hshallow : Json.nesting p.text ≤ 127) : i.encodeLine p.text.toList = .ok p.frame := by
  have hfit : Field.AllFit p.decoded.message.fields := by
    obtain ⟨_, -, hdecode⟩ := bind_eq_ok_iff.mp p.read
    obtain ⟨⟨truths, hspells⟩, -⟩ := (decode_eq_ok_iff (d := i.decoder)).mp hdecode
    exact p.decoded.message.wellTyped_iff.mp hspells.wellTyped
  have hparse := p.decoded.parse_render hfit hshallow
  have hwrite := writeFrame_of_readFrame p.read hcanonical
  have hmessage : Reader.parse Message.ofJson (String.ofList p.text.toList)
      = .ok p.decoded.message := by
    rw [String.ofList_toList]
    exact hparse
  exact bind_eq_ok_iff.mpr ⟨p.decoded.message, mapError_eq_ok_iff.mpr hmessage,
    mapError_eq_ok_iff.mpr hwrite⟩

/-- **Encoding, line by line.**  Every line that was printed is answered with its frame. -/
theorem verdicts_printed {printed : List (Printed i)}
    (hcanonical : ∀ p ∈ printed, i.registry.CanonicalFrame p.frame)
    (hshallow : ∀ p ∈ printed, Json.nesting p.text ≤ 127) :
    i.encoding.verdicts (printed.map Printed.text)
      = printed.map fun p => Verdict.answered (Hex.encode p.frame) := by
  induction printed with
  | nil => rfl
  | cons p printed ih =>
      obtain ⟨hframe, hframes⟩ := List.forall_mem_cons.mp hcanonical
      obtain ⟨htext, htexts⟩ := List.forall_mem_cons.mp hshallow
      have htrim : Text.trim p.text.toList = p.text.toList := p.decoded.clean_render.2
      have hfull : p.text.toList ≠ [] := by
        obtain ⟨members, -, hline⟩ := p.decoded.exists_members
        obtain ⟨inner, hinner⟩ := Json.exists_spelling_obj
          ((p.decoded.number.map fun n => ("sequence", Json.int n.toNat)).toList ++ members)
        rw [Printed.text, Json.toList_render, hline, hinner]
        exact List.cons_ne_nil _ _
      have hstep : i.encoding.Step () p.text (.answered (Hex.encode p.frame)) () := by
        refine .answered (htrim.symm ▸ hfull) ?_
        rw [htrim]
        exact map_eq_ok_iff.mpr ⟨p.frame, encodeLine_render p hframe htext, rfl⟩
      rw [List.map_cons, List.map_cons, ← ih hframes htexts]
      exact hstep.verdictsFrom_cons _

end Inspector

/-- Without refusals no verdict refuses. -/
theorem not_mem_of_refused_eq_zero {ending : Ending} {number : Nat} {verdicts : List Verdict}
    (hrefused : (carryOut number none ending verdicts).refused = 0) (error : LineError) :
    Verdict.refused error ∉ verdicts := by
  intro hmem
  obtain ⟨n, hn⟩ := List.mem_iff_getElem?.mp hmem
  have hwarned : (⟨number + n, error⟩ : Warning) ∈ (carryOut number none ending verdicts).warnings :=
    mem_warnings_iff.mpr ⟨n, hn, rfl⟩
  rw [refused_carryOut, List.length_eq_zero_iff] at hrefused
  rw [hrefused] at hwarned
  exact absurd hwarned List.not_mem_nil

/-- **What is decoded is encoded back.**  If an inspector refuses no line of an input, each line that
is not blank holds a frame.  If every octet that is read as a truth value is zero or one, and no line
that is printed nests too deep for a text, then the same inspector refuses no line of what it
printed, and prints these frames in their order, one to a line. -/
theorem Inspector.encoding_after_decoding (i : Inspector) {input : Bytes} {texts : List String}
    (htexts : Text.lines input = texts.map Utf8.encode)
    (hrefused : (i.decoding.run input none).refused = 0) :
    ∃ frames : List Bytes,
      List.Forall₂ Holds (texts.filter Pipeline.isText) frames
      ∧ ((∀ frame ∈ frames, i.registry.CanonicalFrame frame) →
        (∀ line ∈ (readLines (i.decoding.run input none).output).1, Json.nesting line ≤ 127) →
        let back := i.encoding.run (i.decoding.run input none).output none
        back.ending = .complete ∧ back.refused = 0 ∧ back.warnings = []
          ∧ back.answered = frames.length
          ∧ back.output = frames.flatMap fun frame => Utf8.encode (Hex.encode frame) ++ [0x0A]) := by
  have hlines := i.oneLine_decoding.lines_output htexts
  rw [i.decoding.run_of_texts htexts] at hrefused
  obtain ⟨printed, hholds, hanswers⟩ := exists_printed (not_mem_of_refused_eq_zero hrefused)
  refine ⟨printed.map Printed.frame, hholds, ?_⟩
  intro hcanonical hshallow back
  rw [Pipeline.verdicts, hanswers] at hlines
  rw [readLines_of_texts hlines] at hshallow
  have hverdicts := verdicts_printed
    (fun p hmem => hcanonical p.frame (List.mem_map_of_mem hmem))
    fun p hmem => hshallow p.text (List.mem_map_of_mem hmem)
  have hframes : answers (printed.map fun p => Verdict.answered (Hex.encode p.frame))
      = (printed.map Printed.frame).map Hex.encode := by
    unfold answers
    rw [List.filterMap_map, List.map_map]
    exact congrFun List.filterMap_eq_map' printed
  have hrun : back = carryOut 1 none .complete
      (printed.map fun p => Verdict.answered (Hex.encode p.frame)) :=
    (i.encoding.run_of_texts hlines).trans (congrArg (carryOut 1 none .complete) hverdicts)
  have hwarnings : (carryOut 1 none .complete
      (printed.map fun p => Verdict.answered (Hex.encode p.frame))).warnings = [] := by
    apply List.eq_nil_iff_forall_not_mem.mpr
    intro w hw
    obtain ⟨n, hn, -⟩ := mem_warnings_iff.mp hw
    obtain ⟨p, -, hanswered⟩ := List.mem_map.mp (List.mem_of_getElem? hn)
    cases hanswered
  rw [hrun]
  refine ⟨ending_carryOut 1 _, ?_, hwarnings, ?_, ?_⟩
  · rw [refused_carryOut, hwarnings]
    rfl
  · rw [answered_carryOut, hframes, List.length_map]
  · rw [output_carryOut, hframes, List.map_map, List.flatMap_map]
    rfl

/-- Envelopes with and without numbers, in digits of either case, among blanks. -/
theorem Inspector.encoding_after_decoding_envelopes :
    let i : Inspector := { registry := envelopes }
    let texts := [" 5 01010001EEF901", "", "01010001eef901", "6 01010008b8d40101010001eEf901 "]
    let input := (texts.map Utf8.encode).flatMap (· ++ [0x0A])
    Text.lines input = texts.map Utf8.encode ∧ (i.decoding.run input none).refused = 0
      ∧ (i.encoding.run (i.decoding.run input none).output none).answered = 3
      ∧ (i.encoding.run (i.decoding.run input none).output none).output
        = Utf8.encode "01010001eef901\n01010001eef901\n01010008b8d40101010001eef901\n" := by
  intro i texts input
  have hlines : Text.lines input = texts.map Utf8.encode := by decide +kernel
  have hrefused : (i.decoding.run input none).refused = 0 := by decide +kernel
  obtain ⟨frames, hholds, hback⟩ := i.encoding_after_decoding hlines hrefused
  let small : Bytes := [1, 1, 0, 1, 238, 249, 1]
  let large : Bytes := [1, 1, 0, 8, 184, 212, 1, 1, 1, 0, 1, 238, 249, 1]
  have hholdsSmall : Holds " 5 01010001EEF901" small :=
    ⟨some 5, "01010001EEF901".toList, by decide +kernel, Hex.decode_eq_ok_iff.mp (by decide +kernel)⟩
  have hholdsAlone : Holds "01010001eef901" small :=
    ⟨none, "01010001eef901".toList, by decide +kernel, Hex.decode_eq_ok_iff.mp (by decide +kernel)⟩
  have hholdsLarge : Holds "6 01010008b8d40101010001eEf901 " large :=
    ⟨some 6, "01010008b8d40101010001eEf901".toList, by decide +kernel,
      Hex.decode_eq_ok_iff.mp (by decide +kernel)⟩
  have hfilter : texts.filter Pipeline.isText
      = [" 5 01010001EEF901", "01010001eef901", "6 01010008b8d40101010001eEf901 "] := by
    decide +kernel
  have hheld : List.Forall₂ Holds (texts.filter Pipeline.isText) [small, small, large] := by
    rw [hfilter]
    exact .cons hholdsSmall (.cons hholdsAlone (.cons hholdsLarge .nil))
  have hframes : frames = [small, small, large] := rightUnique_holds.forall₂ hholds hheld
  have hcanonical : ∀ frame ∈ frames, i.registry.CanonicalFrame frame := by
    have hsmall : envelopes.CanonicalFrame small :=
      ⟨_, spells_of_encodeChecked (wellTyped_envelope 0) (by decide +kernel)⟩
    have hlarge : envelopes.CanonicalFrame large :=
      ⟨_, spells_of_encodeChecked (wellTyped_envelope 1) (by decide +kernel)⟩
    simp only [hframes, List.forall_mem_cons]
    exact ⟨hsmall, hsmall, hlarge, fun _ hmem => absurd hmem List.not_mem_nil⟩
  have hshallow : ∀ line ∈ (readLines (i.decoding.run input none).output).1,
      Json.nesting line ≤ 127 := by
    have haccepted := hrefused
    rw [i.decoding.run_of_texts hlines] at haccepted
    obtain ⟨printed, hprinted, hanswers⟩ := exists_printed (not_mem_of_refused_eq_zero haccepted)
    have hsame : printed.map Printed.frame = [small, small, large] :=
      rightUnique_holds.forall₂ hprinted hheld
    have hread : ∀ frame ∈ [small, small, large],
        ∃ m ∈ [envelope 0, envelope 1], i.readFrame frame = .ok m := by decide +kernel
    have hdepths : ∀ m ∈ [envelope 0, envelope 1], m.toJson.depth ≤ 127 := by decide
    rw [readLines_of_texts (i.oneLine_decoding.lines_output hlines), Pipeline.verdicts, hanswers]
    intro line hmem
    obtain ⟨p, hp, rfl⟩ := List.mem_map.mp hmem
    obtain ⟨m, hm, hread⟩ := hread p.frame (hsame ▸ List.mem_map_of_mem hp)
    have hmessage : p.decoded.message = m := Except.ok.inj (p.read.symm.trans hread)
    rw [Printed.text, Json.nesting_render p.decoded.toJson_plain, p.decoded.depth_toJson, hmessage]
    exact hdepths m hm
  obtain ⟨-, -, -, hanswered, houtput⟩ := hback hcanonical hshallow
  rw [hframes] at hanswered houtput
  refine ⟨hlines, hrefused, hanswered, houtput.trans ?_⟩
  decide +kernel

end SatWire
