import SatWire.Proofs.Frame.RoundTrip
import SatWire.Proofs.Inspect.InPlace
import SatWire.Proofs.Inspect.Line

/-!
# Lines that are not answered leave no trace

A blank or refused line leaves the memory as it was, so every other line is judged as if it were not
there: the verdicts on the lines that are left are the verdicts that were left
(`Pipeline.verdictsFrom_keptFrom`).  Of any set of such lines nothing remains in a run but the count of
its refusals.
-/

namespace SatWire

variable {σ : Type} {p : Pipeline σ}

/-- Every answer stands on one line. -/
def Pipeline.OneLine (p : Pipeline σ) : Prop :=
  ∀ memory line text next, p.answer memory line = .ok (text, next) → '\n' ∉ text.toList

/-- A decoded line is printed on one line. -/
theorem Inspector.oneLine_decoding (i : Inspector) : i.decoding.OneLine := by
  intro h line text next hanswer
  obtain ⟨⟨decoded, after⟩, -, hprint⟩ := map_eq_ok_iff.mp hanswer
  obtain ⟨rfl, -⟩ := Prod.mk.inj hprint
  exact decoded.clean_render.1

/-- A frame in hex is printed on one line. -/
theorem Inspector.oneLine_encoding (i : Inspector) : i.encoding.OneLine := by
  intro h line text next hanswer
  obtain ⟨frame, -, hprint⟩ := map_eq_ok_iff.mp hanswer
  obtain ⟨rfl, -⟩ := Prod.mk.inj hprint
  exact (Hex.clean_encode frame).1

section Verdicts

variable {dropped : Nat → Bool} {number : Nat} {verdicts : List Verdict}

/-- No verdict that is dropped is an answer; verdicts are numbered from `number` on. -/
def Silent (dropped : Nat → Bool) (number : Nat) (verdicts : List Verdict) : Prop :=
  ∀ n v, verdicts[n]? = some v → dropped (number + n) = true → v.answer? = none

/-- The first verdict is no answer if it is dropped. -/
theorem Silent.head {v : Verdict} (h : Silent dropped number (v :: verdicts))
    (hdropped : dropped number = true) : v.answer? = none :=
  h 0 v rfl hdropped

/-- Behind the first verdict, dropping goes on from the next line. -/
theorem Silent.tail {v : Verdict} (h : Silent dropped number (v :: verdicts)) :
    Silent dropped (number + 1) verdicts := by
  intro n u hu hdropped
  rw [Nat.add_right_comm] at hdropped
  exact h (n + 1) u hu hdropped

/-- **Without lines that were not answered, the others are judged as before.** -/
theorem Pipeline.verdictsFrom_keptFrom {memory : σ} {lines : List String}
    (hsilent : Silent dropped number (p.verdictsFrom memory lines)) :
    p.verdictsFrom memory (Text.keptFrom dropped number lines)
      = Text.keptFrom dropped number (p.verdictsFrom memory lines) := by
  induction lines generalizing memory number with
  | nil => rfl
  | cons line lines ih =>
      obtain ⟨v, next, hstep⟩ := exists_step p memory line
      rw [hstep.verdictsFrom_cons] at hsilent ⊢
      have hothers := ih hsilent.tail
      rw [Text.keptFrom, Text.keptFrom]
      split
      · rename_i hdropped
        rw [← hstep.memory_eq (hsilent.head hdropped)]
        exact hothers
      · rw [hstep.verdictsFrom_cons, hothers]

/-- Dropping verdicts that are no answers drops no answer. -/
theorem answers_keptFrom (hsilent : Silent dropped number verdicts) :
    answers (Text.keptFrom dropped number verdicts) = answers verdicts := by
  induction verdicts generalizing number with
  | nil => rfl
  | cons v verdicts ih =>
      have hothers := ih hsilent.tail
      unfold answers at hothers ⊢
      rw [Text.keptFrom, List.filterMap_cons]
      split
      · rename_i hdropped
        rw [hothers, hsilent.head hdropped]
      · rw [List.filterMap_cons, hothers]

/-- What is left of the refusals is those that are not dropped. -/
theorem refused_keptFrom {ending : Ending} (start : Nat) :
    (carryOut start none ending (Text.keptFrom dropped number verdicts)).refused
        + ((carryOut number none ending verdicts).warnings.filter fun w => dropped w.line).length
      = (carryOut number none ending verdicts).refused := by
  induction verdicts generalizing number start with
  | nil => rfl
  | cons v verdicts ih =>
      have hothers := @ih (number + 1)
      rw [Text.keptFrom, carryOut_cons]
      cases hdropped : dropped number with
      | true =>
          rw [if_pos rfl]
          cases v with
          | refused error =>
              have hrest := hothers start
              simp only [List.filter_cons, hdropped, if_true, List.length_cons]
              omega
          | blank | answered text => exact hothers start
      | false =>
          rw [if_neg Bool.false_ne_true, carryOut_cons]
          cases v with
          | refused error =>
              have hrest := hothers (start + 1)
              simp only [List.filter_cons, hdropped, Bool.false_eq_true, if_false]
              omega
          | blank | answered text => exact hothers (start + 1)

end Verdicts

namespace Pipeline

/-- Every line with a text is answered or refused. -/
theorem answers_add_refused (p : Pipeline σ) (memory : σ) (number : Nat) (ending : Ending)
    (lines : List String) :
    (answers (p.verdictsFrom memory lines)).length
        + (carryOut number none ending (p.verdictsFrom memory lines)).refused
      = (lines.filter isText).length := by
  induction lines generalizing memory number with
  | nil => rfl
  | cons line lines ih =>
      obtain ⟨v, next, hstep⟩ := exists_step p memory line
      have hothers := ih next (number + 1)
      rw [hstep.verdictsFrom_cons, carryOut_cons, List.filter_cons, hstep.isText_eq]
      unfold answers at hothers ⊢
      cases v with
      | blank => exact hothers
      | answered text | refused error =>
          rw [if_pos rfl, List.filterMap_cons]
          simp only [Verdict.answer?, List.length_cons]
          omega

/-- All answers of a run stand on one line each. -/
theorem OneLine.answers (hone : p.OneLine) (memory : σ) (lines : List String) :
    ∀ text ∈ answers (p.verdictsFrom memory lines), '\n' ∉ text.toList := by
  induction lines generalizing memory with
  | nil => exact fun text hmem => absurd hmem List.not_mem_nil
  | cons line lines ih =>
      obtain ⟨v, next, hstep⟩ := exists_step p memory line
      rw [hstep.verdictsFrom_cons, SatWire.answers]
      cases hstep with
      | blank | refused => exact ih memory
      | answered _ hanswer =>
          exact List.forall_mem_cons.mpr ⟨hone _ _ _ _ hanswer, ih next⟩

/-- The lines of a run are the answers, one to a line. -/
theorem OneLine.lines_output (hone : p.OneLine) {input : Bytes} {texts : List String}
    (htexts : Text.lines input = texts.map Utf8.encode) :
    Text.lines (p.run input none).output = (SatWire.answers (p.verdicts texts)).map Utf8.encode := by
  rw [p.run_of_texts htexts, output_carryOut]
  apply Text.lines_joined
  intro octets hmem
  obtain ⟨text, htext, rfl⟩ := List.mem_map.mp hmem
  exact Text.lineFeed_not_mem (hone.answers _ _ text htext)

/-- No line of an input affects the others, unless it is answered. -/
structure Isolates (p : Pipeline σ) (texts : List String) (input : Bytes) : Prop where
  /-- The run goes on to the last line. -/
  complete : (p.run input none).ending = .complete
  /-- All lines with a text in them are answered or refused. -/
  counted : (p.run input none).answered + (p.run input none).refused
    = (texts.filter isText).length
  /-- What is printed is the answers, one to a line and in the order of the lines answered. -/
  printed : Text.lines (p.run input none).output
    = (SatWire.answers (p.verdicts texts)).map Utf8.encode
  /-- There are as many as are counted. -/
  printedCount : (Text.lines (p.run input none).output).length = (p.run input none).answered
  /-- Without lines that are blank or were refused, the run is the same but for their refusals. -/
  undisturbed : ∀ dropped : Nat → Bool,
    (∀ n text, texts[n]? = some text → dropped (n + 1) = true →
      isText text = false ∨ ∃ w ∈ (p.run input none).warnings, w.line = n + 1) →
    (p.run (Text.without dropped input) none).ending = .complete
      ∧ (p.run (Text.without dropped input) none).output = (p.run input none).output
      ∧ (p.run (Text.without dropped input) none).answered = (p.run input none).answered
      ∧ (p.run (Text.without dropped input) none).refused
          + ((p.run input none).warnings.filter fun w => dropped w.line).length
        = (p.run input none).refused

/-- A line that is blank or was warned of is not answered. -/
theorem silent_of_warned {dropped : Nat → Bool} {texts : List String} {ending : Ending}
    (h : ∀ n text, texts[n]? = some text → dropped (n + 1) = true →
      isText text = false
        ∨ ∃ w ∈ (carryOut 1 none ending (p.verdicts texts)).warnings, w.line = n + 1) :
    Silent dropped 1 (p.verdicts texts) := by
  intro n v hv hdropped
  have hbound : n < texts.length := by
    obtain ⟨hlength, -⟩ := List.getElem?_eq_some_iff.mp hv
    rwa [verdicts, length_verdictsFrom] at hlength
  rw [Nat.add_comm] at hdropped
  rcases h n texts[n] (List.getElem?_eq_getElem hbound) hdropped with hblank | ⟨w, hw, hline⟩
  · rw [verdicts, blank_of_verdictsFrom (List.getElem?_eq_getElem hbound) hblank] at hv
    cases hv
    rfl
  · obtain ⟨place, hverdict, hplace⟩ := mem_warnings_iff.mp hw
    obtain rfl : place = n := by omega
    rw [hv] at hverdict
    cases hverdict
    rfl

/-- **A pipeline isolates its lines** if each answer stands on one line. -/
theorem OneLine.isolates (hone : p.OneLine) {input : Bytes} {texts : List String}
    (htexts : Text.lines input = texts.map Utf8.encode) : p.Isolates texts input := by
  have hrun := p.run_of_texts htexts
  refine ⟨?_, ?_, hone.lines_output htexts, ?_, ?_⟩
  · rw [hrun, ending_carryOut]
  · rw [hrun, answered_carryOut]
    exact answers_add_refused p p.start 1 .complete texts
  · rw [hone.lines_output htexts, hrun, answered_carryOut, List.length_map]
  · intro dropped hdropped
    rw [hrun] at hdropped
    have hsilent : Silent dropped 1 (p.verdicts texts) := silent_of_warned hdropped
    have hleft : Text.lines (Text.without dropped input)
        = (Text.keptFrom dropped 1 texts).map Utf8.encode := by
      rw [Text.lines_without, htexts, Text.keptFrom_map]
    have hverdicts : p.verdicts (Text.keptFrom dropped 1 texts)
        = Text.keptFrom dropped 1 (p.verdicts texts) := verdictsFrom_keptFrom hsilent
    rw [p.run_of_texts hleft, hrun, hverdicts]
    refine ⟨ending_carryOut 1 _, ?_, ?_, refused_keptFrom 1⟩
    · rw [output_carryOut, output_carryOut, answers_keptFrom hsilent]
    · rw [answered_carryOut, answered_carryOut, answers_keptFrom hsilent]

end Pipeline

/-- **A bad line never affects the others**, neither in decoding nor in encoding, whatever the
inspector and whatever the lines of the input.  In decoding the verdicts are those on the lines
decoded in place, each with the history that the line before it left, refused or not. -/
theorem Inspector.lines_isolated (i : Inspector) {input : Bytes} {texts : List String}
    (htexts : Text.lines input = texts.map Utf8.encode) :
    i.decoding.Isolates texts input ∧ i.encoding.Isolates texts input
      ∧ i.decoding.verdicts texts = (i.decodeEach {} texts).map Inspector.verdict :=
  ⟨i.oneLine_decoding.isolates htexts, i.oneLine_encoding.isolates htexts,
    i.verdictsFrom_decoding {} texts⟩

/-- Two envelopes, with what is no hexadecimal text, a blank and a number out of turn around them.
Without the first two lines the envelopes are printed all the same, and one refusal is left. -/
theorem Inspector.lines_isolated_envelopes :
    let i : Inspector := { registry := envelopes }
    let texts := ["zz", " ", "5 01010001eef901", "3 01010001eef901", " 6 01010001EEF901"]
    let input := (texts.map Utf8.encode).flatMap (· ++ [0x0A])
    let left := Text.without (fun number => decide (number ≤ 2)) input
    Text.lines input = texts.map Utf8.encode
      ∧ (i.decoding.run input none).answered = 2 ∧ (i.decoding.run input none).refused = 2
      ∧ (i.decoding.run left none).output = (i.decoding.run input none).output
      ∧ (i.decoding.run left none).answered = 2 ∧ (i.decoding.run left none).refused = 1 := by
  intro i texts input left
  have hlines : Text.lines input = texts.map Utf8.encode := by decide +kernel
  have hanswered : (i.decoding.run input none).answered = 2 := by decide +kernel
  have hwarned : (i.decoding.run input none).warnings.map Warning.line = [1, 4] := by
    decide +kernel
  obtain ⟨hdecoding, -⟩ := i.lines_isolated hlines
  have hrefused : (i.decoding.run input none).refused = 2 := by
    have hcounted := hdecoding.counted
    have htexts : (texts.filter Pipeline.isText).length = 4 := by decide +kernel
    omega
  have hleft := hdecoding.undisturbed (fun number => decide (number ≤ 2)) ?_
  · obtain ⟨-, houtput, hsame, hothers⟩ := hleft
    have hdropped : ((i.decoding.run input none).warnings.filter
        fun w => decide (w.line ≤ 2)).length = 1 := by decide +kernel
    have hcount : (i.decoding.run left none).refused + 1 = 2 := by
      rw [← hrefused, ← hothers]
      exact congrArg _ hdropped.symm
    exact ⟨hlines, hanswered, hrefused, houtput, hsame.trans hanswered, Nat.succ.inj hcount⟩
  · intro n text htext hdropped
    have hfirst : 1 ∈ (i.decoding.run input none).warnings.map Warning.line := by
      rw [hwarned]
      exact List.mem_cons_self
    match n with
    | 0 => exact .inr (List.mem_map.mp hfirst)
    | 1 =>
        cases htext
        exact .inl (by decide)
    | n + 2 =>
        have hsmall : n + 2 + 1 ≤ 2 := of_decide_eq_true hdropped
        omega

end SatWire
