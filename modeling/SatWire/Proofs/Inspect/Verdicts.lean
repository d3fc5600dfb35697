import SatWire.Inspect.Run
import SatWire.Proofs.Text.Lines

/-!
# What a run comes to, verdict by verdict

A pipeline takes its lines one by one (`Pipeline.Step`): a line is blank, or answered, or refused, and
only an answer changes the memory.  With room without limit, what a run leaves is told by the verdicts:
the answers are printed in their order, each refusal is warned of under the number of its line
(`mem_warnings_iff`), and the counts are those of answers and refusals.
-/

namespace SatWire

namespace Verdict

/-- The answer of a verdict, if it is one. -/
def answer? : Verdict → Option String
  | .answered text => some text
  | _ => none

end Verdict

/-- The answers among verdicts. -/
def answers (verdicts : List Verdict) : List String :=
  verdicts.filterMap Verdict.answer?

namespace Pipeline

variable {σ : Type} {p : Pipeline σ} {memory next : σ} {line : String} {v : Verdict}

/-- What one line comes to, and the memory after it. -/
inductive Step (p : Pipeline σ) (memory : σ) (line : String) : Verdict → σ → Prop
  | blank (hblank : Text.trim line.toList = []) : Step p memory line .blank memory
  | answered {text : String} {next : σ} (htext : Text.trim line.toList ≠ [])
      (hanswer : p.answer memory (Text.trim line.toList) = .ok (text, next)) :
      Step p memory line (.answered text) next
  | refused {error : LineError} (htext : Text.trim line.toList ≠ [])
      (hanswer : p.answer memory (Text.trim line.toList) = .error error) :
      Step p memory line (.refused error) memory

/-- Whether a line has more in it than blanks. -/
def isText (line : String) : Bool :=
  !(Text.trim line.toList).isEmpty

/-- A line comes to something unless it is blank. -/
theorem Step.isText_eq (hstep : Step p memory line v next) :
    isText line = match v with
      | .blank => false
      | _ => true := by
  cases hstep with
  | blank hblank =>
      rw [isText, hblank]
      rfl
  | answered htext | refused htext =>
      rw [isText, List.isEmpty_eq_false_iff.mpr htext]
      rfl

/-- Every line has a verdict. -/
theorem exists_step (p : Pipeline σ) (memory : σ) (line : String) :
    ∃ v next, Step p memory line v next := by
  by_cases hblank : Text.trim line.toList = []
  · exact ⟨_, _, .blank hblank⟩
  · cases hanswer : p.answer memory (Text.trim line.toList) with
    | ok answer => exact ⟨_, _, .answered hblank hanswer⟩
    | error error => exact ⟨_, _, .refused hblank hanswer⟩

/-- A line that is not answered leaves the memory as it was. -/
theorem Step.memory_eq (hstep : Step p memory line v next) (hsilent : v.answer? = none) :
    next = memory := by
  cases hstep with
  | blank | refused => rfl
  | answered => cases hsilent

/-- The verdict on a line stands first, and the memory after it judges the others. -/
theorem Step.verdictsFrom_cons (hstep : Step p memory line v next) (lines : List String) :
    p.verdictsFrom memory (line :: lines) = v :: p.verdictsFrom next lines := by
  rw [verdictsFrom]
  cases hstep with
  | blank hblank => rw [hblank]
  | answered htext hanswer =>
      split
      · rename_i hblank
        exact absurd hblank htext
      · rw [hanswer]
  | refused htext hanswer =>
      split
      · rename_i hblank
        exact absurd hblank htext
      · rw [hanswer]

/-- The verdict on a blank line is `blank`, wherever it stands. -/
theorem blank_of_verdictsFrom {lines : List String} {n : Nat}
    (hline : lines[n]? = some line) (hblank : isText line = false) :
    (p.verdictsFrom memory lines)[n]? = some .blank := by
  induction lines generalizing memory n with
  | nil => cases hline
  | cons first lines ih =>
      obtain ⟨v, next, hstep⟩ := exists_step p memory first
      rw [hstep.verdictsFrom_cons]
      cases n with
      | zero =>
          cases hline
          rw [hstep.isText_eq] at hblank
          cases v with
          | blank => rfl
          | answered | refused => cases hblank
      | succ n => exact ih hline

/-- Each line has its verdict. -/
theorem length_verdictsFrom (p : Pipeline σ) (memory : σ) (lines : List String) :
    (p.verdictsFrom memory lines).length = lines.length := by
  induction lines generalizing memory with
  | nil => rfl
  | cons line lines ih =>
      obtain ⟨v, next, hstep⟩ := exists_step p memory line
      rw [hstep.verdictsFrom_cons, List.length_cons, ih, List.length_cons]

end Pipeline

/-! ### Carrying out -/

section CarryOut

variable {ending : Ending}

/-- What verdicts are carried out to is put together from the first of them and the others. -/
theorem carryOut_cons (number : Nat) (v : Verdict) (verdicts : List Verdict) :
    carryOut number none ending (v :: verdicts)
      = let r := carryOut (number + 1) none ending verdicts
        match v with
        | .blank => r
        | .refused error =>
          { r with refused := r.refused + 1, warnings := ⟨number, error⟩ :: r.warnings }
        | .answered text =>
          { r with answered := r.answered + 1, output := Utf8.encode text ++ [0x0A] ++ r.output } := by
  rw [carryOut.eq_def]
  cases v <;> rfl

/-- Verdicts do not change how a run ends. -/
theorem ending_carryOut (number : Nat) (verdicts : List Verdict) :
    (carryOut number none ending verdicts).ending = ending := by
  induction verdicts generalizing number with
  | nil => rfl
  | cons v verdicts ih =>
      rw [carryOut_cons]
      cases v <;> exact ih (number + 1)

/-- As many lines are counted as answered as there are answers. -/
theorem answered_carryOut (number : Nat) (verdicts : List Verdict) :
    (carryOut number none ending verdicts).answered = (answers verdicts).length := by
  induction verdicts generalizing number with
  | nil => rfl
  | cons v verdicts ih =>
      rw [carryOut_cons]
      cases v with
      | answered text => exact congrArg (· + 1) (ih (number + 1))
      | blank | refused error => exact ih (number + 1)

/-- The answers are printed in their order, each with a line feed. -/
theorem output_carryOut (number : Nat) (verdicts : List Verdict) :
    (carryOut number none ending verdicts).output
      = ((answers verdicts).map Utf8.encode).flatMap (· ++ [0x0A]) := by
  induction verdicts generalizing number with
  | nil => rfl
  | cons v verdicts ih =>
      rw [carryOut_cons]
      cases v with
      | answered text => exact congrArg (Utf8.encode text ++ [0x0A] ++ ·) (ih (number + 1))
      | blank | refused error => exact ih (number + 1)

/-- As many lines are counted as refused as were warned of. -/
theorem refused_carryOut (number : Nat) (verdicts : List Verdict) :
    (carryOut number none ending verdicts).refused
      = (carryOut number none ending verdicts).warnings.length := by
  induction verdicts generalizing number with
  | nil => rfl
  | cons v verdicts ih =>
      rw [carryOut_cons]
      cases v with
      | refused error => exact congrArg (· + 1) (ih (number + 1))
      | blank | answered text => exact ih (number + 1)

/-- Each refusal is warned of, under the number of its line. -/
theorem mem_warnings_iff {number : Nat} {verdicts : List Verdict} {w : Warning} :
    w ∈ (carryOut number none ending verdicts).warnings
      ↔ ∃ n, verdicts[n]? = some (.refused w.error) ∧ w.line = number + n := by
  induction verdicts generalizing number with
  | nil =>
      constructor
      · exact fun hmem => absurd hmem List.not_mem_nil
      · intro h
        obtain ⟨n, hn, -⟩ := h
        cases hn
  | cons v verdicts ih =>
      -- What stands behind the first verdict is warned of in the rest of the run.
      have hlater : w ∈ (carryOut (number + 1) none ending verdicts).warnings
          ↔ ∃ n, (v :: verdicts)[n + 1]? = some (.refused w.error) ∧ w.line = number + (n + 1) := by
        rw [ih]
        refine exists_congr fun n => ?_
        rw [List.getElem?_cons_succ, Nat.add_right_comm, Nat.add_assoc]
      have hsplit : (∃ n, (v :: verdicts)[n]? = some (.refused w.error) ∧ w.line = number + n)
          ↔ (v = .refused w.error ∧ w.line = number)
            ∨ w ∈ (carryOut (number + 1) none ending verdicts).warnings := by
        rw [hlater]
        constructor
        · intro h
          obtain ⟨n, hn, hline⟩ := h
          cases n with
          | zero => exact .inl ⟨Option.some.inj hn, hline⟩
          | succ n => exact .inr ⟨n, hn, hline⟩
        · intro h
          rcases h with ⟨rfl, hline⟩ | ⟨n, hn, hline⟩
          · exact ⟨0, rfl, hline⟩
          · exact ⟨n + 1, hn, hline⟩
      rw [hsplit, carryOut_cons]
      cases v with
      | refused error =>
          rw [List.mem_cons]
          refine or_congr_left ?_
          obtain ⟨line, cause⟩ := w
          simp [and_comm, eq_comm]
      | blank | answered text =>
          constructor
          · exact .inr
          · intro h
            rcases h with ⟨hfirst, -⟩ | hlater
            · cases hfirst
            · exact hlater

end CarryOut

/-! ### Reading lines -/

/-- Lines that are texts are all read. -/
theorem readLines_of_texts {input : Bytes} {texts : List String}
    (htexts : Text.lines input = texts.map Utf8.encode) :
    readLines input = (texts, .complete) := by
  have hgo : ∀ texts : List String,
      readLines.go (texts.map Utf8.encode) = (texts, .complete) := by
    intro texts
    induction texts with
    | nil => rfl
    | cons text texts ih =>
        rw [List.map_cons, readLines.go, Utf8.decode_encode]
        dsimp only
        rw [ih]
  rw [readLines, htexts, hgo]

/-- A run over lines of text carries out their verdicts, with the first line as number 1. -/
theorem Pipeline.run_of_texts {σ : Type} (p : Pipeline σ) {input : Bytes} {texts : List String}
    (htexts : Text.lines input = texts.map Utf8.encode) :
    p.run input none = carryOut 1 none .complete (p.verdicts texts) := by
  rw [Pipeline.run, readLines_of_texts htexts]

end SatWire
