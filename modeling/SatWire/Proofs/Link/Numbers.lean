import Mathlib.Data.List.DropRight
import SatWire.Proofs.Link.Log
import SatWire.Proofs.Link.Verdicts

/-!
# Numbers in a row

A receiver of numbers is asked to take numbers, to say whether it would take one, and to forget
those it took.  Between two times of forgetting lies a stretch, and the numbers taken in a stretch
are a row: the first one that was offered, and from there on successors only, past the last word to
zero.  `InRow` says so of a log, and `FollowsLog` that the receiver remembers the end of the row; one
more request keeps both (`FollowsLog.ask`).

The numbers that a counter hands out are a row as well (`Counter.handOut_eq`).  So a receiver takes
them all, however many they are, and it notices when some are missing, unless the numbers came round
in between.
-/

namespace SatWire

/-- The numbers from `first` on, each the successor of the one before. -/
def row (first : UInt16) : (count : Nat) → List UInt16
  | 0 => []
  | count + 1 => first :: row (first + 1) count

@[simp] theorem length_row (first : UInt16) (count : Nat) : (row first count).length = count := by
  induction count generalizing first with
  | zero => rfl
  | succ count ih => rw [row, List.length_cons, ih]

/-- A row goes on with the row of the number behind it. -/
theorem row_add (first : UInt16) (count more : Nat) :
    row first (count + more) = row first count ++ row (first + UInt16.ofNat count) more := by
  induction count generalizing first with
  | zero =>
      rw [Nat.zero_add]
      exact congrArg (row · more) (UInt16.add_zero first).symm
  | succ count ih =>
      have hnext : first + 1 + UInt16.ofNat count = first + UInt16.ofNat (count + 1) := by
        rw [UInt16.ofNat_add, UInt16.add_comm (UInt16.ofNat count), ← UInt16.add_assoc]
        rfl
      rw [Nat.add_right_comm, row, ih, row, hnext, List.cons_append]

/-- A row grows at its end, too. -/
theorem row_succ (first : UInt16) (count : Nat) :
    row first (count + 1) = row first count ++ [first + UInt16.ofNat count] :=
  row_add first count 1

/-- The number behind a row is the successor of its last one. -/
theorem getLast?_row_succ (first : UInt16) (count : Nat) :
    (row first (count + 1)).getLast? = some (first + UInt16.ofNat count) := by
  rw [row_succ, List.getLast?_concat]

namespace History

/-- Something that a receiver of numbers can be asked. -/
inductive Request where
  /-- To take the number, if it may come next. -/
  | take (number : UInt16)
  /-- To say whether the number may come next. -/
  | check (number : UInt16)
  | forget
  deriving DecidableEq

/-- A request in place: a number is checked, and committed if that is what was asked. -/
def carryOut : Request → InPlace LinkError History Unit
  | .take number => do
    InPlace.check fun h => h.check number
    modify fun h => h.commit number
  | .check number => InPlace.check fun h => h.check number
  | .forget => set ({} : History)

/-- What a number is answered with, behind the last one taken. -/
def verdict : (last : Option UInt16) → (number : UInt16) → Except LinkError Unit
  | none, _ => .ok ()
  | some last, number =>
    if number = last + 1 then .ok () else .error (.outOfSequence number (last + 1))

/-- A number is welcome if it succeeds the last one, or there is none. -/
theorem verdict_eq_ok_iff {last : Option UInt16} {number : UInt16} :
    verdict last number = .ok () ↔ ∀ l, last = some l → number = l + 1 := by
  cases last with
  | none => simp [verdict]
  | some l => by_cases hnext : number = l + 1 <;> simp [verdict, hnext]

/-- A history judges by its last number alone. -/
theorem check_eq_verdict (h : History) (number : UInt16) :
    h.check number = verdict h.last number := by
  unfold check expected
  cases h.last <;> rfl

/-- Asking whether a number may come next changes nothing. -/
theorem carryOut_check (h : History) (number : UInt16) :
    (carryOut (.check number)).run h = (verdict h.last number, h) := by
  rw [carryOut, InPlace.check_run, check_eq_verdict]

/-- A number that may come next is committed. -/
theorem carryOut_take_of_ok {h : History} {number : UInt16} (hok : verdict h.last number = .ok ()) :
    (carryOut (.take number)).run h = (.ok (), ⟨some number⟩) := by
  rw [carryOut, InPlace.check_bind, check_eq_verdict, hok]
  rfl

/-- A number that may not come next leaves no trace. -/
theorem carryOut_take_of_error {h : History} {number : UInt16} {fault : LinkError}
    (hfault : verdict h.last number = .error fault) :
    (carryOut (.take number)).run h = (.error fault, h) := by
  rw [carryOut, InPlace.check_bind, check_eq_verdict, hfault]

/-- How a receiver answers whose last number is `last`: a number is taken exactly if it may come next,
and nothing changes otherwise. -/
structure AnswersBehind (last : Option UInt16) (h : History) : Prop where
  check : ∀ number, (carryOut (.check number)).run h = (verdict last number, h)
  accept : ∀ number, verdict last number = .ok () →
    (carryOut (.take number)).run h = (.ok (), ⟨some number⟩)
  refuse : ∀ number fault, verdict last number = .error fault →
    (carryOut (.take number)).run h = (.error fault, h)

/-- Every history answers behind its last number. -/
theorem answersBehind_last (h : History) : AnswersBehind h.last h where
  check := carryOut_check h
  accept _ := carryOut_take_of_ok
  refuse _ _ := carryOut_take_of_error

/-- **Taking in place** is taking. -/
theorem carryOut_take (h : History) (number : UInt16) :
    (carryOut (.take number)).run h
      = InPlace.settle h ((h.take number).map fun taken => ((), taken)) := by
  rw [take, check_eq_verdict]
  cases hverdict : verdict h.last number with
  | ok => exact carryOut_take_of_ok hverdict
  | error fault => exact carryOut_take_of_error hverdict

/-- The log of a receiver of numbers. -/
abbrev Log := List (Dealing LinkError Request Unit)

namespace Log

/-- Whether numbers were forgotten. -/
def forgets (d : Dealing LinkError Request Unit) : Bool :=
  decide (d.request = .forget)

/-- The number that was offered for taking. -/
def offer : Dealing LinkError Request Unit → Option UInt16
  | ⟨.take number, _⟩ => some number
  | _ => none

/-- The number that was taken. -/
def gain : Dealing LinkError Request Unit → Option UInt16
  | ⟨.take number, .ok _⟩ => some number
  | _ => none

/-- What was asked since numbers were last forgotten. -/
def stretch (log : Log) : Log :=
  log.rtakeWhile fun d => !forgets d

/-- The numbers in the current stretch, of those that each dealing has. -/
def within (number? : Dealing LinkError Request Unit → Option UInt16) (log : Log) : List UInt16 :=
  (stretch log).filterMap number?

/-- The numbers offered in the current stretch. -/
abbrev offered : Log → List UInt16 := within offer

/-- The numbers taken in the current stretch. -/
abbrev taken : Log → List UInt16 := within gain

/-- Forgetting starts a new stretch, and any other request goes on with the old one. -/
theorem stretch_concat (log : Log) (d : Dealing LinkError Request Unit) :
    stretch (log ++ [d]) = if forgets d then [] else stretch log ++ [d] := by
  rw [stretch, List.rtakeWhile_concat]
  cases forgets d <;> rfl

/-- A request adds its number to those of the stretch. -/
theorem within_concat (number? : Dealing LinkError Request Unit → Option UInt16) (log : Log)
    (d : Dealing LinkError Request Unit) :
    within number? (log ++ [d])
      = if forgets d then [] else within number? log ++ (number? d).toList := by
  rw [within, stretch_concat]
  cases forgets d with
  | true => rfl
  | false =>
      rw [if_neg Bool.false_ne_true, if_neg Bool.false_ne_true, List.filterMap_append, within]
      cases hnumber : number? d <;> simp [hnumber]

/-- The numbers taken in the current stretch are a row that begins with the first one offered. -/
def InRow (log : Log) : Prop :=
  (offered log = [] ∧ taken log = [])
    ∨ ∃ first others count, offered log = first :: others ∧ taken log = row first (count + 1)

end Log

open Log

/-- A receiver of numbers in use, and the log of what it was asked. -/
abbrev Receiver := Asked LinkError History Request Unit

namespace Receiver

/-- A receiver remembers the last number that its log says was taken, and those taken are in a
row. -/
structure FollowsLog (a : Receiver) : Prop where
  last : a.state.last = (taken a.log).getLast?
  inRow : InRow a.log

variable {a : Receiver}

/-- Only a number behind others can be refused. -/
theorem exists_first_of_refused (hfollows : FollowsLog a) {number : UInt16} {fault : LinkError}
    (hfault : verdict a.state.last number = .error fault) :
    ∃ first others count, offered a.log = first :: others
      ∧ taken a.log = row first (count + 1) := by
  rcases hfollows.inRow with ⟨-, hempty⟩ | hsome
  · rw [hfollows.last, hempty] at hfault
    cases hfault
  · exact hsome

/-- **A number that is taken** goes behind the row. -/
theorem FollowsLog.take_of_ok (hfollows : FollowsLog a) {number : UInt16}
    (hok : verdict a.state.last number = .ok ()) :
    FollowsLog ⟨⟨some number⟩, a.log ++ [⟨.take number, .ok ()⟩]⟩ := by
  have htaken : taken (a.log ++ [⟨.take number, .ok ()⟩]) = taken a.log ++ [number] :=
    within_concat gain a.log _
  have hoffered : offered (a.log ++ [⟨.take number, .ok ()⟩]) = offered a.log ++ [number] :=
    within_concat offer a.log _
  refine ⟨by rw [htaken, List.getLast?_concat], ?_⟩
  rcases hfollows.inRow with ⟨hnone, hempty⟩ | ⟨first, others, count, hfirst, hrow⟩
  · refine .inr ⟨number, [], 0, ?_, ?_⟩
    · rw [hoffered, hnone, List.nil_append]
    · rw [htaken, hempty, List.nil_append]
      rfl
  · have hnext : number = first + UInt16.ofNat (count + 1) := by
      rw [hfollows.last, hrow, getLast?_row_succ] at hok
      rw [verdict_eq_ok_iff.mp hok _ rfl, UInt16.ofNat_add, ← UInt16.add_assoc]
      rfl
    refine .inr ⟨first, others ++ [number], count + 1, ?_, ?_⟩
    · rw [hoffered, hfirst, List.cons_append]
    · rw [htaken, hrow, hnext, ← row_succ]

/-- **A number that is refused** leaves the row as it was. -/
theorem FollowsLog.take_of_error (hfollows : FollowsLog a) {number : UInt16} {fault : LinkError}
    (hfault : verdict a.state.last number = .error fault) :
    FollowsLog ⟨a.state, a.log ++ [⟨.take number, .error fault⟩]⟩ := by
  have htaken : taken (a.log ++ [⟨.take number, .error fault⟩]) = taken a.log :=
    (within_concat gain a.log _).trans (List.append_nil _)
  have hoffered : offered (a.log ++ [⟨.take number, .error fault⟩]) = offered a.log ++ [number] :=
    within_concat offer a.log _
  obtain ⟨first, others, count, hfirst, hrow⟩ := exists_first_of_refused hfollows hfault
  refine ⟨by rw [htaken, hfollows.last], .inr ⟨first, others ++ [number], count, ?_, ?_⟩⟩
  · rw [hoffered, hfirst, List.cons_append]
  · rw [htaken, hrow]

/-- **One more request** keeps the row. -/
theorem FollowsLog.ask (hfollows : FollowsLog a) (request : Request) :
    FollowsLog (a.ask carryOut request) := by
  unfold Asked.ask
  cases request with
  | take number =>
      cases hverdict : verdict a.state.last number with
      | ok =>
          rw [carryOut_take_of_ok hverdict]
          exact hfollows.take_of_ok hverdict
      | error fault =>
          rw [carryOut_take_of_error hverdict]
          exact hfollows.take_of_error hverdict
  | check number =>
      have hsame (number? : Dealing LinkError Request Unit → Option UInt16)
          (hnone : ∀ result, number? ⟨.check number, result⟩ = none) (result : Except LinkError Unit) :
          within number? (a.log ++ [⟨.check number, result⟩]) = within number? a.log := by
        rw [within_concat, hnone]
        exact List.append_nil _
      have htaken := hsame gain (fun _ => rfl)
      have hoffered := hsame offer (fun _ => rfl)
      rw [carryOut_check]
      refine ⟨?_, ?_⟩
      · rw [taken, htaken]
        exact hfollows.last
      · rw [InRow, taken, offered, htaken, hoffered]
        exact hfollows.inRow
  | forget =>
      have hnone (number? : Dealing LinkError Request Unit → Option UInt16)
          (result : Except LinkError Unit) :
          within number? (a.log ++ [⟨.forget, result⟩]) = [] :=
        within_concat number? a.log _
      exact ⟨by rw [taken, hnone]; rfl, .inl ⟨hnone offer _, hnone gain _⟩⟩

/-- A receiver that was asked nothing yet. -/
def fresh : Receiver where
  state := {}

/-- Nothing was offered yet, and nothing taken. -/
theorem followsLog_fresh : FollowsLog fresh :=
  ⟨rfl, .inl ⟨rfl, rfl⟩⟩

/-- **Any number of requests** keep the row. -/
theorem FollowsLog.askAll (hfollows : FollowsLog a) (requests : List Request) :
    FollowsLog (a.askAll carryOut requests) :=
  Asked.askAll_keeps hfollows (fun _ request hfollows => hfollows.ask request) requests

/-- A receiver that is offered a row takes all of it. -/
theorem askAll_row (first : UInt16) (count : Nat) :
    fresh.askAll carryOut ((row first (count + 1)).map .take)
      = ⟨⟨some (first + UInt16.ofNat count)⟩,
          (row first (count + 1)).map fun number => ⟨.take number, .ok ()⟩⟩ := by
  induction count with
  | zero =>
      rw [show first + UInt16.ofNat 0 = first from UInt16.add_zero first]
      rfl
  | succ count ih =>
      have hnext : verdict (some (first + UInt16.ofNat count)) (first + UInt16.ofNat (count + 1))
          = .ok () := by
        rw [UInt16.ofNat_add, ← UInt16.add_assoc]
        exact if_pos rfl
      have hlast : fresh.askAll carryOut ((row first (count + 1 + 1)).map .take)
          = (fresh.askAll carryOut ((row first (count + 1)).map .take)).ask carryOut
              (.take (first + UInt16.ofNat (count + 1))) := by
        rw [row_succ, List.map_append]
        exact List.foldl_append
      rw [hlast, ih, Asked.ask, carryOut_take_of_ok hnext, row_succ first (count + 1),
        List.map_append]
      rfl

end Receiver

end History

/-- The numbers that a counter hands out one after the other. -/
def Counter.handOut (c : Counter) : (count : Nat) → List UInt16
  | 0 => []
  | count + 1 => c.next.1 :: c.next.2.handOut count

/-- **A counter hands out a row.** -/
theorem Counter.handOut_eq (c : Counter) (count : Nat) : c.handOut count = row c.current count := by
  induction count generalizing c with
  | zero => rfl
  | succ count ih => rw [handOut, ih, row, next]

/-- The parts of a row are rows. -/
theorem row_eq_append {first : UInt16} {count : Nat} {front back : List UInt16}
    (hsplit : row first count = front ++ back) :
    front = row first front.length ∧ back = row (first + UInt16.ofNat front.length) back.length := by
  have hlength := congrArg List.length hsplit
  rw [length_row, List.length_append] at hlength
  rw [hlength, row_add] at hsplit
  obtain ⟨hfront, hback⟩ := List.append_inj hsplit (length_row first front.length)
  exact ⟨hfront.symm, hback.symm⟩

/-- Numbers come round after 65536 of them. -/
theorem ofNat_eq_zero_iff (count : Nat) : UInt16.ofNat count = 0 ↔ 65536 ∣ count := by
  rw [← UInt16.toNat_inj, UInt16.toNat_ofNat', Nat.dvd_iff_mod_eq_zero]
  rfl

namespace History

open Log Receiver

/-- What a receiver remembers behind the first numbers of a counter, and what comes after them. -/
theorem Receiver.askAll_handOut {c : Counter} {count : Nat} {before gap behind : List UInt16}
    {next : UInt16} (hsplit : c.handOut count = before ++ (gap ++ next :: behind))
    (hbefore : before ≠ []) :
    ∃ last, (fresh.askAll carryOut (before.map .take)).state = ⟨some last⟩
      ∧ gap = row (last + 1) gap.length ∧ next = last + 1 + UInt16.ofNat gap.length := by
  rw [Counter.handOut_eq] at hsplit
  obtain ⟨hfront, hback⟩ := row_eq_append hsplit
  obtain ⟨hgap, hrest⟩ := row_eq_append hback.symm
  obtain ⟨size, hsize⟩ := Nat.exists_eq_succ_of_ne_zero (mt List.length_eq_zero_iff.mp hbefore)
  have hstart : c.current + UInt16.ofNat before.length = c.current + UInt16.ofNat size + 1 := by
    rw [hsize, Nat.succ_eq_add_one, UInt16.ofNat_add, ← UInt16.add_assoc]
    rfl
  rw [hstart] at hgap hrest
  refine ⟨c.current + UInt16.ofNat size, ?_, hgap, (List.cons.inj hrest).1⟩
  rw [hfront, hsize, askAll_row]

/-- How a receiver answers a number that comes behind a gap: it takes it if the numbers came round in
the gap, and otherwise it names the first one that is missing and stays as it was. -/
structure NoticesGap (gap : List UInt16) (next : UInt16) (h : History) : Prop where
  around : 65536 ∣ gap.length → (carryOut (.take next)).run h = (.ok (), ⟨some next⟩)
  missing : ¬ 65536 ∣ gap.length → ∃ missing others, gap = missing :: others
    ∧ (carryOut (.take next)).run h = (.error (.outOfSequence next missing), h)

/-- **Missing numbers are noticed** behind the first numbers of a counter. -/
theorem Receiver.noticesGap_askAll {c : Counter} {count : Nat} {before gap behind : List UInt16}
    {next : UInt16} (hsplit : c.handOut count = before ++ (gap ++ next :: behind))
    (hbefore : before ≠ []) :
    NoticesGap gap next (fresh.askAll carryOut (before.map .take)).state := by
  obtain ⟨last, hstate, hgap, hnext⟩ := Receiver.askAll_handOut hsplit hbefore
  rw [hstate]
  constructor
  · intro hround
    apply carryOut_take_of_ok
    rw [hnext, (ofNat_eq_zero_iff _).mpr hround, UInt16.add_zero]
    exact if_pos rfl
  · intro hgone
    cases gap with
    | nil => exact absurd (Nat.dvd_zero _) hgone
    | cons missing others =>
        obtain ⟨rfl, -⟩ := List.cons.inj hgap
        refine ⟨last + 1, others, rfl, carryOut_take_of_error ?_⟩
        have hother : next ≠ last + 1 := by
          rw [hnext]
          intro hsame
          exact hgone ((ofNat_eq_zero_iff _).mp (UInt16.add_eq_left.mp hsame))
        exact if_neg hother

/-- **Successors only.**  Whatever a new receiver is asked, the numbers it took since it last forgot
are a row that begins with the first one offered.  Then a number is taken, or said to be fine, exactly
if it is the successor of the last one taken, or nothing was taken yet; and nothing changes unless a
number is taken or numbers are forgotten.

All numbers of a counter are taken, however many it hands out.  If some are dropped in the middle, the
next one is refused, unless their count is a multiple of 65536. -/
theorem successors_only (requests : List Request) (c : Counter) (count : Nat) :
    let a := fresh.askAll carryOut requests
    a.log.map Dealing.request = requests ∧ InRow a.log
      ∧ AnswersBehind (taken a.log).getLast? a.state
      ∧ (fresh.askAll carryOut ((c.handOut count).map .take)).log.map Dealing.result
        = List.replicate count (.ok ())
      ∧ ∀ before gap next behind, c.handOut count = before ++ (gap ++ next :: behind) →
        before ≠ [] → NoticesGap gap next (fresh.askAll carryOut (before.map .take)).state := by
  intro a
  have hfollows : FollowsLog a := followsLog_fresh.askAll requests
  refine ⟨Asked.map_request_askAll fresh requests, hfollows.inRow, ?_, ?_, ?_⟩
  · rw [← hfollows.last]
    exact answersBehind_last a.state
  · rw [Counter.handOut_eq]
    cases count with
    | zero => rfl
    | succ count =>
        rw [askAll_row, List.map_map, Function.comp_def, List.map_const', length_row]
  · intro before gap next behind hsplit hbefore
    exact noticesGap_askAll hsplit hbefore

/-- A receiver takes three numbers over the last word, refuses the last one again and a later one, and
after forgetting starts from another.  Behind the first two of a counter's numbers it notices that
the next two are missing. -/
theorem successors_only_wrapping :
    let requests : List Request :=
      [.check 9, .take 65534, .take 65535, .take 0, .take 0, .check 5, .forget, .take 7, .check 8,
        .take 9]
    let a := fresh.askAll carryOut requests
    a.log.map Dealing.result
        = [.ok (), .ok (), .ok (), .ok (), .error (.outOfSequence 0 1), .error (.outOfSequence 5 1),
          .ok (), .ok (), .ok (), .error (.outOfSequence 9 8)]
      ∧ taken (a.log.take 6) = row 65534 3 ∧ taken a.log = row 7 1 ∧ InRow a.log
      ∧ (carryOut (.take 8)).run a.state = (.ok (), ⟨some 8⟩)
      ∧ Counter.handOut ⟨65534⟩ 5 = [65534, 65535, 0, 1, 2]
      ∧ (carryOut (.take 2)).run ⟨some 65535⟩ = (.error (.outOfSequence 2 0), ⟨some 65535⟩) := by
  intro requests a
  obtain ⟨-, hrow, hanswers, -, hgaps⟩ := successors_only requests ⟨65534⟩ 5
  have hnotices := hgaps [65534, 65535] [0, 1] 2 [] (by decide) (by decide)
  obtain ⟨missing, others, hgap, hrefused⟩ := hnotices.missing (by decide)
  obtain ⟨rfl, -⟩ := List.cons.inj hgap
  exact ⟨by decide, by decide, by decide, hrow, hanswers.accept 8 (by decide), by decide, hrefused⟩

end History

end SatWire
