import SatWire.Json.Reader
import SatWire.Proofs.Json.Words

/-!
# Written values, read back

Where a value is awaited, the words of a value put that value in its place and leave what stands
around it alone (`run_words`).  So a text of a plain value is read as that value, but for what is
buried in it (`read_render`), and nothing is buried down to the depth that may be read
(`bury_of_le`).
-/

namespace SatWire.Json

namespace Reading

variable {stack : List Container} {phase : Phase} {rest : List Token}

/-- A value may come next. -/
inductive Awaits : Phase → Prop
  | value : Awaits .value
  | valueOrEnd : Awaits .valueOrEnd

/-- A word that ends no array begins a value where one is awaited. -/
theorem run_begin (hphase : Awaits phase) (token : Token) (hopen : token ≠ .closeArray) :
    run ⟨phase, stack⟩ (token :: rest)
      = match begin stack token with
        | some next => run next rest
        | none => stop ⟨phase, stack⟩ false := by
  have hstep : step ⟨phase, stack⟩ token = begin stack token := by
    cases hphase with
    | value => rfl
    | valueOrEnd => cases token <;> first | rfl | exact absurd rfl hopen
  cases hbegin : begin stack token with
  | some next => simp only [run, hstep, hbegin]
  | none => simp only [run, hstep, hbegin]

mutual

/-- **The words of a value put the value in its place.** -/
theorem run_words : ∀ {j : Json} {phase : Phase} (stack : List Container) (rest : List Token),
    j.Plain → Awaits phase → run ⟨phase, stack⟩ (words j ++ rest) = run (put j stack) rest
  | null, phase, stack, rest, _, hphase | bool _, phase, stack, rest, _, hphase
  | int _, phase, stack, rest, _, hphase | str _, phase, stack, rest, _, hphase =>
      run_begin hphase _ (fun h => nomatch h)
  | arr [], phase, stack, rest, _, hphase => by
      rw [words, List.cons_append, run_begin hphase .openArray (fun h => nomatch h)]
      rfl
  | arr (item :: items), phase, stack, rest, hplain, hphase => by
      rw [Plain, PlainItems] at hplain
      rw [words, List.cons_append, List.append_assoc,
        run_begin hphase .openArray (fun h => nomatch h)]
      refine (run_words (.arr [] :: stack) _ hplain.1 .valueOrEnd).trans ?_
      exact run_wordsOfItems [item] rest hplain.2
  | obj [], phase, stack, rest, _, hphase => by
      rw [words, List.cons_append, run_begin hphase .openObject (fun h => nomatch h)]
      rfl
  | obj ((name, value) :: members), phase, stack, rest, hplain, hphase => by
      rw [Plain, PlainMembers] at hplain
      rw [words, List.cons_append, List.cons_append, List.cons_append, List.append_assoc,
        run_begin hphase .openObject (fun h => nomatch h)]
      -- The name and the colon go into the object that was opened.
      change run ⟨.value, .obj [] (some name) :: stack⟩ _ = _
      rw [run_words (.obj [] (some name) :: stack) _ hplain.1 .value]
      exact run_wordsOfMembers [(name, value)] rest hplain.2

/-- The words of the other items end an array that holds `done` so far. -/
theorem run_wordsOfItems : ∀ {items : List Json} {stack : List Container} (done : List Json)
    (rest : List Token), PlainItems items →
    run ⟨.commaOrEnd, .arr done :: stack⟩ (wordsOfItems items ++ rest)
      = run (put (.arr (done.reverse ++ items)) stack) rest
  | [], stack, done, rest, _ => by
      rw [List.append_nil]
      rfl
  | item :: items, stack, done, rest, hplain => by
      rw [PlainItems] at hplain
      rw [wordsOfItems, List.cons_append, List.append_assoc]
      change run ⟨.value, .arr done :: stack⟩ _ = _
      rw [run_words (.arr done :: stack) _ hplain.1 .value]
      refine (run_wordsOfItems (item :: done) rest hplain.2).trans ?_
      rw [List.reverse_cons, List.append_assoc]
      rfl

/-- The words of the other members end an object that holds `done` so far. -/
theorem run_wordsOfMembers : ∀ {members : List (String × Json)} {stack : List Container}
    (done : List (String × Json)) (rest : List Token), PlainMembers members →
    run ⟨.commaOrEnd, .obj done none :: stack⟩ (wordsOfMembers members ++ rest)
      = run (put (.obj (done.reverse ++ members)) stack) rest
  | [], stack, done, rest, _ => by
      rw [List.append_nil]
      rfl
  | (name, value) :: members, stack, done, rest, hplain => by
      rw [PlainMembers] at hplain
      rw [wordsOfMembers, List.cons_append, List.cons_append, List.cons_append, List.append_assoc]
      change run ⟨.value, .obj done (some name) :: stack⟩ _ = _
      rw [run_words (.obj done (some name) :: stack) _ hplain.1 .value]
      refine (run_wordsOfMembers ((name, value) :: done) rest hplain.2).trans ?_
      rw [List.reverse_cons, List.append_assoc]
      rfl

end

end Reading

/-- **A plain value is read as it was written**, but for what is buried in it. -/
theorem read_render {j : Json} (hplain : j.Plain) : read j.render = ⟨j.bury maxDepth, true⟩ := by
  have hrun := Reading.run_words [] [] hplain .value
  rw [List.append_nil] at hrun
  rw [read, readWithin, tokens_render hplain, hrun]
  rfl

/-! ### What is buried -/

mutual

/-- With room for all of a value, nothing in it is buried. -/
theorem bury_of_le : ∀ {j : Json} {room : Nat}, j.depth ≤ room → j.bury room = j
  | arr items, 0, hroom | obj members, 0, hroom => absurd hroom (Nat.not_succ_le_zero _)
  | arr items, room + 1, hroom => by
      rw [depth] at hroom
      rw [bury, buryItems_of_le (Nat.le_of_succ_le_succ hroom)]
  | obj members, room + 1, hroom => by
      rw [depth] at hroom
      rw [bury, buryMembers_of_le (Nat.le_of_succ_le_succ hroom)]
  | unnamed value, room, hroom => by
      rw [depth] at hroom
      rw [bury, bury_of_le hroom]
  | null, room, _ | bool _, room, _ | int _, room, _ | decimal _, room, _ | str _, room, _
  | unpaired, room, _ | buried _, room, _ | unreadable, room, _ => by rw [bury] <;> simp

/-- With room for all items, nothing in them is buried. -/
theorem buryItems_of_le : ∀ {items : List Json} {room : Nat}, depthOfItems items ≤ room →
    buryItems room items = items
  | [], room, _ => rfl
  | item :: items, room, hroom => by
      rw [depthOfItems, Nat.max_le] at hroom
      rw [buryItems, bury_of_le hroom.1, buryItems_of_le hroom.2]

/-- With room for all members, nothing in them is buried. -/
theorem buryMembers_of_le : ∀ {members : List (String × Json)} {room : Nat},
    depthOfMembers members ≤ room → buryMembers room members = members
  | [], room, _ => rfl
  | (name, value) :: members, room, hroom => by
      rw [depthOfMembers, Nat.max_le] at hroom
      rw [buryMembers, bury_of_le hroom.1, buryMembers_of_le hroom.2]

end

mutual

/-- What is buried can be passed over if it could be before. -/
theorem isReadable_bury : ∀ (j : Json) (room : Nat), (j.bury room).isReadable = j.isReadable
  | arr items, 0 | obj members, 0 => rfl
  | arr items, room + 1 => by rw [bury, isReadable, isReadable, allReadable_bury]
  | obj members, room + 1 => by rw [bury, isReadable, isReadable, allMembersReadable_bury]
  | unnamed value, room => by rw [bury, isReadable, isReadable, isReadable_bury]
  | null, room | bool _, room | int _, room | decimal _, room | str _, room
  | unpaired, room | buried _, room | unreadable, room => by rw [bury] <;> simp

theorem allReadable_bury : ∀ (items : List Json) (room : Nat),
    allReadable (buryItems room items) = allReadable items
  | [], room => rfl
  | item :: items, room => by
      rw [buryItems, allReadable, allReadable, isReadable_bury, allReadable_bury]

theorem allMembersReadable_bury : ∀ (members : List (String × Json)) (room : Nat),
    allMembersReadable (buryMembers room members) = allMembersReadable members
  | [], room => rfl
  | (name, value) :: members, room => by
      rw [buryMembers, allMembersReadable, allMembersReadable, isReadable_bury,
        allMembersReadable_bury]

end

end SatWire.Json
