import SatWire.Form.Reader
import SatWire.Proofs.Json.ReadBack
import SatWire.Proofs.Outcome

/-!
# Readers of written parts

What each reader makes of the part that is written for it: numbers come back, the items of an array
come back if each of them does, and a record is what filling its slots in turn comes to (`Fills`,
`record_obj`).  Members that name no slot change nothing (`record_unknown`).
-/

namespace SatWire

namespace Json

/-- Items are plain if each of them is. -/
theorem plainItems_iff {items : List Json} : PlainItems items ↔ ∀ j ∈ items, j.Plain := by
  induction items with
  | nil => simp [PlainItems]
  | cons item items ih => rw [PlainItems, ih, List.forall_mem_cons]

/-- No item is deeper than the deepest. -/
theorem depth_le_of_mem {items : List Json} {j : Json} (hmem : j ∈ items) :
    j.depth ≤ depthOfItems items := by
  induction items with
  | nil => cases hmem
  | cons item items ih =>
      rw [depthOfItems]
      rcases List.mem_cons.mp hmem with rfl | hlater
      · exact Nat.le_max_left _ _
      · exact Nat.le_trans (ih hlater) (Nat.le_max_right _ _)

mutual

/-- Nothing in a plain value is unreadable. -/
theorem Plain.isReadable : ∀ {j : Json}, j.Plain → j.isReadable = true
  | null, _ | bool _, _ | int _, _ | str _, _ => rfl
  | arr _, hplain => PlainItems.allReadable hplain
  | obj _, hplain => PlainMembers.allMembersReadable hplain

theorem PlainItems.allReadable : ∀ {items : List Json}, PlainItems items →
    Json.allReadable items = true
  | [], _ => rfl
  | item :: items, hplain => by
      rw [PlainItems] at hplain
      rw [Json.allReadable, hplain.1.isReadable, PlainItems.allReadable hplain.2]
      rfl

theorem PlainMembers.allMembersReadable : ∀ {members : List (String × Json)},
    PlainMembers members → Json.allMembersReadable members = true
  | [], _ => rfl
  | (name, value) :: members, hplain => by
      rw [PlainMembers] at hplain
      rw [Json.allMembersReadable, hplain.1.isReadable,
        PlainMembers.allMembersReadable hplain.2]
      rfl

end

/-- A plain value stands under a name, also where it is too deep. -/
theorem Plain.bury_ne_unnamed {j : Json} (hplain : j.Plain) (room : Nat) (inner : Json) :
    j.bury room ≠ .unnamed inner := by
  cases j with
  | null | bool | int | str | arr | obj => cases room <;> exact fun h => nomatch h
  | decimal | unpaired | unnamed | buried | unreadable => exact absurd hplain id

end Json

namespace Reader

/-! ### Numbers -/

/-- A number below the bound is read as it is. -/
theorem natBelow_of_lt {bound n : Nat} (h : n < bound) : natBelow bound (.int n) = .ok n := by
  have hrange : (0 : Int) ≤ n ∧ (n : Int) < bound := by omega
  rw [natBelow, if_pos hrange, Int.toNat_natCast]

/-- Every octet is read back. -/
theorem uint8_toNat (n : UInt8) : uint8 (.int n.toNat) = .ok n := by
  have hrange : n.toNat < UInt8.size := n.toNat_lt
  rw [uint8, natBelow_of_lt hrange, Except.map, UInt8.ofNat_toNat]

/-- Every unsigned word is read back. -/
theorem uint64_toNat (n : UInt64) : uint64 (.int n.toNat) = .ok n := by
  have hrange : n.toNat < UInt64.size := n.toNat_lt
  rw [uint64, natBelow_of_lt hrange, Except.map, UInt64.ofNat_toNat]

/-- Every signed word is read back, whatever its sign. -/
theorem int64_toInt (n : Int64) : int64 (.int n.toInt) = .ok n := by
  have hlow := n.le_toInt
  have hhigh := n.toInt_lt
  have hrange : -((UInt64.size / 2 : Nat) : Int) ≤ n.toInt ∧ n.toInt < (UInt64.size / 2 : Nat) :=
    ⟨hlow, hhigh⟩
  rw [int64, intWithin, if_pos hrange, Except.map, Int64.ofInt_toInt]

/-! ### Arrays and variants -/

variable {α δ : Type}

/-- Items come back one by one, behind those that were read before. -/
theorem each_map {read : Reader α} {form : α → Json} {as : List α} (done : List α)
    (h : ∀ a ∈ as, read (form a) = .ok a) :
    each read done (as.map form) = .ok (done.reverse ++ as) := by
  induction as generalizing done with
  | nil => rw [List.map_nil, each, List.append_nil]
  | cons a as ih =>
      obtain ⟨hfirst, hothers⟩ := List.forall_mem_cons.mp h
      rw [List.map_cons, each, hfirst]
      refine (ih (a :: done) hothers).trans ?_
      rw [List.reverse_cons, List.append_assoc]
      rfl

/-- An array comes back if each of its items does. -/
theorem list_map {read : Reader α} {form : α → Json} {as : List α}
    (h : ∀ a ∈ as, read (form a) = .ok a) : list read (.arr (as.map form)) = .ok as :=
  each_map [] h

/-- A variant of one member is its payload. -/
theorem variant_single {payload : String → Reader α} {name : String} {value : Json} {a : α}
    (h : payload name value = .ok a) : variant payload (.obj [(name, value)]) = .ok a := by
  rw [variant, h]
  rfl

/-! ### Records -/

variable {slots seen : List String} {put : String → Json → δ → Except Rejection δ} {d d' : δ}
  {name : String} {value : Json} {ms : List (String × Json)}

/-- A member whose slot is still free fills it. -/
theorem members_known (hknown : name ∈ slots) (hfresh : name ∉ seen) (hplain : value.Plain)
    (hput : put name value d = .ok d') :
    members slots put seen d ((name, value) :: ms) = members slots put (name :: seen) d' ms := by
  have hslot : slots.contains name = true := List.contains_iff_mem.mpr hknown
  have hfree : ¬ seen.contains name = true := fun h => hfresh (List.contains_iff_mem.mp h)
  rw [members, if_pos hslot, if_neg hfree, hput]
  intro inner hunnamed
  rw [hunnamed] at hplain
  exact hplain

/-- A member that names no slot is passed over. -/
theorem members_unknown (hunknown : name ∉ slots) (hnamed : ∀ inner, value ≠ .unnamed inner)
    (hreadable : value.isReadable = true) :
    members slots put seen d ((name, value) :: ms) = members slots put seen d ms := by
  have hslot : ¬ slots.contains name = true := fun h => hunknown (List.contains_iff_mem.mp h)
  rw [members, if_neg hslot, if_pos hreadable]
  exact hnamed

/-- Filling the slots of members in turn leads from one draft to another. -/
inductive Fills (put : String → Json → δ → Except Rejection δ) : δ → List (String × Json) → δ → Prop
  | nil {d : δ} : Fills put d [] d
  | cons {d next d' : δ} {name : String} {value : Json} {ms : List (String × Json)}
      (hput : put name value d = .ok next) (hrest : Fills put next ms d') :
      Fills put d ((name, value) :: ms) d'

/-- Members that name free slots, each its own, fill them in turn. -/
theorem members_fill (hnames : ∀ name ∈ ms.map Prod.fst, name ∈ slots ∧ name ∉ seen)
    (hown : (ms.map Prod.fst).Nodup) (hplain : Json.PlainMembers ms) (hfill : Fills put d ms d') :
    members slots put seen d ms = .ok d' := by
  induction hfill generalizing seen with
  | nil => rfl
  | cons hput hrest ih =>
      obtain ⟨⟨hslot, hfree⟩, hothers⟩ := List.forall_mem_cons.mp hnames
      obtain ⟨hother, hown⟩ := List.nodup_cons.mp hown
      rw [Json.PlainMembers] at hplain
      rw [members_known hslot hfree hplain.1 hput]
      refine ih ?_ hown hplain.2
      intro name hmem
      refine ⟨(hothers name hmem).1, fun hseen => ?_⟩
      rcases List.mem_cons.mp hseen with rfl | hbefore
      · exact hother hmem
      · exact (hothers name hmem).2 hbefore

/-- **A record is what filling its slots comes to**; slots at the end may be left free. -/
theorem record_obj {dialect : Dialect} {finish : δ → Option α} {a : α}
    (hnames : ms.map Prod.fst <+: slots) (hslots : slots.Nodup) (hplain : Json.PlainMembers ms)
    (hfill : Fills put d ms d') (hfinish : finish d' = some a) :
    record dialect slots put d finish (.obj ms) = .ok a := by
  have hknown : ∀ name ∈ ms.map Prod.fst, name ∈ slots ∧ name ∉ ([] : List String) :=
    fun name hmem => ⟨hnames.subset hmem, List.not_mem_nil⟩
  have hown : (ms.map Prod.fst).Nodup := hslots.sublist hnames.sublist
  rw [record, members_fill hknown hown hplain hfill]
  dsimp only
  rw [hfinish]

/-- A record is the same with a member in front that names no slot. -/
theorem record_unknown {dialect : Dialect} {finish : δ → Option α} (hunknown : name ∉ slots)
    (hnamed : ∀ inner, value ≠ .unnamed inner) (hreadable : value.isReadable = true) :
    record dialect slots put d finish (.obj ((name, value) :: ms))
      = record dialect slots put d finish (.obj ms) := by
  rw [record, record, members_unknown hunknown hnamed hreadable]

/-! ### Texts -/

variable {read : Reader α} {j : Json} {a : α}

/-- The text of a value is read as the value with what is too deep in it buried. -/
theorem parse_render (hplain : j.Plain) : parse read j.render = read (j.bury Json.maxDepth) := by
  rw [parse, Json.read_render hplain, document]
  cases read (j.bury Json.maxDepth) <;> rfl

end Reader

end SatWire
