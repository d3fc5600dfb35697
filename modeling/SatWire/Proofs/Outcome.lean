import SatWire.Fault

/-!
# Results and their kinds of fault

A chain of steps succeeds exactly if each step does, and fails with the kind of the step that failed
first: the places told around a fault do not change its kind.
-/

namespace SatWire

/-- Results are compared by what they hold. -/
instance decidableEqResult {ε α : Type} [DecidableEq ε] [DecidableEq α] : DecidableEq (Except ε α)
  | .ok a, .ok b => decidable_of_iff (a = b) (by simp)
  | .error a, .error b => decidable_of_iff (a = b) (by simp)
  | .ok _, .error _ => .isFalse fun h => nomatch h
  | .error _, .ok _ => .isFalse fun h => nomatch h

section Success

variable {α β ε ε' : Type}

/-- What is made of a result is a success exactly if the result is. -/
theorem map_eq_ok_iff {r : Except ε α} {f : α → β} {b : β} :
    r.map f = .ok b ↔ ∃ a, r = .ok a ∧ f a = b := by
  cases r <;> simp [Except.map]

/-- A chain of two steps succeeds exactly if both do. -/
theorem bind_eq_ok_iff {r : Except ε α} {f : α → Except ε β} {b : β} :
    r.bind f = .ok b ↔ ∃ a, r = .ok a ∧ f a = .ok b := by
  cases r <;> simp [Except.bind]

/-- Changing faults leaves successes as they are. -/
theorem mapError_eq_ok_iff {r : Except ε α} {f : ε → ε'} {a : α} :
    r.mapError f = .ok a ↔ r = .ok a := by
  cases r with
  | ok b => exact ⟨fun h => Except.ok.inj h ▸ rfl, fun h => Except.ok.inj h ▸ rfl⟩
  | error fault => exact iff_of_false (fun h => nomatch h) (fun h => nomatch h)

/-- The places told around faults leave successes as they are. -/
theorem located_eq_ok_iff {r : Except ParseError α} {scope : Scope} {a : α} :
    located scope r = .ok a ↔ r = .ok a :=
  mapError_eq_ok_iff

/-- A refusal is no success. -/
theorem refuse_ne_ok {cause : ParseError.Cause} {a : α} : refuse cause ≠ .ok a :=
  fun h => nomatch h

/-- What is refused unless a test is passed. -/
theorem ite_refuse_eq_ok_iff {p : Prop} [Decidable p] {cause : ParseError.Cause} {a b : α} :
    (if p then .ok a else refuse cause) = .ok b ↔ p ∧ a = b := by
  by_cases hp : p
  · rw [if_pos hp, Except.ok.injEq]
    exact (and_iff_right hp).symm
  · rw [if_neg hp]
    exact iff_of_false refuse_ne_ok fun h => hp h.1

end Success

/-- The result is a fault of this kind. -/
def FailsAs {α : Type} (r : Except ParseError α) (kind : ParseError.Kind) : Prop :=
  ∃ fault, r = .error fault ∧ fault.kind = kind

namespace FailsAs

variable {α β : Type} {r : Except ParseError α} {kind : ParseError.Kind}

/-- A refusal has the kind of its cause. -/
theorem refuse (cause : ParseError.Cause) : FailsAs (α := α) (SatWire.refuse cause) cause.kind :=
  ⟨_, rfl, rfl⟩

/-- The place told around a fault keeps its kind. -/
theorem located (scope : Scope) (h : FailsAs r kind) : FailsAs (located scope r) kind := by
  obtain ⟨fault, rfl, hkind⟩ := h
  exact ⟨fault.within scope, rfl, (fault.kind_within scope).trans hkind⟩

/-- What would be made of a success does not matter. -/
theorem map (f : α → β) (h : FailsAs r kind) : FailsAs (r.map f) kind := by
  obtain ⟨fault, rfl, hkind⟩ := h
  exact ⟨fault, rfl, hkind⟩

/-- What fails first decides. -/
theorem bind (f : α → Except ParseError β) (h : FailsAs r kind) : FailsAs (r.bind f) kind := by
  obtain ⟨fault, rfl, hkind⟩ := h
  exact ⟨fault, rfl, hkind⟩

/-- A failed result is not a success. -/
theorem ne_ok (h : FailsAs r kind) (a : α) : r ≠ .ok a := by
  obtain ⟨fault, rfl, -⟩ := h
  exact fun hok => nomatch hok

end FailsAs

end SatWire
