import SatWire.Fault

/-!
# Work in place

What works on a state in place changes it a part at a time and stops at the first fault.  Then the
order of checks and changes matters, for what has been changed stays changed if a later step fails.

Such work can be told without a state that changes if it settles a value (`InPlace.settle`): a
success leaves the answer and the state of the value, and a fault leaves the state as it was.  What
checks first and settles a value then settles the value behind the check (`InPlace.settle_check`).
-/

namespace SatWire

/-- What works on a state in place: it ends with an answer or a fault, and leaves what it made of the
state in both cases. -/
abbrev InPlace (ε σ α : Type) : Type :=
  ExceptT ε (StateM σ) α

namespace InPlace

variable {ε ε' σ α β : Type} {s s' : σ} {script : InPlace ε σ α} {next : α → InPlace ε σ β}

/-- What the work ends with, and what it leaves of the state that it began with. -/
def run (script : InPlace ε σ α) (s : σ) : Except ε α × σ :=
  Id.run (StateT.run (ExceptT.run script) s)

/-- Reads something off the state. -/
def look (f : σ → α) : InPlace ε σ α :=
  return f (← get)

/-- Asks the state something that it may refuse. -/
def check (f : σ → Except ε α) : InPlace ε σ α := do
  MonadExcept.ofExcept (f (← get))

/-- A check ends with what the state says, and changes nothing. -/
theorem check_run (f : σ → Except ε α) (s : σ) : (check f).run s = (f s, s) := by
  change (MonadExcept.ofExcept (f s) : InPlace ε σ α).run s = _
  cases f s <;> rfl

/-- Faults may be told otherwise; what is left of the state is the same. -/
theorem adapt_run (f : ε → ε') (script : InPlace ε σ α) (s : σ) :
    InPlace.run (ExceptT.adapt f script) s = ((script.run s).1.mapError f, (script.run s).2) :=
  rfl

/-- What follows a success starts from what it left. -/
theorem bind_of_ok {a : α} (hscript : script.run s = (.ok a, s')) :
    (script >>= next).run s = (next a).run s' := by
  change InPlace.run (ExceptT.bindCont (m := StateM σ) next (script.run s).1) (script.run s).2 = _
  rw [hscript]
  rfl

/-- Nothing follows a failure. -/
theorem bind_of_error {fault : ε} (hscript : script.run s = (.error fault, s')) :
    (script >>= next).run s = (.error fault, s') := by
  change InPlace.run (ExceptT.bindCont (m := StateM σ) next (script.run s).1) (script.run s).2 = _
  rw [hscript]
  rfl

/-- What follows a look starts from the same state. -/
theorem look_bind (f : σ → α) (next : α → InPlace ε σ β) (s : σ) :
    (look f >>= next).run s = (next (f s)).run s :=
  rfl

/-- What follows a check starts from the same state, unless the check fails. -/
theorem check_bind (f : σ → Except ε α) (next : α → InPlace ε σ β) (s : σ) :
    (check f >>= next).run s = match f s with
      | .ok a => (next a).run s
      | .error fault => (.error fault, s) := by
  cases hchecked : f s with
  | ok a => exact bind_of_ok ((check_run f s).trans (by rw [hchecked]))
  | error fault => exact bind_of_error ((check_run f s).trans (by rw [hchecked]))

/-- What is left behind a value: the answer and the state of a success, or a fault and the state as it
was. -/
def settle (s : σ) : Except ε (α × σ) → Except ε α × σ
  | .ok (a, s') => (.ok a, s')
  | .error fault => (.error fault, s)

/-- **Checks first.**  What settles a value after a check settles the value behind the check. -/
theorem settle_check {f : σ → Except ε α} {value : α → Except ε (β × σ)}
    (hnext : ∀ a, (next a).run s = settle s (value a)) :
    (check f >>= next).run s = settle s ((f s).bind value) := by
  rw [check_bind]
  cases f s with
  | ok a => exact hnext a
  | error fault => rfl

/-- What settles a value settles the value told otherwise if its answer is. -/
theorem settle_bind_pure {value : Except ε (α × σ)} (hscript : script.run s = settle s value)
    (f : α → β) :
    (script >>= fun a => pure (f a)).run s = settle s (value.map fun (a, s') => (f a, s')) := by
  cases value with
  | ok done => exact bind_of_ok hscript
  | error fault => exact bind_of_error hscript

/-- What settles a value settles it with its fault told otherwise if that is done in place, too. -/
theorem settle_adapt {value : Except ε (α × σ)} (hscript : script.run s = settle s value)
    (f : ε → ε') :
    InPlace.run (ExceptT.adapt f script) s = settle s (value.mapError f) := by
  rw [adapt_run, hscript]
  cases value <;> rfl

/-- What settles a value succeeds exactly if the value is a success, and leaves its state. -/
theorem settle_eq_ok_iff {value : Except ε (α × σ)} {a : α} :
    settle s value = (.ok a, s') ↔ value = .ok (a, s') := by
  rcases value with fault | ⟨b, t⟩ <;> simp [settle]

/-- What settles a value fails exactly if the value is a fault, and leaves the state as it was. -/
theorem settle_eq_error_iff {value : Except ε (α × σ)} {fault : ε} :
    settle s value = (.error fault, s') ↔ value = .error fault ∧ s' = s := by
  rcases value with other | ⟨b, t⟩ <;> simp [settle, eq_comm]

end InPlace

end SatWire
