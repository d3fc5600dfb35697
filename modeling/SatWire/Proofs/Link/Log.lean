import Mathlib.Data.List.Basic
import SatWire.Proofs.InPlace

/-!
# Logs of what was asked

A session, or a part of it that remembers something, is asked one thing after the other.  A request
works in place, so it ends with an answer or a fault, and what it has changed stays changed if it
fails.  `Asked` is the state in use together with the log of its requests, and what every request
keeps holds after any number of them (`Asked.askAll_keeps`).

What an entry of a log means may depend on the entries before it; `gather` collects such meanings.
-/

namespace SatWire

/-- A request and what came of it. -/
structure Dealing (ε ρ α : Type) where
  request : ρ
  result : Except ε α

/-- Something in use, and the log of what it was asked, oldest first. -/
structure Asked (ε σ ρ α : Type) where
  state : σ
  log : List (Dealing ε ρ α) := []

namespace Asked

variable {ε σ ρ α : Type} {carryOut : ρ → InPlace ε σ α}

/-- Makes a request, and puts what came of it into the log. -/
def ask (carryOut : ρ → InPlace ε σ α) (a : Asked ε σ ρ α) (request : ρ) : Asked ε σ ρ α where
  state := ((carryOut request).run a.state).2
  log := a.log ++ [⟨request, ((carryOut request).run a.state).1⟩]

/-- Makes requests one after the other, whatever comes of each. -/
def askAll (carryOut : ρ → InPlace ε σ α) (a : Asked ε σ ρ α) (requests : List ρ) : Asked ε σ ρ α :=
  requests.foldl (ask carryOut) a

/-- The log is of the requests made. -/
theorem map_request_askAll (a : Asked ε σ ρ α) (requests : List ρ) :
    (a.askAll carryOut requests).log.map Dealing.request
      = a.log.map Dealing.request ++ requests := by
  induction requests generalizing a with
  | nil => exact (List.append_nil _).symm
  | cons request requests ih =>
      refine (ih (a.ask carryOut request)).trans ?_
      rw [ask, List.map_append, List.append_assoc]
      rfl

/-- **What each request keeps, any number of them keep.** -/
theorem askAll_keeps {P : Asked ε σ ρ α → Prop} {a : Asked ε σ ρ α} (hstart : P a)
    (hstep : ∀ a request, P a → P (ask carryOut a request)) (requests : List ρ) :
    P (a.askAll carryOut requests) := by
  induction requests generalizing a with
  | nil => exact hstart
  | cons request requests ih => exact ih (hstep a request hstart)

end Asked

/-- What the items of a list yield, each in view of those before it. -/
def gather {α β : Type} (f : List α → α → Option β) (xs : List α) : List β :=
  (List.range xs.length).filterMap fun i => xs[i]?.bind (f (xs.take i))

/-- A last item yields something in view of all others, and they do not look at it. -/
theorem gather_concat {α β : Type} (f : List α → α → Option β) (xs : List α) (x : α) :
    gather f (xs ++ [x]) = gather f xs ++ (f xs x).toList := by
  rw [gather, List.length_append, List.length_singleton, List.range_succ, List.filterMap_append]
  congr 1
  · refine List.filterMap_congr fun i hi => ?_
    have hlt : i < xs.length := List.mem_range.mp hi
    rw [List.getElem?_append_left hlt, List.take_append_of_le_length (Nat.le_of_lt hlt)]
  · cases hyield : f xs x <;> simp [hyield]

end SatWire
