import SatWire.Fault
/-!
# The schema registry

A registry holds at most one schema entry for each key, in the order of the keys.  It is built from
a list of entries, and the first entry whose key was there before refuses the whole list.

* `rank_inj` — the rank of an entry tells its key;
* `insertByRank_sorted` — inserting an entry with a new key keeps the order.
-/

namespace SatWire

/-- Why a registry could not be built. -/
inductive SchemaError where
  /-- Two entries with one key; the earlier name stands first. -/
  | duplicate (serviceId messageId : UInt8) (first second : String)
  /-- The entries could not be obtained at all. -/
  | source (reason : String)
  deriving DecidableEq

/-- The failure in words. -/
def SchemaError.message : SchemaError → String
  | duplicate serviceId messageId first second =>
    s!"duplicate schema entry {serviceId.toNat}:{messageId.toNat} ('{first}' and '{second}')"
  | source reason => s!"schema source failed: {reason}"

namespace SchemaEntry

/-- The place of an entry's key in the order of keys: by service, then by message. -/
def rank (e : SchemaEntry) : Nat :=
  256 * e.serviceId.toNat + e.messageId.toNat

/-- A rank tells the service and the message. -/
theorem rank_inj {a b : SchemaEntry} :
    a.rank = b.rank ↔ a.serviceId = b.serviceId ∧ a.messageId = b.messageId := by
  have ha := a.messageId.toNat_lt
  have hb := b.messageId.toNat_lt
  constructor
  · intro h
    exact ⟨UInt8.toNat_inj.1 (by simp only [rank] at h; omega),
      UInt8.toNat_inj.1 (by simp only [rank] at h; omega)⟩
  · rintro ⟨hs, hm⟩
    simp [rank, hs, hm]

end SchemaEntry

/-- Puts an entry in front of the first one with a higher rank. -/
def insertByRank (e : SchemaEntry) : List SchemaEntry → List SchemaEntry
  | [] => [e]
  | x :: xs => if e.rank < x.rank then e :: x :: xs else x :: insertByRank e xs

/-- What is put among others is there, and so are they. -/
theorem mem_insertByRank {e y : SchemaEntry} {xs : List SchemaEntry} :
    y ∈ insertByRank e xs ↔ y = e ∨ y ∈ xs := by
  induction xs with
  | nil => simp [insertByRank]
  | cons x xs ih =>
    by_cases h : e.rank < x.rank
    · simp [insertByRank, h]
    · simp only [insertByRank, h, if_false, List.mem_cons, ih]
      exact or_left_comm

/-- The ranks of a list rise from each entry to the next. -/
def Ranked (xs : List SchemaEntry) : Prop :=
  xs.Pairwise fun a b => a.rank < b.rank

/-- An entry whose rank is new goes where its rank belongs. -/
theorem insertByRank_sorted {e : SchemaEntry} {xs : List SchemaEntry} (sorted : Ranked xs)
    (fresh : ∀ x ∈ xs, x.rank ≠ e.rank) : Ranked (insertByRank e xs) := by
  induction xs with
  | nil => simp [insertByRank, Ranked]
  | cons x xs ih =>
    obtain ⟨hx, hxs⟩ := List.pairwise_cons.1 sorted
    by_cases h : e.rank < x.rank
    · rw [insertByRank, if_pos h]
      refine List.pairwise_cons.2 ⟨?_, sorted⟩
      intro y hy
      rcases List.mem_cons.1 hy with rfl | hy
      · exact h
      · exact Nat.lt_trans h (hx y hy)
    · rw [insertByRank, if_neg h]
      refine List.pairwise_cons.2 ⟨?_, ih hxs fun y hy => fresh y (List.mem_cons_of_mem _ hy)⟩
      intro y hy
      have hne := fresh x List.mem_cons_self
      rcases mem_insertByRank.1 hy with rfl | hy
      · omega
      · exact hx y hy

/-- Schema entries with distinct keys, in the order of the keys. -/
structure Registry where
  entries : List SchemaEntry := []
  ranked : Ranked entries := by exact List.Pairwise.nil

namespace Registry

/-- The registry without entries. -/
def empty : Registry := {}

/-- Adds an entry, unless its key is taken. -/
def add (r : Registry) (e : SchemaEntry) : Except SchemaError Registry :=
  match found : r.entries.find? (fun x => x.rank == e.rank) with
  | some first => .error (.duplicate e.serviceId e.messageId first.name e.name)
  | none =>
    .ok ⟨insertByRank e r.entries, insertByRank_sorted r.ranked fun x hx hr => by
      simpa [hr] using List.find?_eq_none.1 found x hx⟩

/-- Adds entries in turn, and stops at the first whose key is taken. -/
def addAll (r : Registry) : List SchemaEntry → Except SchemaError Registry
  | [] => .ok r
  | e :: es => (r.add e).bind fun r => r.addAll es

/-- The registry of a list of entries. -/
def ofList (entries : List SchemaEntry) : Except SchemaError Registry :=
  empty.addAll entries

/-- Where entries come from: a list of them, or a failure to obtain any. -/
abbrev Source := Except SchemaError (List SchemaEntry)

/-- The registry of a source. -/
def load (source : Source) : Except SchemaError Registry :=
  source.bind ofList

/-- Reads a source and takes its registry.  On failure the one in use stays. -/
def reload (r : Registry) (source : Source) : Except SchemaError Unit × Registry :=
  match load source with
  | .ok fresh => (.ok (), fresh)
  | .error fault => (.error fault, r)

/-- The entry with a key.  Otherwise the fault tells whether the service is known at all. -/
def lookup (r : Registry) (serviceId messageId : UInt8) : Except ParseError SchemaEntry :=
  match r.entries.find? (fun e => e.serviceId == serviceId && e.messageId == messageId) with
  | some e => .ok e
  | none =>
    if r.entries.any (·.serviceId == serviceId) then refuse (.unknownMessage serviceId messageId)
    else refuse (.unknownService serviceId)

/-- How many kinds of message the registry knows. -/
def size (r : Registry) : Nat :=
  r.entries.length

end Registry

end SatWire
