import Mathlib.Data.Prod.Lex
import SatWire.Proofs.Schema.Extension

/-!
# Registries as tables

A registry is built entry by entry, and kept in the order of the keys.  Nothing of that shows: a list
of entries with distinct keys gives the one registry that holds them in order, however the list was
arranged, and any other list is refused for the first entry whose key was there before
(`addAll_cases`).

A registry may read its source again and again.  What it holds is what the last good source had.
-/

namespace SatWire

namespace SchemaEntry

variable {a b e : SchemaEntry}

/-- What an entry is found by. -/
def key (e : SchemaEntry) : UInt8 × UInt8 :=
  (e.serviceId, e.messageId)

/-- Entries of one rank are entries of one key. -/
theorem rank_eq_iff : a.rank = b.rank ↔ a.key = b.key :=
  rank_inj.trans Prod.mk_inj.symm

/-- A key is a service and a message of it. -/
theorem key_eq_iff {serviceId messageId : UInt8} :
    e.key = (serviceId, messageId) ↔ e.serviceId = serviceId ∧ e.messageId = messageId :=
  Prod.mk_inj

/-- Keys come in the order of services, and of messages within a service. -/
theorem rank_lt_iff : a.rank < b.rank ↔ Prod.Lex (· < ·) (· < ·) a.key b.key := by
  have ha := a.messageId.toNat_lt
  have hb := b.messageId.toNat_lt
  simp only [Prod.lex_def, key, UInt8.lt_iff_toNat_lt, ← UInt8.toNat_inj, rank]
  omega

/-- The keys of a service are those from its message 0 to its message 255. -/
theorem rank_mem_service_iff {serviceId : UInt8} :
    256 * serviceId.toNat ≤ e.rank ∧ e.rank ≤ 256 * serviceId.toNat + 255
      ↔ e.serviceId = serviceId := by
  have he := e.messageId.toNat_lt
  rw [← UInt8.toNat_inj, rank]
  omega

end SchemaEntry

/-- An entry is put among the others, and none is lost. -/
theorem insertByRank_perm (e : SchemaEntry) (xs : List SchemaEntry) :
    (insertByRank e xs).Perm (e :: xs) := by
  induction xs with
  | nil => exact .refl _
  | cons x xs ih =>
      rw [insertByRank]
      split
      · exact .refl _
      · exact (ih.cons x).trans (.swap e x xs)

/-- No two entries have one key. -/
def DistinctKeys (entries : List SchemaEntry) : Prop :=
  (entries.map SchemaEntry.key).Nodup

instance (entries : List SchemaEntry) : Decidable (DistinctKeys entries) :=
  inferInstanceAs (Decidable (entries.map SchemaEntry.key).Nodup)

/-- Keys stay distinct in any order. -/
theorem DistinctKeys.of_perm {entries others : List SchemaEntry} (hdistinct : DistinctKeys entries)
    (hperm : others.Perm entries) : DistinctKeys others :=
  (hperm.map SchemaEntry.key).nodup_iff.mpr hdistinct

/-- The fault of a list that repeats a key: `e` is the first entry whose key was there before, and
`first` had it. -/
structure RefusedFor (entries : List SchemaEntry) (fault : SchemaError)
    (before behind : List SchemaEntry) (e first : SchemaEntry) : Prop where
  entries_eq : entries = before ++ e :: behind
  distinct : DistinctKeys before
  mem : first ∈ before
  key_eq : first.key = e.key
  fault_eq : fault = .duplicate e.serviceId e.messageId first.name e.name

/-- A list that is refused repeats a key. -/
theorem RefusedFor.not_distinct {entries before behind : List SchemaEntry} {fault : SchemaError}
    {e first : SchemaEntry} (hrefused : RefusedFor entries fault before behind e first) :
    ¬ DistinctKeys entries := by
  rw [hrefused.entries_eq, DistinctKeys, List.map_append, List.nodup_append]
  rintro ⟨-, -, hapart⟩
  exact hapart first.key (List.mem_map_of_mem hrefused.mem) e.key
    (List.mem_map_of_mem List.mem_cons_self) hrefused.key_eq

namespace Registry

variable {r : Registry}

/-- A registry holds one entry for a key. -/
theorem distinctKeys (r : Registry) : DistinctKeys r.entries := by
  refine List.pairwise_map.mpr (r.ranked.imp fun hless hsame => ?_)
  exact Nat.ne_of_lt hless (SchemaEntry.rank_eq_iff.mpr hsame)

/-- Two registries of the same entries are one. -/
theorem eq_of_perm {other : Registry} (hperm : r.entries.Perm other.entries) : r = other := by
  have hentries : r.entries = other.entries :=
    hperm.eq_of_pairwise (fun _ _ _ _ hless hmore => absurd hmore (Nat.lt_asymm hless)) r.ranked
      other.ranked
  cases r
  cases other
  cases hentries
  rfl

/-- **Adding an entry** fails if its key is taken, and otherwise puts it among the others. -/
theorem add_cases (r : Registry) (e : SchemaEntry) :
    (∃ first ∈ r.entries, first.key = e.key
        ∧ r.add e = .error (.duplicate e.serviceId e.messageId first.name e.name))
      ∨ ∃ larger, r.add e = .ok larger ∧ larger.entries.Perm (r.entries ++ [e]) := by
  unfold add
  split
  · rename_i first hfirst
    have hrank := List.find?_some hfirst
    simp only [beq_iff_eq] at hrank
    exact .inl ⟨first, List.mem_of_find?_eq_some hfirst, SchemaEntry.rank_eq_iff.mp hrank, rfl⟩
  · refine .inr ⟨_, rfl, ?_⟩
    exact (insertByRank_perm e r.entries).trans (List.perm_append_singleton e r.entries).symm

/-- **Adding entries in turn**, to a registry that holds some. -/
theorem addAll_cases {held : List SchemaEntry} (hheld : r.entries.Perm held)
    (entries : List SchemaEntry) :
    (∃ larger, r.addAll entries = .ok larger ∧ larger.entries.Perm (held ++ entries))
      ∨ ∃ fault before behind e first, r.addAll entries = .error fault
        ∧ RefusedFor (held ++ entries) fault before behind e first := by
  -- Each entry added goes to the end of `held`, so a refused one stands right behind them.
  induction entries generalizing r held with
  | nil => exact .inl ⟨r, rfl, by rwa [List.append_nil]⟩
  | cons e entries ih =>
      rcases r.add_cases e with ⟨first, hfirst, hkey, hadd⟩ | ⟨larger, hadd, hlarger⟩
      · refine .inr ⟨_, held, entries, e, first, by rw [addAll, hadd]; rfl, ?_⟩
        exact ⟨rfl, r.distinctKeys.of_perm hheld.symm, hheld.mem_iff.mp hfirst, hkey, rfl⟩
      · have hrest := ih (hlarger.trans (hheld.append_right [e]))
        rw [List.append_assoc, List.singleton_append] at hrest
        rw [addAll, hadd]
        exact hrest

/-- A list gives a registry of its entries, or is refused for one of them. -/
theorem ofList_cases (entries : List SchemaEntry) :
    (∃ r, ofList entries = .ok r ∧ r.entries.Perm entries)
      ∨ ∃ fault before behind e first, ofList entries = .error fault
        ∧ RefusedFor entries fault before behind e first :=
  addAll_cases (r := empty) .nil entries

/-- **A registry is built** exactly from a list of distinct keys. -/
theorem exists_ofList_iff (entries : List SchemaEntry) :
    (∃ r, ofList entries = .ok r) ↔ DistinctKeys entries := by
  rcases ofList_cases entries with ⟨r, hr, hperm⟩ | ⟨fault, _, _, _, _, hfault, hrefused⟩
  · exact iff_of_true ⟨r, hr⟩ (r.distinctKeys.of_perm hperm.symm)
  · refine iff_of_false ?_ hrefused.not_distinct
    rintro ⟨r, hr⟩
    exact nomatch hfault.symm.trans hr

/-- **A refused list** is refused for the first entry whose key was there before. -/
theorem refusedFor_of_error {entries : List SchemaEntry} {fault : SchemaError}
    (hfault : ofList entries = .error fault) :
    ∃ before behind e first, RefusedFor entries fault before behind e first := by
  rcases ofList_cases entries with ⟨r, hr, -⟩ | ⟨_, before, behind, e, first, hother, hrefused⟩
  · exact nomatch hfault.symm.trans hr
  · obtain rfl := Except.error.inj (hother.symm.trans hfault)
    exact ⟨before, behind, e, first, hrefused⟩

/-- A registry holds the entries that it was made from. -/
theorem perm_of_ofList {entries : List SchemaEntry} (hr : ofList entries = .ok r) :
    r.entries.Perm entries := by
  rcases ofList_cases entries with ⟨_, hother, hperm⟩ | ⟨fault, _, _, _, _, hfault, -⟩
  · obtain rfl := Except.ok.inj (hother.symm.trans hr)
    exact hperm
  · exact nomatch hfault.symm.trans hr

/-- **The order of a list does not matter** to its registry. -/
theorem ofList_of_perm {entries others : List SchemaEntry} (hr : ofList entries = .ok r)
    (hperm : others.Perm entries) : ofList others = .ok r := by
  have hdistinct := ((exists_ofList_iff entries).mp ⟨r, hr⟩).of_perm hperm
  obtain ⟨other, hother⟩ := (exists_ofList_iff others).mpr hdistinct
  have hsame : other = r :=
    eq_of_perm (((perm_of_ofList hother).trans hperm).trans (perm_of_ofList hr).symm)
  rw [hother, hsame]

/-- The entries within a range of ranks. -/
def range (r : Registry) (low high : Nat) : List SchemaEntry :=
  r.entries.filter fun e => decide (low ≤ e.rank ∧ e.rank ≤ high)

/-- A service is known if it has an entry between its message 0 and its message 255. -/
theorem any_service_iff_range_ne_nil (r : Registry) (serviceId : UInt8) :
    r.entries.any (·.serviceId == serviceId) = true
      ↔ r.range (256 * serviceId.toNat) (256 * serviceId.toNat + 255) ≠ [] := by
  simp only [range, SchemaEntry.rank_mem_service_iff, ne_eq, List.filter_eq_nil_iff,
    List.any_eq_true, beq_iff_eq, decide_eq_true_eq, not_forall, not_not, exists_prop]

/-- **Looking up by ranges.**  Behind a key without an entry, one look at the range of the service
tells the rest. -/
theorem lookup_eq_ranged (r : Registry) (serviceId messageId : UInt8) :
    r.lookup serviceId messageId
      = match r.entries.find? fun e => e.key == (serviceId, messageId) with
        | some e => .ok e
        | none =>
          match r.range (256 * serviceId.toNat) (256 * serviceId.toNat + 255) with
          | _ :: _ => refuse (.unknownMessage serviceId messageId)
          | [] => refuse (.unknownService serviceId) := by
  have hknown := r.any_service_iff_range_ne_nil serviceId
  have hkey : (fun e : SchemaEntry => e.key == (serviceId, messageId))
      = fun e => e.serviceId == serviceId && e.messageId == messageId := rfl
  rw [lookup, hkey]
  cases r.entries.find? fun e => e.serviceId == serviceId && e.messageId == messageId with
  | some e => rfl
  | none =>
      cases hrange : r.range (256 * serviceId.toNat) (256 * serviceId.toNat + 255) with
      | nil => exact if_neg (mt hknown.mp (not_not_intro hrange))
      | cons e others =>
          rw [hrange] at hknown
          exact if_pos (hknown.mpr (List.cons_ne_nil e others))

/-- Without an entry, the service decides. -/
theorem lookup_of_forall_ne {serviceId messageId : UInt8}
    (hother : ∀ e ∈ r.entries, e.key ≠ (serviceId, messageId)) :
    r.lookup serviceId messageId
      = if ∃ e ∈ r.entries, e.serviceId = serviceId then refuse (.unknownMessage serviceId messageId)
        else refuse (.unknownService serviceId) := by
  have hnone : r.entries.find? (fun e => e.serviceId == serviceId && e.messageId == messageId)
      = none := by
    refine List.find?_eq_none.mpr fun e he hfound => hother e he ?_
    simpa [SchemaEntry.key] using hfound
  rw [lookup, hnone]
  simp [List.any_eq_true]

/-- How a registry shows the entries of a list. -/
structure Tabulates (r : Registry) (entries : List SchemaEntry) : Prop where
  perm : r.entries.Perm entries
  ordered : r.entries.Pairwise fun a b => Prod.Lex (· < ·) (· < ·) a.key b.key
  size : r.size = entries.length
  found : ∀ serviceId messageId e,
    r.lookup serviceId messageId = .ok e ↔ e ∈ entries ∧ e.key = (serviceId, messageId)
  unknownMessage : ∀ serviceId messageId, (∀ e ∈ entries, e.key ≠ (serviceId, messageId)) →
    (∃ e ∈ entries, e.serviceId = serviceId) →
    r.lookup serviceId messageId = refuse (.unknownMessage serviceId messageId)
      ∧ FailsAs (r.lookup serviceId messageId) .invalidMin
  unknownService : ∀ serviceId messageId, (∀ e ∈ entries, e.serviceId ≠ serviceId) →
    r.lookup serviceId messageId = refuse (.unknownService serviceId)
      ∧ FailsAs (r.lookup serviceId messageId) .invalidSin

/-- **A registry of a list** shows its entries in order, and finds them all. -/
theorem tabulates_of_ofList {entries : List SchemaEntry} (hr : ofList entries = .ok r) :
    Tabulates r entries where
  perm := perm_of_ofList hr
  ordered := r.ranked.imp SchemaEntry.rank_lt_iff.mp
  size := (perm_of_ofList hr).length_eq
  found serviceId messageId e := by
    rw [lookup_eq_ok_iff, (perm_of_ofList hr).mem_iff, SchemaEntry.key_eq_iff]
  unknownMessage serviceId messageId hother hservice := by
    simp only [← (perm_of_ofList hr).mem_iff] at hother hservice
    rw [lookup_of_forall_ne hother, if_pos hservice]
    exact ⟨rfl, .refuse _⟩
  unknownService serviceId messageId hother := by
    simp only [← (perm_of_ofList hr).mem_iff] at hother
    have hkeys : ∀ e ∈ r.entries, e.key ≠ (serviceId, messageId) := fun e he hkey =>
      hother e he (SchemaEntry.key_eq_iff.mp hkey).1
    have hnone : ¬ ∃ e ∈ r.entries, e.serviceId = serviceId := fun ⟨e, he, hservice⟩ =>
      hother e he hservice
    rw [lookup_of_forall_ne hkeys, if_neg hnone]
    exact ⟨rfl, .refuse _⟩

/-- The entries that a source gives, if a registry can be built from them. -/
def goodList : Source → Option (List SchemaEntry)
  | .ok entries => if DistinctKeys entries then some entries else none
  | .error _ => none

/-- The entries that the last good source gave, or those in use before. -/
def lastGood (entries : List SchemaEntry) (sources : List Source) : List SchemaEntry :=
  (sources.filterMap goodList).getLast?.getD entries

/-- Reads sources one after the other, whatever comes of each. -/
def reloadAll (r : Registry) (sources : List Source) : Registry :=
  sources.foldl (fun r source => (r.reload source).2) r

/-- How a registry reads a source: it succeeds exactly if the source is good, and otherwise stays as
it was and tells the fault of the source or of its list. -/
structure Reads (r : Registry) (source : Source) : Prop where
  succeeds : (r.reload source).1 = .ok () ↔ (goodList source).isSome
  stays : ∀ fault, (r.reload source).1 = .error fault → (r.reload source).2 = r
    ∧ (source = .error fault ∨ ∃ entries before behind e first, source = .ok entries
      ∧ RefusedFor entries fault before behind e first)

/-- **Reading a source** takes the registry of a good one, and nothing of any other. -/
theorem reload_cases (r : Registry) (source : Source) :
    (∃ entries fresh, goodList source = some entries ∧ ofList entries = .ok fresh
        ∧ r.reload source = (.ok (), fresh))
      ∨ ∃ fault, goodList source = none ∧ r.reload source = (.error fault, r)
        ∧ (source = .error fault
          ∨ ∃ entries, source = .ok entries ∧ ofList entries = .error fault) := by
  cases source with
  | error fault => exact .inr ⟨fault, rfl, rfl, .inl rfl⟩
  | ok entries =>
      have hload : load (.ok entries) = ofList entries := rfl
      have hgood := exists_ofList_iff entries
      rw [reload, hload]
      cases hlist : ofList entries with
      | ok fresh => exact .inl ⟨entries, fresh, if_pos (hgood.mp ⟨fresh, hlist⟩), hlist, rfl⟩
      | error fault =>
          refine .inr ⟨fault, if_neg ?_, rfl, .inr ⟨entries, rfl, hlist⟩⟩
          rw [← hgood, hlist]
          exact fun ⟨fresh, hfresh⟩ => nomatch hfresh

/-- So every registry reads every source. -/
theorem reads (r : Registry) (source : Source) : Reads r source := by
  rcases r.reload_cases source with
    ⟨entries, fresh, hgood, -, hreload⟩ | ⟨fault, hnone, hreload, hfault⟩
  · have hsome := Option.isSome_iff_exists.mpr ⟨entries, hgood⟩
    exact ⟨iff_of_true (congrArg Prod.fst hreload) hsome,
      fun fault hfault => nomatch (congrArg Prod.fst hreload).symm.trans hfault⟩
  · constructor
    · refine iff_of_false ?_ ?_
      · exact fun hok => nomatch (congrArg Prod.fst hreload).symm.trans hok
      · rw [hnone]
        exact Bool.false_ne_true
    · intro other hother
      obtain rfl := Except.error.inj ((congrArg Prod.fst hreload).symm.trans hother)
      refine ⟨congrArg Prod.snd hreload, hfault.imp_right ?_⟩
      rintro ⟨entries, hsource, hlist⟩
      obtain ⟨before, behind, e, first, hrefused⟩ := refusedFor_of_error hlist
      exact ⟨entries, before, behind, e, first, hsource, hrefused⟩

/-- One more good source replaces all others. -/
theorem lastGood_cons (entries : List SchemaEntry) (source : Source) (sources : List Source) :
    lastGood entries (source :: sources) = lastGood ((goodList source).getD entries) sources := by
  unfold lastGood
  cases hgood : goodList source with
  | none => rw [List.filterMap_cons_none hgood]; rfl
  | some others => rw [List.filterMap_cons_some hgood, List.getLast?_cons]; rfl

/-- **Reading sources again and again** leaves the registry of the last good one. -/
theorem ofList_lastGood {entries : List SchemaEntry} (hr : ofList entries = .ok r)
    (sources : List Source) : ofList (lastGood entries sources) = .ok (r.reloadAll sources) := by
  induction sources generalizing r entries with
  | nil => exact hr
  | cons source sources ih =>
      rw [lastGood_cons]
      have hnext : r.reloadAll (source :: sources) = (r.reload source).2.reloadAll sources := rfl
      rw [hnext]
      rcases r.reload_cases source with
        ⟨others, fresh, hgood, hfresh, hreload⟩ | ⟨fault, hnone, hreload, -⟩
      · rw [hgood, hreload]
        exact ih hfresh
      · rw [hnone, hreload]
        exact ih hr

/-- **The table of the last good source.**  A list gives a registry exactly if its keys are distinct,
and is otherwise refused for the first entry whose key was there before.  The registry shows the
entries of the list in order, finds each by its key, and is the same for every arrangement of the
list.  However often sources are read after that, it is the registry of the last list that gave one,
and a source that gives none changes nothing. -/
theorem table_of_last_good (entries : List SchemaEntry) :
    ((∃ r, ofList entries = .ok r) ↔ DistinctKeys entries)
      ∧ (∀ fault, ofList entries = .error fault →
        ∃ before behind e first, RefusedFor entries fault before behind e first)
      ∧ ∀ r, ofList entries = .ok r → Tabulates r entries
        ∧ (∀ others : List SchemaEntry, others.Perm entries → ofList others = .ok r)
        ∧ ∀ sources, ofList (lastGood entries sources) = .ok (r.reloadAll sources)
          ∧ ∀ source, Reads (r.reloadAll sources) source := by
  refine ⟨exists_ofList_iff entries, fun _ => refusedFor_of_error, ?_⟩
  intro r hr
  exact ⟨tabulates_of_ofList hr, fun _ => ofList_of_perm hr,
    fun sources => ⟨ofList_lastGood hr sources, reads _⟩⟩

/-- Three entries in order, with a fault for a message and one for a service that nobody knows.  Of
three sources, the first repeats a key and the last fails. -/
theorem table_of_last_good_reloaded :
    let entries : List SchemaEntry :=
      [⟨2, 0, "status", .both, []⟩, ⟨1, 255, "last", .both, []⟩, ⟨1, 0, "first", .both, []⟩]
    let twice : List SchemaEntry :=
      [⟨3, 3, "once", .both, []⟩, ⟨3, 4, "other", .both, []⟩, ⟨3, 3, "again", .both, []⟩]
    let fresh : List SchemaEntry := [⟨4, 1, "fresh", .both, []⟩]
    let sources : List Source := [.ok twice, .ok fresh, .error (.source "gone")]
    (∃ before behind e first, RefusedFor twice (.duplicate 3 3 "once" "again") before behind e first)
      ∧ ∃ r, ofList entries = .ok r ∧ Tabulates r entries
        ∧ r.entries.map SchemaEntry.name = ["first", "last", "status"]
        ∧ r.lookup 1 7 = refuse (.unknownMessage 1 7) ∧ r.lookup 0 0 = refuse (.unknownService 0)
        ∧ ofList entries.reverse = .ok r
        ∧ ofList fresh = .ok (r.reloadAll sources)
        ∧ (r.reload (.ok twice)).2 = r := by
  intro entries twice fresh sources
  obtain ⟨r, hr⟩ := (table_of_last_good entries).1.mpr (by decide)
  obtain ⟨htable, hperm, hreload⟩ := (table_of_last_good entries).2.2 r hr
  have hnames : (ofList entries).map (fun r => r.entries.map SchemaEntry.name)
      = .ok ["first", "last", "status"] := by decide
  rw [hr] at hnames
  refine ⟨(table_of_last_good twice).2.1 _ (by rfl), r, hr, htable, Except.ok.inj hnames,
    (htable.unknownMessage 1 7 (by decide) (by decide)).1,
    (htable.unknownService 0 0 (by decide)).1, hperm _ (List.reverse_perm entries),
    (hreload sources).1, ?_⟩
  exact (((hreload []).2 (.ok twice)).stays (.duplicate 3 3 "once" "again") (by rfl)).1

end Registry

end SatWire
