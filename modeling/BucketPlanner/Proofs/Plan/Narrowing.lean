import BucketPlanner.Plan.Choice
import BucketPlanner.Proofs.Bucket.Log
import BucketPlanner.Proofs.Bucket.Range
import BucketPlanner.Proofs.Lists

/-!
# Narrowing the candidates of a minterm

The predicates of a minterm give key ranges to the indexes of their columns. What matters of them is
which indexes are given a range, and which keys lie in all ranges of an index:

* `CandidateRanges.Gathers`: candidates that have, for every index, the keys of the ranges given so
  far;
* `CandidateRanges.Gathers.narrow?`: narrowing gathers one more range, or leaves an index no key;
* `Minterm.isNarrowed_candidates`: so do the predicates of a minterm, one after the other;
* `Minterm.candidates_eq_error`: an error is that of a predicate.
-/

namespace BucketPlanner

/-! ### Ranges given to indexes -/

/-- Key ranges that are given to indexes. -/
abbrev GivenRanges := Set (IndexId × KeyRange)

namespace GivenRanges

variable {given given' : GivenRanges} {id j : IndexId} {range r : KeyRange}

/-- The indexes that are given a range. -/
def indexes (given : GivenRanges) : Set IndexId := {id | ∃ r, (id, r) ∈ given}

/-- The keys that lie in all ranges of an index. -/
def keys (given : GivenRanges) (id : IndexId) : Set Key := {k | ∀ r, (id, r) ∈ given → k ∈ r}

theorem indexes_mono (h : given ⊆ given') : given.indexes ⊆ given'.indexes := by
  rintro id ⟨r, hr⟩
  exact ⟨r, h hr⟩

/-- More ranges leave fewer keys. -/
theorem keys_anti (h : given ⊆ given') (id : IndexId) : given'.keys id ⊆ given.keys id :=
  fun _ hk r hr => hk r (h hr)

theorem keys_eq_univ (h : id ∉ given.indexes) : given.keys id = Set.univ :=
  Set.eq_univ_of_forall fun _ r hr => absurd ⟨r, hr⟩ h

theorem mem_indexes_insert :
    j ∈ indexes (insert (id, range) given) ↔ j = id ∨ j ∈ given.indexes := by
  simp only [indexes, Set.mem_ofPred_eq, Set.mem_insert_iff, Prod.mk.injEq, exists_or]
  simp

theorem keys_insert_self (id : IndexId) (range : KeyRange) (given : GivenRanges) :
    keys (insert (id, range) given) id = range.keys ∩ given.keys id := by
  ext k
  simp [keys, or_imp, forall_and]

theorem keys_insert_of_ne (h : j ≠ id) (range : KeyRange) (given : GivenRanges) :
    keys (insert (id, range) given) j = given.keys j := by
  ext k
  simp [keys, h]

end GivenRanges

/-! ### Candidates -/

namespace CandidateRanges

variable {ranges rs : CandidateRanges} {given : GivenRanges} {id : IndexId} {range r : KeyRange}

/-- The ranges that indexes have as candidates. -/
def entries (ranges : CandidateRanges) : GivenRanges :=
  {e | Ascending.find? e.1 ranges = some e.2}

theorem keys_entries_of_find? (h : Ascending.find? id ranges = some r) :
    ranges.entries.keys id = r.keys := by
  ext k
  simp [entries, GivenRanges.keys, h]

theorem keys_entries_of_find?_eq_none (h : Ascending.find? id ranges = none) :
    ranges.entries.keys id = Set.univ := by
  ext k
  simp [entries, GivenRanges.keys, h]

/-- **Narrowing merges a range** with the one that its index has, if it has one. -/
theorem narrow?_eq (ranges : CandidateRanges) (id : IndexId) (range : KeyRange) :
    ∃ merged : KeyRange, merged.keys = range.keys ∩ ranges.entries.keys id ∧
      ranges.narrow? id range =
        if merged.isValid then some (Ascending.put id merged ranges) else none := by
  unfold CandidateRanges.narrow?
  split
  next r hfind =>
    refine ⟨_, ?_, rfl⟩
    rw [keys_entries_of_find? hfind, KeyRange.keys_intersect, Set.inter_comm]
  next hfind =>
    refine ⟨_, ?_, rfl⟩
    rw [keys_entries_of_find?_eq_none hfind, Set.inter_univ]

/-- The candidates are the indexes that are given ranges, in order. Each has the keys that its ranges
share, and there are such keys. -/
structure Gathers (ranges : CandidateRanges) (given : GivenRanges) : Prop where
  ordered : Ascending.IsAscending ranges
  isSome_iff : ∀ id, (Ascending.find? id ranges).isSome ↔ id ∈ given.indexes
  found : ∀ {id r}, Ascending.find? id ranges = some r → r.isValid ∧ r.keys = given.keys id

theorem Gathers.nil : Gathers [] ∅ where
  ordered := .nil
  isSome_iff id := by simp [GivenRanges.indexes]
  found h := by simp at h

theorem Gathers.keys_entries (h : ranges.Gathers given) (id : IndexId) :
    ranges.entries.keys id = given.keys id := by
  cases hfind : Ascending.find? id ranges with
  | some r => rw [keys_entries_of_find? hfind, (h.found hfind).2]
  | none =>
    have hid : id ∉ given.indexes := fun hid => by simpa [hfind] using (h.isSome_iff id).2 hid
    rw [keys_entries_of_find?_eq_none hfind, GivenRanges.keys_eq_univ hid]

theorem Gathers.mem (h : ranges.Gathers given) (hmem : (id, r) ∈ ranges) :
    id ∈ given.indexes ∧ r.isValid ∧ r.keys = given.keys id := by
  have hfind := (Ascending.find?_eq_some_iff h.ordered).2 hmem
  exact ⟨(h.isSome_iff id).1 (by simp [hfind]), h.found hfind⟩

theorem Gathers.exists_mem (h : ranges.Gathers given) (hid : id ∈ given.indexes) :
    ∃ r, (id, r) ∈ ranges := by
  obtain ⟨r, hr⟩ := Option.isSome_iff_exists.1 ((h.isSome_iff id).2 hid)
  exact ⟨r, (Ascending.find?_eq_some_iff h.ordered).1 hr⟩

/-- What narrowing by given ranges results in: candidates that gather them, or none when some index
has no key left. -/
def IsNarrowed (given : GivenRanges) : Option CandidateRanges → Prop
  | some ranges => ranges.Gathers given
  | none => ∃ id ∈ given.indexes, given.keys id = ∅

/-- **Narrowing gathers one more range**, unless it leaves no key. -/
theorem Gathers.narrow? (h : ranges.Gathers given) (id : IndexId) (range : KeyRange) :
    IsNarrowed (insert (id, range) given) (ranges.narrow? id range) := by
  obtain ⟨merged, hmerged, hnarrow⟩ := narrow?_eq ranges id range
  rw [h.keys_entries, ← GivenRanges.keys_insert_self] at hmerged
  rw [hnarrow]
  split
  next hvalid =>
    refine ⟨h.ordered.put, fun j => ?_, fun {j r} hfind => ?_⟩
    · by_cases hj : j = id
      · simp [hj, GivenRanges.mem_indexes_insert]
      · rw [Ascending.find?_put_of_ne hj, h.isSome_iff, GivenRanges.mem_indexes_insert]
        simp [hj]
    · by_cases hj : j = id
      · rw [hj, Ascending.find?_put_self, Option.some.injEq] at hfind
        rw [hj, ← hfind]
        exact ⟨hvalid, hmerged⟩
      · rw [Ascending.find?_put_of_ne hj] at hfind
        rw [GivenRanges.keys_insert_of_ne hj]
        exact h.found hfind
  next hvalid =>
    rw [KeyRange.isValid_iff, hmerged, Set.not_nonempty_iff_eq_empty] at hvalid
    exact ⟨id, GivenRanges.mem_indexes_insert.2 (Or.inl rfl), hvalid⟩

end CandidateRanges

/-! ### Ranges given by predicates -/

/-- An index is of use for a predicate: its column has one, and its relation is a range. -/
def Predicate.isIndexable (p : Predicate) (schema : Schema) : Bool :=
  p.comparison.isRange && (schema.column? p.field).any Column.isIndexed

namespace Predicate

variable {p : Predicate} {schema : Schema} {id id' : IndexId} {range range' : KeyRange}
  {error : PlanError}

/-- The key range that a predicate gives an index. -/
def Gives (p : Predicate) (schema : Schema) (id : IndexId) (range : KeyRange) : Prop :=
  ∃ c, schema.column? p.field = some c ∧ c.indexId? = some id ∧ p.comparison.isRange ∧
    p.keyRange c = .ok range

/-- A predicate has no range, since the schema has no such column or for a reason of the column's. -/
def Fails (p : Predicate) (schema : Schema) (error : PlanError) : Prop :=
  schema.column? p.field = none ∧ error = .unknownField p.field schema.size ∨
    ∃ c, schema.column? p.field = some c ∧ c.isIndexed ∧ p.comparison.isRange ∧
      p.keyRange c = .error error

/-- A predicate is on a column of the schema, and no index is of use for it. -/
def IsIdle (p : Predicate) (schema : Schema) : Prop :=
  (schema.column? p.field).isSome ∧ ¬ p.isIndexable schema

theorem isIndexable_iff :
    p.isIndexable schema ↔
      ∃ c, schema.column? p.field = some c ∧ c.isIndexed ∧ p.comparison.isRange := by
  simp [isIndexable, Option.any_eq_true_iff_get, Option.eq_some_iff_get_eq, and_comm]

/-- A predicate gives at most one range. -/
theorem Gives.unique (h : p.Gives schema id range) (h' : p.Gives schema id' range') :
    id' = id ∧ range' = range := by
  obtain ⟨c, hc, hid, -, hkey⟩ := h
  obtain ⟨c', hc', hid', -, hkey'⟩ := h'
  simp_all

theorem Gives.isIndexable (h : p.Gives schema id range) : p.isIndexable schema := by
  obtain ⟨c, hc, hid, hrange, -⟩ := h
  obtain ⟨state, hstate, -⟩ := Option.map_eq_some_iff.1 hid
  exact isIndexable_iff.2 ⟨c, hc, by simp [Column.isIndexed, hstate], hrange⟩

/-- On a column of the schema only an indexable predicate fails. -/
theorem Fails.isIndexable (h : p.Fails schema error) (hcolumn : (schema.column? p.field).isSome) :
    p.isIndexable schema := by
  rcases h with ⟨hnone, -⟩ | ⟨c, hc, hindexed, hrange, -⟩
  · simp [hnone] at hcolumn
  · exact isIndexable_iff.2 ⟨c, hc, hindexed, hrange⟩

/-- **A predicate fails, gives a range or is idle.** -/
theorem fails_or_gives_or_isIdle (p : Predicate) (schema : Schema) :
    (∃ error, p.Fails schema error) ∨ (∃ id range, p.Gives schema id range) ∨ p.IsIdle schema := by
  cases hc : schema.column? p.field with
  | none => exact Or.inl ⟨_, Or.inl ⟨hc, rfl⟩⟩
  | some c =>
    by_cases hindexable : p.isIndexable schema
    · obtain ⟨c', hc', hindexed, hrange⟩ := isIndexable_iff.1 hindexable
      obtain rfl := Option.mem_unique hc hc'
      obtain ⟨state, hstate⟩ := Option.isSome_iff_exists.1 hindexed
      cases hkey : p.keyRange c with
      | error error => exact Or.inl ⟨error, Or.inr ⟨c, hc, hindexed, hrange, hkey⟩⟩
      | ok range =>
        exact Or.inr (Or.inl ⟨state.id, range, c, hc, by simp [Column.indexId?, hstate], hrange,
          hkey⟩)
    · exact Or.inr (Or.inr ⟨by simp [hc], hindexable⟩)

end Predicate

namespace Minterm

variable {schema : Schema} {m ps : Minterm} {p : Predicate} {ranges rs : CandidateRanges}
  {earlier : GivenRanges} {id : IndexId} {range : KeyRange} {error : PlanError}

/-- The ranges that the predicates of a minterm give. -/
def given (m : Minterm) (schema : Schema) : GivenRanges := {e | ∃ p ∈ m, p.Gives schema e.1 e.2}

theorem given_nil (schema : Schema) : given [] schema = ∅ := by simp [given]

theorem given_cons_of_gives (h : p.Gives schema id range) :
    given (p :: ps) schema = insert (id, range) (given ps schema) := by
  ext ⟨id', range'⟩
  simp only [given, Set.mem_ofPred_eq, List.exists_mem_cons_iff, Set.mem_insert_iff, Prod.mk.injEq]
  refine or_congr_left ⟨fun h' => h.unique h', ?_⟩
  rintro ⟨rfl, rfl⟩
  exact h

theorem given_cons_of_isIdle (h : p.IsIdle schema) :
    given (p :: ps) schema = given ps schema := by
  have hnot : ∀ id range, ¬ p.Gives schema id range := fun _ _ hgives => h.2 hgives.isIndexable
  ext ⟨id, range⟩
  simp [given, hnot]

/-! ### Steps through a minterm -/

theorem candidates_cons_of_fails (h : p.Fails schema error) :
    candidates schema (p :: ps) ranges = .error error := by
  rcases h with ⟨hnone, rfl⟩ | ⟨c, hc, hindexed, hrange, hkey⟩
  · simp [candidates, hnone]
  · obtain ⟨state, hstate⟩ := Option.isSome_iff_exists.1 hindexed
    simp [candidates, hc, Column.indexId?, hstate, hrange, hkey]

theorem candidates_cons_of_gives (h : p.Gives schema id range) :
    candidates schema (p :: ps) ranges =
      match ranges.narrow? id range with
      | none => .ok none
      | some rs => candidates schema ps rs := by
  obtain ⟨c, hc, hid, hrange, hkey⟩ := h
  cases hnarrow : ranges.narrow? id range <;>
    simp only [candidates, hc, hid, hrange, hkey, hnarrow]

theorem candidates_cons_of_isIdle (h : p.IsIdle schema) :
    candidates schema (p :: ps) ranges = candidates schema ps ranges := by
  obtain ⟨hsome, hidle⟩ := h
  obtain ⟨c, hc⟩ := Option.isSome_iff_exists.1 hsome
  rw [Predicate.isIndexable_iff] at hidle
  rw [candidates]
  simp only [hc]
  split
  next id hid hrange =>
    obtain ⟨state, hstate, -⟩ := Option.map_eq_some_iff.1 hid
    exact absurd ⟨c, hc, by simp [Column.isIndexed, hstate], hrange⟩ hidle
  · rfl

/-- **The predicates of a minterm narrow** the candidates by what they give, one after the other. -/
theorem isNarrowed_candidates {result : Option CandidateRanges} (hranges : ranges.Gathers earlier)
    (h : candidates schema m ranges = .ok result) :
    CandidateRanges.IsNarrowed (earlier ∪ m.given schema) result := by
  induction m generalizing ranges earlier with
  | nil =>
    rw [candidates, Except.ok.injEq] at h
    rw [given_nil, Set.union_empty, ← h]
    exact hranges
  | cons p ps ih =>
    rcases p.fails_or_gives_or_isIdle schema with ⟨error, hfails⟩ | ⟨id, range, hgives⟩ | hidle
    · simp [candidates_cons_of_fails hfails] at h
    · -- The range of the predicate comes on top of the earlier ones.
      have hnarrow := hranges.narrow? id range
      rw [candidates_cons_of_gives hgives] at h
      rw [given_cons_of_gives hgives, Set.union_insert, ← Set.insert_union]
      split at h
      next hnone =>
        rw [hnone] at hnarrow
        obtain ⟨id', hid', hempty⟩ := hnarrow
        rw [← Except.ok.inj h]
        exact ⟨id', GivenRanges.indexes_mono Set.subset_union_left hid',
          Set.subset_eq_empty (GivenRanges.keys_anti Set.subset_union_left id') hempty⟩
      next rs hsome =>
        rw [hsome] at hnarrow
        exact ih hnarrow h
    · rw [candidates_cons_of_isIdle hidle] at h
      rw [given_cons_of_isIdle hidle]
      exact ih hranges h

/-- No predicate fails when there are candidates. -/
theorem not_fails_of_candidates (h : candidates schema m ranges = .ok (some rs)) :
    ∀ p ∈ m, ∀ error, ¬ p.Fails schema error := by
  induction m generalizing ranges with
  | nil => simp
  | cons p ps ih =>
    have hp : ∀ error, ¬ p.Fails schema error := by
      intro error hfails
      simp [candidates_cons_of_fails hfails] at h
    refine List.forall_mem_cons.2 ⟨hp, ?_⟩
    rcases p.fails_or_gives_or_isIdle schema with ⟨error, hfails⟩ | ⟨id, range, hgives⟩ | hidle
    · exact absurd hfails (hp error)
    · rw [candidates_cons_of_gives hgives] at h
      split at h
      · simp at h
      · exact ih h
    · rw [candidates_cons_of_isIdle hidle] at h
      exact ih h

/-- **An error of the candidates** is that of a predicate. -/
theorem candidates_eq_error (h : candidates schema m ranges = .error error) :
    ∃ p ∈ m, p.Fails schema error := by
  induction m generalizing ranges with
  | nil => simp [candidates] at h
  | cons p ps ih =>
    rw [List.exists_mem_cons_iff]
    rcases p.fails_or_gives_or_isIdle schema with ⟨error', hfails⟩ | ⟨id, range, hgives⟩ | hidle
    · rw [candidates_cons_of_fails hfails, Except.error.injEq] at h
      exact Or.inl (h ▸ hfails)
    · rw [candidates_cons_of_gives hgives] at h
      split at h
      · simp at h
      · exact Or.inr (ih h)
    · rw [candidates_cons_of_isIdle hidle] at h
      exact Or.inr (ih h)

end Minterm

end BucketPlanner
