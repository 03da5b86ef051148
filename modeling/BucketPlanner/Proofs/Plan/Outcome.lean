import BucketPlanner.Proofs.Plan.Choice

/-!
# What the outcome of a minterm depends on

The outcome is a matter of the ranges that the predicates of a minterm give, and of the costs of the
indexes:

* `Minterm.outcome_of_translates`: the outcome of a minterm all of whose predicates have ranges, in
  terms of the keys that the ranges of an index share;
* `Minterm.outcome_congr`: minterms with the same indexable predicates have the same outcome, up to
  errors behind a contradiction;
* `Minterm.outcome_eq_noIndex_iff`: a minterm is without an index when no predicate is indexable.
-/

namespace BucketPlanner

namespace Minterm

variable {schema : Schema} {costs : IndexCosts} {m n : Minterm} {p : Predicate}
  {o : MintermOutcome} {id : IndexId} {range : KeyRange}

/-- The predicates that an index is of use for. -/
def indexable (m : Minterm) (schema : Schema) : List Predicate := m.filter (·.isIndexable schema)

/-- Every predicate is on a column of the schema, and has a range if an index is of use for it. -/
def Translates (m : Minterm) (schema : Schema) : Prop :=
  ∀ p ∈ m, ∃ c ∈ schema.column? p.field, p.isIndexable schema → (p.keyRange c).isOk

instance (m : Minterm) (schema : Schema) : Decidable (m.Translates schema) :=
  inferInstanceAs (Decidable (∀ p ∈ m, ∃ c ∈ schema.column? p.field, _ → _))

theorem mem_indexable : p ∈ m.indexable schema ↔ p ∈ m ∧ p.isIndexable schema := List.mem_filter

theorem Translates.not_fails (hm : m.Translates schema) :
    ∀ p ∈ m, ∀ error, ¬ p.Fails schema error := by
  intro p hp error hfails
  obtain ⟨c, hc, hrange⟩ := hm p hp
  have hok := hrange (hfails.isIndexable (Option.isSome_of_mem hc))
  rcases hfails with ⟨hnone, -⟩ | ⟨c', hc', -, -, hkey⟩
  · simp [hnone] at hc
  · obtain rfl := Option.mem_unique hc hc'
    simp [hkey, Except.isOk, Except.toBool] at hok

/-! ### The outcome from the given ranges -/

/-- **The outcome of a minterm**, all of whose predicates have ranges. The minterm is unsatisfiable
when the ranges of some index share no key, and without an index when no index is given a range. It is
an error that an index is not there. Otherwise the outcome is the cheapest index, with the range of
the keys that its ranges share. -/
theorem outcome_of_translates (costs : IndexCosts) (hm : m.Translates schema) :
    let indexes := (m.given schema).indexes
    let keys := (m.given schema).keys
    (outcome schema costs m = .ok .unsatisfiable ↔ ∃ i ∈ indexes, keys i = ∅) ∧
    (outcome schema costs m = .ok .noIndex ↔ indexes = ∅) ∧
    ((∃ error, outcome schema costs m = .error error ∧
        error.code = "TIDE_PLAN_INVARIANT_VIOLATION") ↔
      (∀ i ∈ indexes, (keys i).Nonempty) ∧ ∃ i ∈ indexes, costs i = none) ∧
    (indexes.Nonempty → (∀ i ∈ indexes, (keys i).Nonempty ∧ (costs i).isSome) →
      ∃ i r, outcome schema costs m = .ok (.indexRange i r) ∧
        (m.given schema).IsCheapest costs i r) := by
  have hsettles : (m.given schema).Settles costs (outcome schema costs m) :=
    settles_of_not_fails hm.not_fails
  exact ⟨hsettles.eq_unsatisfiable_iff, hsettles.eq_noIndex_iff, hsettles.eq_error_iff,
    hsettles.exists_cheapest⟩

/-- Two columns with indexes of equal costs. -/
theorem outcome_of_translates_tie :
    let column (position : UInt32) (name : String) : Column :=
      { position := position.toNat, offset := 8 * position.toUInt64, name, type := .ulong,
        min := DataType.ulong.least, max := DataType.ulong.greatest,
        index := some ⟨⟨position⟩, .ofNat 10⟩ }
    let schema : Schema := ⟨[column 0 "TIMESTAMP", column 1 "SIZE"], 16⟩
    let costs : IndexCosts := fun _ => some fun _ => 3
    let m : Minterm := [⟨1, .ge, .uint 20⟩, ⟨0, .ge, .uint 20⟩, ⟨0, .lt, .uint 50⟩]
    let range : KeyRange := ⟨.clamp 2, .clamp 4⟩
    m.Translates schema ∧ outcome schema costs m = .ok (.indexRange ⟨0⟩ range) ∧
      (m.given schema).IsCheapest costs ⟨0⟩ range := by
  intro column schema costs m range
  have hm : m.Translates schema := by decide +kernel
  have hchosen : (outcome schema costs m).toOption.any (· == .indexRange ⟨0⟩ range) := by
    decide +kernel
  obtain ⟨o, ho, hchosen⟩ := exists_ok_of_any hchosen
  obtain rfl := beq_iff_eq.1 hchosen
  obtain ⟨hunsatisfiable, hnoIndex, -, hcheapest⟩ := outcome_of_translates costs hm
  rw [ho] at hunsatisfiable hnoIndex hcheapest
  have hkeys : ∀ i ∈ (m.given schema).indexes, ((m.given schema).keys i).Nonempty := by
    intro i hi
    by_contra hempty
    simpa using hunsatisfiable.2 ⟨i, hi, Set.not_nonempty_iff_eq_empty.1 hempty⟩
  have hindexes : (m.given schema).indexes.Nonempty := by
    by_contra hnone
    simpa using hnoIndex.2 (Set.not_nonempty_iff_eq_empty.1 hnone)
  obtain ⟨i, r, hchosen, hleast⟩ := hcheapest hindexes fun i hi => ⟨hkeys i hi, rfl⟩
  rw [Except.ok.injEq, MintermOutcome.indexRange.injEq] at hchosen
  obtain ⟨rfl, rfl⟩ := hchosen
  exact ⟨hm, ho, hleast⟩

/-! ### Minterms with the same indexable predicates -/

theorem given_subset_of_indexable (h : ∀ p ∈ m.indexable schema, p ∈ n.indexable schema) :
    m.given schema ⊆ n.given schema := by
  rintro e ⟨p, hp, hgives⟩
  exact ⟨p, (mem_indexable.1 (h p (mem_indexable.2 ⟨hp, hgives.isIndexable⟩))).1, hgives⟩

/-- An outcome other than a contradiction is that of every minterm with the same indexable
predicates. -/
theorem outcome_eq_of_indexable (hn : ∀ p ∈ n, (schema.column? p.field).isSome)
    (h : ∀ p, p ∈ m.indexable schema ↔ p ∈ n.indexable schema)
    (ho : outcome schema costs m = .ok o) (hne : o ≠ .unsatisfiable) :
    outcome schema costs n = .ok o := by
  obtain ⟨hsettles, hm⟩ := settles_of_outcome ho
  have hgiven : m.given schema = n.given schema :=
    Set.Subset.antisymm (given_subset_of_indexable fun p => (h p).1)
      (given_subset_of_indexable fun p => (h p).2)
  have hfails : ∀ p ∈ n, ∀ error, ¬ p.Fails schema error := by
    intro p hp error hfails
    -- A predicate that fails is indexable, so it is in the other minterm as well.
    have hindexable := mem_indexable.2 ⟨hp, hfails.isIndexable (hn p hp)⟩
    exact hm.resolve_left hne p (mem_indexable.1 ((h p).2 hindexable)).1 error hfails
  exact (settles_of_not_fails hfails).eq_of_ok (hgiven ▸ hsettles)

/-- **The outcome depends on the indexable predicates only**, and neither on their order nor on their
number. A contradiction may hide an error in one of two minterms and not in the other. -/
theorem outcome_congr (costs : IndexCosts) (hm : ∀ p ∈ m, (schema.column? p.field).isSome)
    (hn : ∀ p ∈ n, (schema.column? p.field).isSome)
    (h : ∀ p, p ∈ m.indexable schema ↔ p ∈ n.indexable schema) :
    match outcome schema costs m, outcome schema costs n with
    | .ok o, .ok o' => o = o'
    | .ok o, .error _ | .error _, .ok o => o = .unsatisfiable
    | .error _, .error _ => True := by
  cases hmo : outcome schema costs m with
  | ok o =>
    by_cases hsat : o = .unsatisfiable
    · cases hno : outcome schema costs n with
      | error error => exact hsat
      | ok o' =>
        by_contra hne
        have hsat' : o' ≠ .unsatisfiable := fun h' => hne (hsat.trans h'.symm)
        have hmo' := outcome_eq_of_indexable hm (fun p => (h p).symm) hno hsat'
        exact hne (Except.ok.inj (hmo.symm.trans hmo'))
    · rw [outcome_eq_of_indexable hn h hmo hsat]
  | error error =>
    cases hno : outcome schema costs n with
    | error error' => trivial
    | ok o =>
      by_contra hsat
      have hmo' := outcome_eq_of_indexable hm (fun p => (h p).symm) hno hsat
      simp [hmo] at hmo'

/-- A time stamp with an index: two comparisons that contradict each other hide one with a text, but
only when they come first. -/
theorem outcome_congr_contradiction :
    let column : Column :=
      { position := 0, offset := 0, name := "TIMESTAMP", type := .ulong,
        min := DataType.ulong.least, max := DataType.ulong.greatest,
        index := some ⟨⟨0⟩, .ofNat 10⟩ }
    let schema : Schema := ⟨[column], 8⟩
    let costs : IndexCosts := fun _ => some fun _ => 0
    let low : Predicate := ⟨0, .lt, .uint 30⟩
    let high : Predicate := ⟨0, .gt, .uint 50⟩
    let text : Predicate := ⟨0, .eq, .text "x"⟩
    let m : Minterm := [low, ⟨0, .neq, .uint 7⟩, high, text]
    let n : Minterm := [text, high, high, low]
    (∀ p ∈ m, (schema.column? p.field).isSome) ∧ (∀ p ∈ n, (schema.column? p.field).isSome) ∧
      (∀ p, p ∈ m.indexable schema ↔ p ∈ n.indexable schema) ∧
      ¬ (outcome schema costs n).isOk ∧ outcome schema costs m = .ok .unsatisfiable := by
  intro column schema costs low high text m n
  have hm : ∀ p ∈ m, (schema.column? p.field).isSome := by decide +kernel
  have hn : ∀ p ∈ n, (schema.column? p.field).isSome := by decide +kernel
  have hindexable : ∀ p, p ∈ m.indexable schema ↔ p ∈ n.indexable schema := by
    have hm' : m.indexable schema = [low, high, text] := by decide +kernel
    have hn' : n.indexable schema = [text, high, high, low] := by decide +kernel
    intro p
    simp only [hm', hn', List.mem_cons, List.not_mem_nil]
    tauto
  have hok : (outcome schema costs m).isOk := by decide +kernel
  have herror : ¬ (outcome schema costs n).isOk := by decide +kernel
  refine ⟨hm, hn, hindexable, herror, ?_⟩
  have hcongr := outcome_congr costs hm hn hindexable
  cases hmo : outcome schema costs m with
  | error error => simp [hmo, Except.isOk, Except.toBool] at hok
  | ok o =>
    cases hno : outcome schema costs n with
    | ok o' => simp [hno, Except.isOk, Except.toBool] at herror
    | error error =>
      rw [hmo, hno] at hcongr
      rw [hcongr]

/-! ### Minterms with an outcome -/

/-- A minterm with an outcome is unsatisfiable exactly when the ranges of some index share no key. -/
theorem outcome_eq_unsatisfiable_iff (h : outcome schema costs m = .ok o) :
    o = .unsatisfiable ↔ ∃ i ∈ (m.given schema).indexes, (m.given schema).keys i = ∅ := by
  rw [← (settles_of_outcome h).1.eq_unsatisfiable_iff, Except.ok.injEq]

/-- **A minterm is without an index** exactly when an index is of use for none of its predicates. -/
theorem outcome_eq_noIndex_iff (h : outcome schema costs m = .ok o) :
    o = .noIndex ↔ ∀ p ∈ m, ¬ p.isIndexable schema := by
  obtain ⟨hsettles, hfails⟩ := settles_of_outcome h
  have hindexes := hsettles.eq_noIndex_iff
  rw [Except.ok.injEq] at hindexes
  constructor
  · rintro rfl p hp hindexable
    rcases p.fails_or_gives_or_isIdle schema with ⟨error, hfail⟩ | ⟨id, range, hgives⟩ | hidle
    · exact hfails.resolve_left (by simp) p hp error hfail
    · have hid := mem_indexes_given.2 ⟨p, hp, range, hgives⟩
      simp [hindexes.1 rfl] at hid
    · exact hidle.2 hindexable
  · intro hidle
    refine hindexes.2 (Set.eq_empty_of_forall_notMem fun id hid => ?_)
    obtain ⟨p, hp, range, hgives⟩ := mem_indexes_given.1 hid
    exact hidle p hp hgives.isIndexable

/-- The range of an index that is chosen holds a key, and the index is there. -/
theorem isValid_of_outcome (h : outcome schema costs m = .ok (.indexRange id range)) :
    range.isValid ∧ (costs id).isSome ∧ ∃ p ∈ m, ∃ r, p.Gives schema id r := by
  cases (settles_of_outcome h).1 with
  | indexRange hkeys hcosts hcheapest =>
    have hmem := hcheapest.mem
    refine ⟨?_, hcosts id hmem, mem_indexes_given.1 hmem⟩
    rw [KeyRange.isValid_iff, hcheapest.keys]
    exact hkeys id hmem

end Minterm

end BucketPlanner
