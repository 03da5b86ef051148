import BucketPlanner.Proofs.Plan.Narrowing
import Mathlib.Data.Prod.Lex

/-!
# What is known of the index chosen for a minterm

The ranges that the predicates of a minterm give, and the costs of the indexes, settle what becomes of
the minterm (`GivenRanges.Settles`), as long as no predicate fails:

* `CandidateRanges.cheapest_le`: going through the candidates finds the least cost, at the first
  index that has it;
* `Minterm.settles_of_candidates`: the outcome is the settled one;
* `GivenRanges.Settles.eq_of_ok`: no other is, so that `GivenRanges.Settles.eq_unsatisfiable_iff`,
  `eq_noIndex_iff`, `eq_error_iff` and `exists_cheapest` say which one it is;
* `Minterm.outcome_of_keys`: the index chosen for a minterm has the key of a record in its range when
  the ranges of all predicates have it;
* `Minterm.outcome_eq_error`: when there is no outcome, a predicate is the reason.
-/

namespace BucketPlanner

/-! ### The cheapest candidate -/

namespace CandidateRanges

variable {cost : IndexId → KeyRange → Except PlanError Nat} {best found : IndexId × KeyRange}
  {bestCost : Nat} {rest : CandidateRanges}

theorem mem_of_cheapest (h : cheapest cost best bestCost rest = .ok found) :
    found ∈ best :: rest := by
  induction rest generalizing best bestCost with
  | nil =>
    rw [cheapest, Except.ok.injEq] at h
    simp [h]
  | cons next rest ih =>
    unfold cheapest at h
    split at h
    · simp at h
    · split at h
      · exact List.mem_cons_of_mem _ (ih h)
      · rcases List.mem_cons.1 (ih h) with rfl | hmem
        · exact List.mem_cons_self
        · exact List.mem_cons_of_mem _ (List.mem_cons_of_mem _ hmem)

/-- An error is that of a cost. -/
theorem cheapest_eq_error {error : PlanError}
    (h : cheapest cost best bestCost rest = .error error) :
    ∃ e ∈ rest, cost e.1 e.2 = .error error := by
  induction rest generalizing best bestCost with
  | nil => simp [cheapest] at h
  | cons next rest ih =>
    rw [List.exists_mem_cons_iff]
    unfold cheapest at h
    split at h
    next e hcost =>
      rw [Except.error.injEq] at h
      exact Or.inl (h ▸ hcost)
    · split at h
      · exact Or.inr (ih h)
      · exact Or.inr (ih h)

/-- **The cheapest candidate** has the least cost of all, and the smallest place of those that have
this cost. -/
theorem cheapest_le (hordered : Ascending.IsAscending (best :: rest))
    (hbest : cost best.1 best.2 = .ok bestCost)
    (h : cheapest cost best bestCost rest = .ok found) :
    ∃ n, cost found.1 found.2 = .ok n ∧ ∀ e ∈ best :: rest, ∃ c, cost e.1 e.2 = .ok c ∧
      toLex (n, found.1.position) ≤ toLex (c, e.1.position) := by
  induction rest generalizing best bestCost with
  | nil =>
    rw [cheapest, Except.ok.injEq] at h
    subst h
    exact ⟨bestCost, hbest, by simp [hbest]⟩
  | cons next rest ih =>
    obtain ⟨hfirst, hrest⟩ := List.pairwise_cons.1 hordered
    unfold cheapest at h
    split at h
    · simp at h
    next c hnext =>
      split at h
      next hlt =>
        obtain ⟨n, hn, hle⟩ := ih hrest hnext h
        refine ⟨n, hn, List.forall_mem_cons.2 ⟨⟨bestCost, hbest, ?_⟩, hle⟩⟩
        -- The next candidate beats the best one so far.
        obtain ⟨c', hc', hle'⟩ := hle next List.mem_cons_self
        obtain rfl : c = c' := Except.ok.inj (hnext.symm.trans hc')
        exact hle'.trans (Prod.Lex.toLex_le_toLex.2 (Or.inl hlt))
      next hge =>
        have hordered' : Ascending.IsAscending (best :: rest) :=
          List.pairwise_cons.2 ⟨fun e he => hfirst e (List.mem_cons_of_mem _ he),
            (List.pairwise_cons.1 hrest).2⟩
        obtain ⟨n, hn, hle⟩ := ih hordered' hbest h
        obtain ⟨hbest', hrest'⟩ := List.forall_mem_cons.1 hle
        refine ⟨n, hn, List.forall_mem_cons.2
          ⟨hbest', List.forall_mem_cons.2 ⟨⟨c, hnext, ?_⟩, hrest'⟩⟩⟩
        -- The best one so far is no dearer than the next candidate, and comes before it.
        obtain ⟨c', hc', hle'⟩ := hbest'
        obtain rfl : bestCost = c' := Except.ok.inj (hbest.symm.trans hc')
        refine hle'.trans (Prod.Lex.toLex_le_toLex'.2 ⟨Nat.le_of_not_lt hge, fun _ => ?_⟩)
        exact Nat.le_of_lt (Nat.compare_eq_lt.1 (hfirst next List.mem_cons_self))

end CandidateRanges

/-! ### What settles a minterm -/

namespace GivenRanges

variable {given : GivenRanges} {costs : IndexCosts} {i j : IndexId} {r s : KeyRange}
  {result : Except PlanError MintermOutcome} {o : MintermOutcome}

/-- An index is cheapest with a range: the range has the keys that the ranges of the index share, and
the number of entries in it, with the place of the index, is lexicographically least among all
indexes that are given ranges. -/
structure IsCheapest (given : GivenRanges) (costs : IndexCosts) (i : IndexId) (r : KeyRange) :
    Prop where
  mem : i ∈ given.indexes
  keys : r.keys = given.keys i
  least : ∃ cost ∈ costs i, ∀ j ∈ given.indexes, ∃ s : KeyRange, s.keys = given.keys j ∧
    ∃ cost' ∈ costs j, toLex (cost r, i.position) ≤ toLex (cost' s, j.position)

/-- What given ranges and the costs of the indexes make of a minterm. -/
inductive Settles (given : GivenRanges) (costs : IndexCosts) : Except PlanError MintermOutcome → Prop
  /-- The ranges of an index share no key. -/
  | unsatisfiable {i : IndexId} (hi : i ∈ given.indexes) (hempty : given.keys i = ∅) :
      Settles given costs (.ok .unsatisfiable)
  /-- No index is given a range. -/
  | noIndex (hnone : given.indexes = ∅) : Settles given costs (.ok .noIndex)
  /-- An index that is given a range is not there. -/
  | missing {i : IndexId} {column : String}
      (hkeys : ∀ j ∈ given.indexes, (given.keys j).Nonempty) (hi : i ∈ given.indexes)
      (hnone : costs i = none) : Settles given costs (.error (.missingIndex i column))
  /-- An index is cheapest. -/
  | indexRange {i : IndexId} {r : KeyRange}
      (hkeys : ∀ j ∈ given.indexes, (given.keys j).Nonempty)
      (hcosts : ∀ j ∈ given.indexes, (costs j).isSome) (hcheapest : given.IsCheapest costs i r) :
      Settles given costs (.ok (.indexRange i r))

theorem eq_of_keys_eq (hkeys : (given.keys i).Nonempty) (hr : r.keys = given.keys i)
    (hs : s.keys = given.keys i) : r = s :=
  KeyRange.eq_of_keys_eq (KeyRange.isValid_iff.2 (hr ▸ hkeys)) (hr.trans hs.symm)

/-- Two cheapest indexes are one, with one range. -/
theorem IsCheapest.unique (hkeys : ∀ j ∈ given.indexes, (given.keys j).Nonempty)
    (hi : given.IsCheapest costs i r) (hj : given.IsCheapest costs j s) : i = j ∧ r = s := by
  obtain ⟨cost, hcost, hleast⟩ := hi.least
  obtain ⟨cost', hcost', hleast'⟩ := hj.least
  obtain ⟨s', hs', c, hc, hle⟩ := hleast j hj.mem
  obtain ⟨r', hr', c', hc', hle'⟩ := hleast' i hi.mem
  obtain rfl := eq_of_keys_eq (hkeys j hj.mem) hs' hj.keys
  obtain rfl := eq_of_keys_eq (hkeys i hi.mem) hr' hi.keys
  obtain rfl := Option.mem_unique hc hcost'
  obtain rfl := Option.mem_unique hc' hcost
  have hposition : i.position = j.position :=
    congrArg (fun rank => (ofLex rank).2) (le_antisymm hle hle')
  obtain rfl := IndexId.eq_of_position hposition
  exact ⟨rfl, eq_of_keys_eq (hkeys i hi.mem) hi.keys hj.keys⟩

/-- **What is settled is settled once.** -/
theorem Settles.eq_of_ok (h : given.Settles costs result) (ho : given.Settles costs (.ok o)) :
    result = .ok o := by
  have hnot : ∀ {i}, i ∈ given.indexes → given.keys i = ∅ →
      ¬ ∀ j ∈ given.indexes, (given.keys j).Nonempty :=
    fun hi hempty hkeys => (hkeys _ hi).ne_empty hempty
  cases ho with
  | unsatisfiable hi hempty =>
    cases h with
    | unsatisfiable => rfl
    | noIndex hnone => simp [hnone] at hi
    | missing hkeys | indexRange hkeys => exact absurd hkeys (hnot hi hempty)
  | noIndex hnone =>
    cases h with
    | noIndex => rfl
    | unsatisfiable hi | missing _ hi => simp [hnone] at hi
    | indexRange _ _ hcheapest => simpa [hnone] using hcheapest.mem
  | indexRange hkeys hcosts hcheapest =>
    cases h with
    | unsatisfiable hi hempty => exact absurd hkeys (hnot hi hempty)
    | noIndex hnone => simpa [hnone] using hcheapest.mem
    | missing _ hi hnone => simpa [hnone] using hcosts _ hi
    | indexRange _ _ hcheapest' =>
      obtain ⟨rfl, rfl⟩ := hcheapest'.unique hkeys hcheapest
      rfl

theorem Settles.eq_unsatisfiable_iff (h : given.Settles costs result) :
    result = .ok .unsatisfiable ↔ ∃ i ∈ given.indexes, given.keys i = ∅ := by
  constructor
  · rintro rfl
    cases h with
    | unsatisfiable hi hempty => exact ⟨_, hi, hempty⟩
  · rintro ⟨i, hi, hempty⟩
    exact h.eq_of_ok (.unsatisfiable hi hempty)

theorem Settles.eq_noIndex_iff (h : given.Settles costs result) :
    result = .ok .noIndex ↔ given.indexes = ∅ := by
  constructor
  · rintro rfl
    cases h with
    | noIndex hnone => exact hnone
  · intro hnone
    exact h.eq_of_ok (.noIndex hnone)

/-- The only error is that an index is not there. -/
theorem Settles.eq_error_iff (h : given.Settles costs result) :
    (∃ error, result = .error error ∧ error.code = "TIDE_PLAN_INVARIANT_VIOLATION") ↔
      (∀ i ∈ given.indexes, (given.keys i).Nonempty) ∧ ∃ i ∈ given.indexes, costs i = none := by
  constructor
  · rintro ⟨error, rfl, -⟩
    cases h with
    | missing hkeys hi hnone => exact ⟨hkeys, _, hi, hnone⟩
  · rintro ⟨hkeys, i, hi, hnone⟩
    cases h with
    | missing => exact ⟨_, rfl, rfl⟩
    | unsatisfiable hj hempty => exact absurd hempty (hkeys _ hj).ne_empty
    | noIndex hindexes => exact absurd hindexes (Set.nonempty_of_mem hi).ne_empty
    | indexRange _ hcosts => simpa [hnone] using hcosts i hi

theorem Settles.exists_cheapest (h : given.Settles costs result) (hindexes : given.indexes.Nonempty)
    (hall : ∀ i ∈ given.indexes, (given.keys i).Nonempty ∧ (costs i).isSome) :
    ∃ i r, result = .ok (.indexRange i r) ∧ given.IsCheapest costs i r := by
  cases h with
  | indexRange _ _ hcheapest => exact ⟨_, _, rfl, hcheapest⟩
  | unsatisfiable hi hempty => exact absurd hempty (hall _ hi).1.ne_empty
  | noIndex hnone => exact absurd hnone hindexes.ne_empty
  | missing _ hi hnone => simpa [hnone] using (hall _ hi).2

end GivenRanges

/-! ### Outcomes of minterms -/

namespace Minterm

variable {schema : Schema} {costs : IndexCosts} {m : Minterm} {id : IndexId} {range : KeyRange}
  {given : GivenRanges} {rs : CandidateRanges} {o : MintermOutcome} {error : PlanError} {n : Nat}

theorem costOf_eq_ok : costOf schema costs id range = .ok n ↔ ∃ cost ∈ costs id, cost range = n := by
  unfold costOf
  cases costs id <;> simp

theorem costOf_eq_error (h : costOf schema costs id range = .error error) :
    costs id = none ∧ ∃ column, error = .missingIndex id column := by
  unfold costOf at h
  split at h
  · simp at h
  next hnone =>
    rw [Except.error.injEq] at h
    exact ⟨hnone, _, h.symm⟩

/-- The outcome that gathered candidates lead to. -/
theorem settles_of_gathers (hrs : rs.Gathers given) (h : candidates schema m [] = .ok (some rs)) :
    given.Settles costs (outcome schema costs m) := by
  have hkeys : ∀ j ∈ given.indexes, (given.keys j).Nonempty := by
    intro j hj
    obtain ⟨r, hr⟩ := hrs.exists_mem hj
    obtain ⟨-, hvalid, hr⟩ := hrs.mem hr
    rwa [← hr, ← KeyRange.isValid_iff]
  unfold outcome
  rw [h]
  cases rs with
  | nil =>
    refine .noIndex (Set.eq_empty_of_forall_notMem fun j hj => ?_)
    obtain ⟨r, hr⟩ := hrs.exists_mem hj
    simp at hr
  | cons first rest =>
    obtain ⟨id, range⟩ := first
    have hmissing : ∀ {e : IndexId × KeyRange} {error}, e ∈ (id, range) :: rest →
        costOf schema costs e.1 e.2 = .error error → given.Settles costs (.error error) := by
      intro e error he hcost
      obtain ⟨hnone, column, rfl⟩ := costOf_eq_error hcost
      exact .missing hkeys (hrs.mem he).1 hnone
    cases hfirst : costOf schema costs id range with
    | error error =>
      simp only [hfirst]
      exact hmissing List.mem_cons_self hfirst
    | ok c =>
      cases hcheap : CandidateRanges.cheapest (costOf schema costs) (id, range) c rest with
      | error error =>
        simp only [hfirst, hcheap, Except.map]
        obtain ⟨e, he, hcost⟩ := CandidateRanges.cheapest_eq_error hcheap
        exact hmissing (List.mem_cons_of_mem _ he) hcost
      | ok found =>
        simp only [hfirst, hcheap, Except.map]
        obtain ⟨n, hn, hle⟩ := CandidateRanges.cheapest_le hrs.ordered hfirst hcheap
        obtain ⟨hmem, -, hfound⟩ := hrs.mem (CandidateRanges.mem_of_cheapest hcheap)
        obtain ⟨cost, hcost, rfl⟩ := costOf_eq_ok.1 hn
        -- Every index that is given ranges is among the candidates, and has a cost.
        have hcosts : ∀ j ∈ given.indexes, ∃ s : KeyRange, s.keys = given.keys j ∧
            ∃ cost' ∈ costs j,
              toLex (cost found.2, found.1.position) ≤ toLex (cost' s, j.position) := by
          intro j hj
          obtain ⟨s, hs⟩ := hrs.exists_mem hj
          obtain ⟨c', hc', hle'⟩ := hle _ hs
          obtain ⟨cost', hcost', rfl⟩ := costOf_eq_ok.1 hc'
          exact ⟨s, (hrs.mem hs).2.2, cost', hcost', hle'⟩
        refine .indexRange hkeys (fun j hj => ?_) ⟨hmem, hfound, cost, hcost, hcosts⟩
        obtain ⟨s, -, cost', hcost', -⟩ := hcosts j hj
        exact Option.isSome_iff_exists.2 ⟨cost', hcost'⟩

/-- **The outcome is the settled one**, whenever there are candidates or a reason for none. -/
theorem settles_of_candidates {result : Option CandidateRanges}
    (h : candidates schema m [] = .ok result) :
    (m.given schema).Settles costs (outcome schema costs m) := by
  have hnarrow := isNarrowed_candidates .nil h
  rw [Set.empty_union] at hnarrow
  cases result with
  | none =>
    obtain ⟨i, hi, hempty⟩ := hnarrow
    unfold outcome
    rw [h]
    exact .unsatisfiable hi hempty
  | some rs => exact settles_of_gathers hnarrow h

/-- An outcome is settled, and is found after all predicates unless some index has no key left. -/
theorem settles_of_outcome (h : outcome schema costs m = .ok o) :
    (m.given schema).Settles costs (.ok o) ∧
      (o = .unsatisfiable ∨ ∀ p ∈ m, ∀ error, ¬ p.Fails schema error) := by
  cases hcandidates : candidates schema m [] with
  | error error => simp [outcome, hcandidates] at h
  | ok result =>
    refine ⟨h ▸ settles_of_candidates hcandidates, ?_⟩
    cases result with
    | none =>
      rw [outcome, hcandidates, Except.ok.injEq] at h
      exact Or.inl h.symm
    | some rs => exact Or.inr (not_fails_of_candidates hcandidates)

/-- The outcome is settled when no predicate fails. -/
theorem settles_of_not_fails (h : ∀ p ∈ m, ∀ error, ¬ p.Fails schema error) :
    (m.given schema).Settles costs (outcome schema costs m) := by
  cases hcandidates : candidates schema m [] with
  | error error =>
    obtain ⟨p, hp, hfails⟩ := candidates_eq_error hcandidates
    exact absurd hfails (h p hp error)
  | ok result => exact settles_of_candidates hcandidates

theorem mem_indexes_given :
    id ∈ (m.given schema).indexes ↔ ∃ p ∈ m, ∃ range, p.Gives schema id range := by
  constructor
  · rintro ⟨r, p, hp, h⟩
    exact ⟨p, hp, r, h⟩
  · rintro ⟨p, hp, r, h⟩
    exact ⟨r, p, hp, h⟩

/-- **The index chosen for a minterm has the key of a record in its range** when every predicate's
range has it. -/
theorem outcome_of_keys {key : IndexId → Option Key}
    (hm : ∀ p ∈ m, ∀ {id range}, p.Gives schema id range → ∃ k ∈ key id, k ∈ range)
    (h : outcome schema costs m = .ok o) :
    o = .noIndex ∨ ∃ id range, o = .indexRange id range ∧ ∃ k ∈ key id, k ∈ range := by
  -- The key of the record is one that all ranges of an index share.
  have hshared : ∀ {i}, i ∈ (m.given schema).indexes →
      ∃ k ∈ key i, k ∈ (m.given schema).keys i := by
    intro i hi
    obtain ⟨p, hp, range, hgives⟩ := mem_indexes_given.1 hi
    obtain ⟨k, hk, -⟩ := hm p hp hgives
    refine ⟨k, hk, ?_⟩
    rintro r ⟨q, hq, hgives'⟩
    obtain ⟨k', hk', hmem⟩ := hm q hq hgives'
    rwa [Option.mem_unique hk hk']
  cases (settles_of_outcome h).1 with
  | unsatisfiable hi hempty =>
    obtain ⟨k, -, hk⟩ := hshared hi
    simp [hempty] at hk
  | noIndex => exact Or.inl rfl
  | indexRange _ _ hcheapest =>
    obtain ⟨k, hk, hmem⟩ := hshared hcheapest.mem
    rw [← hcheapest.keys] at hmem
    exact Or.inr ⟨_, _, rfl, k, hk, hmem⟩

/-- **An error of a minterm** is that of a predicate, when the indexes of its columns are there. -/
theorem outcome_eq_error
    (hcosts : ∀ p ∈ m, ∀ c ∈ schema.column? p.field, ∀ id ∈ c.indexId?, (costs id).isSome)
    (h : outcome schema costs m = .error error) : ∃ p ∈ m, p.Fails schema error := by
  cases hcandidates : candidates schema m [] with
  | error error' =>
    rw [outcome, hcandidates, Except.error.injEq] at h
    exact candidates_eq_error (h ▸ hcandidates)
  | ok result =>
    have hsettles : (m.given schema).Settles costs (outcome schema costs m) :=
      settles_of_candidates hcandidates
    rw [h] at hsettles
    cases hsettles with
    | missing _ hi hnone =>
      obtain ⟨p, hp, range, c, hc, hid, -⟩ := mem_indexes_given.1 hi
      simpa [hnone] using hcosts p hp c hc _ hid

/-- A minterm has an outcome when its predicates have ranges and their indexes are there. -/
theorem exists_outcome
    (h : ∀ p ∈ m, ∃ c, schema.column? p.field = some c ∧ ∀ id, c.indexId? = some id →
      (costs id).isSome ∧ (p.comparison.isRange → ∃ range, p.keyRange c = .ok range)) :
    ∃ o, outcome schema costs m = .ok o := by
  cases houtcome : outcome schema costs m with
  | ok o => exact ⟨o, rfl⟩
  | error error =>
    have hcosts : ∀ p ∈ m, ∀ c ∈ schema.column? p.field, ∀ id ∈ c.indexId?, (costs id).isSome := by
      intro p hp c hc id hid
      obtain ⟨c', hc', hall⟩ := h p hp
      obtain rfl := Option.mem_unique hc hc'
      exact (hall id hid).1
    obtain ⟨p, hp, hfails⟩ := outcome_eq_error hcosts houtcome
    obtain ⟨c, hc, hall⟩ := h p hp
    rcases hfails with ⟨hnone, -⟩ | ⟨c', hc', hindexed, hrange, hkey⟩
    · simp [hc] at hnone
    · obtain rfl := Option.mem_unique hc hc'
      obtain ⟨state, hstate⟩ := Option.isSome_iff_exists.1 hindexed
      obtain ⟨range, hok⟩ := (hall state.id (by simp [Column.indexId?, hstate])).2 hrange
      simp [hok] at hkey

end Minterm

end BucketPlanner
