import BucketPlanner.Proofs.Bucket.Entries
import BucketPlanner.Proofs.Plan.Choice

/-!
# More predicates in a minterm

Predicates that are added to a minterm give more ranges, so they leave an index fewer keys and bring
in further indexes:

* `Minterm.candidates_append`: what a minterm leaves of the candidates is narrowed further;
* `GivenRanges.IsCheapest.cost_le`: the cheapest of more indexes with narrower ranges is no dearer;
* `Minterm.outcome_append`: added predicates neither revive a contradiction nor make the scan dearer.
-/

namespace BucketPlanner

theorem BucketIndex.count_mono (index : BucketIndex) {r s : KeyRange} (h : r.keys ⊆ s.keys) :
    index.count r ≤ index.count s := by
  rw [count_eq_length_filter, count_eq_length_filter]
  apply List.Sublist.length_le
  apply List.monotone_filter_right
  intro e he
  rw [decide_eq_true_eq] at he ⊢
  exact h he

/-! ### The cheapest of more indexes -/

namespace GivenRanges

variable {given given' : GivenRanges} {costs : IndexCosts} {i i' : IndexId} {r r' : KeyRange}

/-- The range of an index that is cheapest both times has become narrower. -/
theorem IsCheapest.keys_subset (h : given.IsCheapest costs i r) (h' : given'.IsCheapest costs i r')
    (hsub : given ⊆ given') : r'.keys ⊆ r.keys := by
  rw [h.keys, h'.keys]
  exact keys_anti hsub i

/-- **More ranges make the cheapest index no dearer**, when costs follow the inclusion of ranges. -/
theorem IsCheapest.cost_le (h : given.IsCheapest costs i r) (h' : given'.IsCheapest costs i' r')
    (hsub : given ⊆ given')
    (hmono : ∀ cost ∈ costs i, ∀ r s : KeyRange, r.keys ⊆ s.keys → cost r ≤ cost s) :
    ∃ cost ∈ costs i, ∃ cost' ∈ costs i', cost' r' ≤ cost r := by
  obtain ⟨cost, hcost, -⟩ := h.least
  obtain ⟨cost', hcost', hleast⟩ := h'.least
  -- The index chosen before is still there, with a range that has become narrower.
  obtain ⟨s, hs, c, hc, hle⟩ := hleast i (indexes_mono hsub h.mem)
  obtain rfl := Option.mem_unique hc hcost
  have hnarrow : s.keys ⊆ r.keys := by
    rw [hs, h.keys]
    exact keys_anti hsub i
  refine ⟨c, hcost, cost', hcost', ?_⟩
  calc cost' r' ≤ c s := Prod.Lex.monotone_fst _ _ hle
    _ ≤ c r := hmono c hcost s r hnarrow

end GivenRanges

/-! ### Added predicates -/

namespace Minterm

variable {schema : Schema} {costs : IndexCosts} {m n : Minterm}

/-- **Further predicates** narrow what the first ones leave of the candidates. -/
theorem candidates_append (schema : Schema) (m n : Minterm) (ranges : CandidateRanges) :
    candidates schema (m ++ n) ranges =
      match candidates schema m ranges with
      | .ok (some rs) => candidates schema n rs
      | result => result := by
  induction m generalizing ranges with
  | nil => rfl
  | cons p ps ih =>
    rw [List.cons_append]
    rcases p.fails_or_gives_or_isIdle schema with ⟨error, hfails⟩ | ⟨id, range, hgives⟩ | hidle
    · rw [candidates_cons_of_fails hfails, candidates_cons_of_fails hfails]
    · rw [candidates_cons_of_gives hgives, candidates_cons_of_gives hgives]
      cases ranges.narrow? id range with
      | none => rfl
      | some rs => exact ih rs
    · rw [candidates_cons_of_isIdle hidle, candidates_cons_of_isIdle hidle, ih]

theorem given_subset_append (schema : Schema) (m n : Minterm) :
    m.given schema ⊆ given (m ++ n) schema := by
  rintro e ⟨p, hp, hgives⟩
  exact ⟨p, List.mem_append_left n hp, hgives⟩

/-- A contradiction shows in the candidates. -/
theorem candidates_of_unsatisfiable (h : outcome schema costs m = .ok .unsatisfiable) :
    candidates schema m [] = .ok none := by
  cases hcandidates : candidates schema m [] with
  | error error => simp [outcome, hcandidates] at h
  | ok result =>
    cases result with
    | none => rfl
    | some rs =>
      -- Candidates that gather the given ranges leave every index a key.
      have hgathers := isNarrowed_candidates .nil hcandidates
      rw [Set.empty_union] at hgathers
      obtain ⟨i, hi, hempty⟩ := (settles_of_candidates hcandidates).eq_unsatisfiable_iff.1 h
      obtain ⟨r, hr⟩ := CandidateRanges.Gathers.exists_mem hgathers hi
      obtain ⟨-, hvalid, hkeys⟩ := CandidateRanges.Gathers.mem hgathers hr
      rw [KeyRange.isValid_iff, hkeys, hempty] at hvalid
      exact absurd hvalid Set.not_nonempty_empty

/-- A contradiction stays one, whatever is added. -/
theorem unsatisfiable_append (h : outcome schema costs m = .ok .unsatisfiable) (n : Minterm) :
    outcome schema costs (m ++ n) = .ok .unsatisfiable := by
  rw [outcome, candidates_append, candidates_of_unsatisfiable h]

theorem isCheapest_of_outcome {i : IndexId} {r : KeyRange}
    (h : outcome schema costs m = .ok (.indexRange i r)) : (m.given schema).IsCheapest costs i r := by
  cases (settles_of_outcome h).1 with
  | indexRange _ _ hcheapest => exact hcheapest

/-- **Added predicates** neither revive a contradiction nor make the scan dearer: the index that is
then chosen has at most as many entries in its range as the one chosen before, and the range of an
index that is chosen again has only keys that it had before. -/
theorem outcome_append (schema : Schema) (log : IndexLog) (m n : Minterm) :
    (outcome schema log.costs m = .ok .unsatisfiable →
      outcome schema log.costs (m ++ n) = .ok .unsatisfiable) ∧
    ∀ {i r i' r'}, outcome schema log.costs m = .ok (.indexRange i r) →
      outcome schema log.costs (m ++ n) = .ok (.indexRange i' r') →
        (∃ index ∈ log.index? i, ∃ index' ∈ log.index? i', index'.count r' ≤ index.count r) ∧
        (i' = i → ∀ k ∈ r', k ∈ r) := by
  refine ⟨fun h => unsatisfiable_append h n, fun {i r i' r'} h h' => ?_⟩
  have hcheapest := isCheapest_of_outcome h
  have hcheapest' := isCheapest_of_outcome h'
  have hsub := given_subset_append schema m n
  have hmono : ∀ cost ∈ log.costs i, ∀ r s : KeyRange, r.keys ⊆ s.keys → cost r ≤ cost s := by
    intro cost hcost r s hrs
    obtain ⟨index, -, rfl⟩ := Option.map_eq_some_iff.1 hcost
    exact index.count_mono hrs
  refine ⟨?_, ?_⟩
  · obtain ⟨cost, hcost, cost', hcost', hle⟩ := hcheapest.cost_le hcheapest' hsub hmono
    obtain ⟨index, hindex, rfl⟩ := Option.map_eq_some_iff.1 hcost
    obtain ⟨index', hindex', rfl⟩ := Option.map_eq_some_iff.1 hcost'
    exact ⟨index, hindex, index', hindex', hle⟩
  · rintro rfl
    exact hcheapest.keys_subset hcheapest' hsub

/-- Three time stamps, of which one is of a large size: a predicate on the size makes its index the
cheaper one. -/
theorem outcome_append_switch :
    let column (position : UInt32) (name : String) : Column :=
      { position := position.toNat, offset := 8 * position.toUInt64, name, type := .ulong,
        min := DataType.ulong.least, max := DataType.ulong.greatest,
        index := some ⟨⟨position⟩, .ofNat 10⟩ }
    let schema : Schema := ⟨[column 0 "TIMESTAMP", column 1 "SIZE"], 16⟩
    let log : IndexLog := ⟨[
      ⟨.ofNat 10, [(.clamp 2, [0, 1]), (.clamp 7, [2])]⟩,
      ⟨.ofNat 10, [(.clamp 1, [0, 2]), (.clamp 6, [1])]⟩]⟩
    let m : Minterm := [⟨0, .ge, .uint 20⟩]
    let n : Minterm := [⟨1, .ge, .uint 50⟩]
    let range (low : Int) : KeyRange := ⟨.clamp low, .clamp 1844674407370955161⟩
    outcome schema log.costs m = .ok (.indexRange ⟨0⟩ (range 2)) ∧
      outcome schema log.costs (m ++ n) = .ok (.indexRange ⟨1⟩ (range 5)) ∧
      ∃ index ∈ log.index? ⟨0⟩, ∃ index' ∈ log.index? ⟨1⟩,
        index'.count (range 5) ≤ index.count (range 2) := by
  intro column schema log m n range
  have hfirst : (outcome schema log.costs m).toOption.any (· == .indexRange ⟨0⟩ (range 2)) := by
    decide +kernel
  have hlast :
      (outcome schema log.costs (m ++ n)).toOption.any (· == .indexRange ⟨1⟩ (range 5)) := by
    decide +kernel
  obtain ⟨o, h, ho⟩ := exists_ok_of_any hfirst
  obtain ⟨o', h', ho'⟩ := exists_ok_of_any hlast
  obtain rfl := beq_iff_eq.1 ho
  obtain rfl := beq_iff_eq.1 ho'
  exact ⟨h, h', ((outcome_append schema log m n).2 h h').1⟩

end Minterm

end BucketPlanner
