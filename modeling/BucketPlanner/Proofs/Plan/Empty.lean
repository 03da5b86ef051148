import BucketPlanner.Proofs.Plan.Assembly
import BucketPlanner.Proofs.Plan.Matching

/-!
# Plans without operations

A plan without operations says that no record matches. It is right about a record in the domain as
long as the record satisfies by its keys what it satisfies by its values:

* `Predicate.exists_lost`: a predicate that holds, but not by the key of the record, is in a minterm
  that such a plan loses;
* `Indexing.Reachable.not_holds_of_matchesNothing`: a plan without operations is right about a minterm
  when all its predicates that hold hold by keys as well, and each predicate that does not is in a
  minterm about which such a plan is wrong;
* `Indexing.exists_holds_of_matchesNothing`: there are such minterms.
-/

namespace BucketPlanner

/-- There is a plan, and it has no operations. -/
def Planning.matchesNothing (planning : Planning) : Bool :=
  match planning.result with
  | .ok plan => plan.matchesNothing
  | .error _ => false

/-! ### Keys of values in the domain -/

section Ranges

variable {column : Column} {id : IndexId} {s : Binary64} {v l : Value} {k : Key} {r : KeyRange}
  {p : Predicate}

/-- A value that is compared with a literal of a type is of the type as well. -/
theorem DataType.accepts_of_compare? {t : DataType} {o : Ordering} (h : v.compare? l = some o)
    (hl : t.accepts l) : t.accepts v := by
  cases v <;> cases l <;> simp [Value.compare?, Value.integer?, Value.number?] at h <;>
    cases t <;> simp_all [accepts, isNumeric]

/-- Values with keys are equal to themselves. -/
theorem Value.compare?_self_of_key? (h : v.key? s = some k) : v.compare? v = some .eq := by
  cases v with
  | bool b => simp [compare?]
  | int i => simp [compare?, integer?]
  | uint n => simp [compare?, integer?]
  | text t => simp [key?_text] at h
  | float x =>
    rw [key?_float (isBucketSize_of_key? h)] at h
    split at h
    next hfin =>
      obtain ⟨q, hq, -⟩ := (Binary64.isFinite_iff_place? x).1 hfin
      have hplace : (Value.float x).place? = some q := place?_eq_some_iff.2 ⟨x, rfl, hq⟩
      rw [compare?_of_place? (Or.inl rfl) hplace hplace, compare_eq_iff_eq.2 rfl]
    · simp at h

namespace Predicate

/-- The literal of a predicate with a range has a key. -/
theorem exists_key?_value (hindex : column.index = some ⟨id, s⟩) (h : p.keyRange column = .ok r) :
    ∃ kl, p.value.key? s = some kl := by
  obtain ⟨-, hs, -, hcases⟩ := keyRange_eq_ok hindex h
  by_cases hfrac : column.type.isInteger ∧ p.value.isFraction
  · obtain ⟨x, hx, hcond⟩ := Value.exists_float_of_isFraction hfrac.2
    exact ⟨_, by rw [hx, Value.key?_float hs, if_pos (Bool.and_eq_true_iff.1 hcond).1]⟩
  · rw [keyComparison?_of_not_isFraction hfrac] at hcases
    obtain ⟨hnone, -⟩ | ⟨c, l, k, hsome, hk, -⟩ := hcases
    · simp at hnone
    · rw [Option.some.injEq, Prod.mk.injEq] at hsome
      rw [hsome.2]
      exact ⟨k, hk⟩

/-- A value of the domain that satisfies a predicate has a key, unless the range has none. -/
theorem exists_key?_of_isValid (hindex : column.index = some ⟨id, s⟩) (h : p.keyRange column = .ok r)
    (hvalid : r.isValid) (hrel : p.comparison.relates v p.value) (hdom : column.Contains v) :
    ∃ k, v.key? s = some k := by
  obtain ⟨kl, hkl⟩ := exists_key?_value hindex h
  obtain ⟨m, hm⟩ := KeyRange.isValid_iff.1 hvalid
  obtain ⟨-, hreaches⟩ := (mem_keyRange_iff hindex h).1 hm
  have hrange := (keyRange_eq_ok hindex h).1
  cases hc : p.comparison with
  | neq => simp [hc, Comparison.isRange] at hrange
  | eq =>
    exact Value.exists_key_of_between (Comparison.literal_isAtMost_of_relates hrel (by simp [hc]))
      (Comparison.isAtMost_literal_of_relates hrel (by simp [hc])) hkl hkl
  | ge | gt =>
    rw [hc] at hreaches
    obtain ⟨high, hhigh, -⟩ := hreaches
    exact Value.exists_key_of_between (Comparison.literal_isAtMost_of_relates hrel (by simp [hc]))
      hdom.2 hkl hhigh
  | le | lt =>
    rw [hc] at hreaches
    obtain ⟨low, hlow, -⟩ := hreaches
    exact Value.exists_key_of_between hdom.1
      (Comparison.isAtMost_literal_of_relates hrel (by simp [hc])) hlow hkl

/-- A value of the domain that satisfies a predicate whose range has keys has a key itself, and an
equation with the value has a range of at most this key. -/
theorem exists_keyRange_of_eq (hindex : column.index = some ⟨id, s⟩) (h : p.keyRange column = .ok r)
    (hvalid : r.isValid) (hrel : p.comparison.relates v p.value) (hdom : column.Contains v) :
    ∃ k, v.key? s = some k ∧
      ∃ r', keyRange ⟨p.field, .eq, v⟩ column = .ok r' ∧ ∀ m ∈ r', m = k := by
  obtain ⟨-, hs, haccepts, -⟩ := keyRange_eq_ok hindex h
  obtain ⟨k, hk⟩ := exists_key?_of_isValid hindex h hvalid hrel hdom
  obtain ⟨o, ho, -⟩ := Comparison.relates_iff.1 hrel
  refine ⟨k, hk, ?_⟩
  rw [keyRange_eq hindex hs rfl (DataType.accepts_of_compare? ho haccepts)]
  by_cases hfrac : column.type.isInteger ∧ v.isFraction
  · -- No integer is equal to a fraction.
    obtain ⟨x, rfl, hcond⟩ := Value.exists_float_of_isFraction hfrac.2
    rw [keyComparison?, if_pos hfrac.1, wholeComparison?, if_pos hcond]
    exact ⟨.empty, rfl, fun m hm => absurd hm (KeyRange.not_mem_empty m)⟩
  · rw [keyComparison?_of_not_isFraction hfrac]
    simp only [hk]
    exact ⟨.point k, rfl, fun m hm => Key.le_antisymm hm.2 hm.1⟩

theorem gives_of_keyRange {schema : Schema} {state : ColumnIndex}
    (hc : schema.column? p.field = some column) (hstate : column.index = some state)
    (h : p.keyRange column = .ok r) : p.Gives schema state.id r :=
  ⟨column, hc, by rw [Column.indexId?, hstate, Option.map_some], (keyRange_eq_ok hstate h).1, h⟩

end Predicate

end Ranges

/-! ### Minterms without a key -/

section Minterms

variable {schema : Schema} {m : Minterm} {p : Predicate} {id : IndexId}
  {range : KeyRange}

theorem Predicate.Gives.not_fails (h : p.Gives schema id range) (error : PlanError) :
    ¬ p.Fails schema error := by
  obtain ⟨c, hc, -, -, hkey⟩ := h
  rintro (⟨hnone, -⟩ | ⟨c', hc', -, -, hkey'⟩)
  · simp [hc] at hnone
  · obtain rfl := Option.mem_unique hc hc'
    simp [hkey] at hkey'

/-- A minterm is unsatisfiable when its predicates give an index ranges that share no key. -/
theorem Minterm.outcome_eq_unsatisfiable (costs : IndexCosts) (id : IndexId) (hne : m ≠ [])
    (hgives : ∀ p ∈ m, ∃ range, p.Gives schema id range)
    (hempty : ∀ k, ∃ p ∈ m, ∃ range, p.Gives schema id range ∧ k ∉ range) :
    outcome schema costs m = .ok .unsatisfiable := by
  have hfails : ∀ p ∈ m, ∀ error, ¬ p.Fails schema error := by
    intro p hp error
    obtain ⟨range, hp⟩ := hgives p hp
    exact hp.not_fails error
  obtain ⟨p, hp⟩ := List.exists_mem_of_ne_nil m hne
  refine (settles_of_not_fails hfails).eq_unsatisfiable_iff.2
    ⟨id, mem_indexes_given.2 ⟨p, hp, hgives p hp⟩, Set.eq_empty_of_forall_notMem fun k hk => ?_⟩
  obtain ⟨q, hq, range, hgiven, hk'⟩ := hempty k
  exact hk' (hk range ⟨q, hq, hgiven⟩)

/-- The plan for such a minterm has no operations. -/
theorem Expression.matchesNothing_singleton (costs : IndexCosts) (id : IndexId) (hne : m ≠ [])
    (hgives : ∀ p ∈ m, ∃ range, p.Gives schema id range)
    (hempty : ∀ k, ∃ p ∈ m, ∃ range, p.Gives schema id range ∧ k ∉ range) :
    (Expression.plan schema costs [m]).matchesNothing := by
  have hcoverage : coverage schema costs [m] = .ok (.ranges []) := by
    rw [coverage_cons, Minterm.coverage, Minterm.outcome_eq_unsatisfiable costs id hne hgives hempty]
    rfl
  rw [Planning.matchesNothing, plan_result, hcoverage]
  rfl

/-- **A predicate that holds, but not by the key of the record,** is in a minterm that a plan without
operations loses. -/
theorem Predicate.exists_lost {record : Record} (p : Predicate) (hdom : schema.Contains record)
    (costs : IndexCosts) (hholds : p.holds record) (hkey : ¬ p.HoldsByKey schema record) :
    ∃ m, p ∈ m ∧ m.holds record ∧ (Expression.plan schema costs [m]).matchesNothing := by
  simp only [HoldsByKey, not_forall] at hkey
  obtain ⟨c, hc, state, hstate, hok, hkey⟩ := hkey
  rw [Option.mem_def] at hc hstate
  obtain ⟨range, hrange⟩ := isOk_iff_exists.1 hok
  have hgives := gives_of_keyRange hc hstate hrange
  obtain ⟨v, hv, hrel⟩ := holds_iff.1 hholds
  by_cases hvalid : range.isValid
  · -- The equation with the value leaves its key only, which is not in the range.
    have hcontains := hdom.column hc (by simp [Column.isIndexed, hstate]) hv
    obtain ⟨k, hk, range', hrange', hle⟩ := exists_keyRange_of_eq hstate hrange hvalid hrel hcontains
    let q : Predicate := ⟨p.field, .eq, v⟩
    have hq : q.Gives schema state.id range' := gives_of_keyRange hc hstate hrange'
    have hqholds : q.holds record := holds_iff.2
      ⟨v, hv, Comparison.relates_iff.2 ⟨.eq, Value.compare?_self_of_key? hk, rfl⟩⟩
    have hnot : k ∉ range := fun hmem => hkey ⟨v, hv, k, hk, (mem_keyRange_iff hstate hrange).1 hmem⟩
    refine ⟨[p, q], List.mem_cons_self, by simp [Minterm.holds, hholds, hqholds],
      Expression.matchesNothing_singleton costs state.id (by simp) ?_ fun l => ?_⟩
    · simp only [List.forall_mem_cons]
      exact ⟨⟨range, hgives⟩, ⟨range', hq⟩, by simp⟩
    · by_cases hl : l ∈ range
      · exact ⟨q, by simp, range', hq, fun hl' => hnot (hle l hl' ▸ hl)⟩
      · exact ⟨p, by simp, range, hgives, hl⟩
  · -- No key is in the range.
    refine ⟨[p], List.mem_cons_self, by simp [Minterm.holds, hholds],
      Expression.matchesNothing_singleton costs state.id (by simp) ?_ fun l => ?_⟩
    · simpa using ⟨range, hgives⟩
    · exact ⟨p, by simp, range, hgives, fun hl => hvalid (KeyRange.isValid_iff.2 ⟨l, hl⟩)⟩

end Minterms

/-! ### Records that plans lose -/

namespace Indexing

variable {s : Indexing} {record : Record} {e : Expression} {m : Minterm} {p : Predicate} {id : IndexId}
  {range : KeyRange}

/-- A minterm of a plan without operations has a predicate that a record does not satisfy by its
key. -/
theorem Reachable.exists_not_holdsByKey (hs : s.Reachable) (record : Record)
    (hempty : (e.plan s.schema s.log.costs).matchesNothing) (hm : m ∈ e) :
    ∃ p ∈ m, ¬ p.HoldsByKey s.schema record := by
  by_contra! hall
  unfold Planning.matchesNothing at hempty
  split at hempty
  next plan hplan =>
    have hnil : plan.ops = [] := List.isEmpty_iff.1 hempty
    rcases Expression.plan_of_keys hplan hm fun p hp _ _ => (hall p hp).exists_key_mem hs with
      hfull | ⟨hops, id, range, hcontrib, -⟩
    · simp [hnil] at hfull
    · rw [hnil, eq_comm, List.flatMap_eq_nil_iff] at hops
      simp [hops m hm] at hcontrib
  · simp at hempty

/-- **A plan without operations means that nothing matches**, as far as keys show what matches. It is
right about a minterm when all predicates that a record satisfies hold by the key of the record as
well. No less will do: every other predicate is in a minterm about which such a plan is wrong. -/
theorem Reachable.not_holds_of_matchesNothing (hs : s.Reachable) (hdom : s.schema.Contains record) :
    (∀ e : Expression, (e.plan s.schema s.log.costs).matchesNothing → ∀ m ∈ e,
      (∀ p ∈ m, p.holds record → p.HoldsByKey s.schema record) → ¬ Minterm.holds m record) ∧
    ∀ p : Predicate, p.holds record → ¬ p.HoldsByKey s.schema record →
      ∃ m, p ∈ m ∧ m.holds record ∧
        (Expression.plan s.schema s.log.costs [m]).matchesNothing := by
  refine ⟨fun e hempty m hm hkeys hholds => ?_, fun p => p.exists_lost hdom s.log.costs⟩
  obtain ⟨p, hp, hnot⟩ := hs.exists_not_holdsByKey record hempty hm
  exact hnot (hkeys p hp (List.all_eq_true.1 hholds p hp))

/-- With an index on tens: a plan that is right about bounds that exclude each other, and a bound in
the bucket of the record, for which a plan is wrong. -/
theorem not_holds_of_matchesNothing_tens :
    let s := (start SchemaBuilder.start.build).run [.addIndex "timestamp" (.ofNat 10)]
    let m : Minterm := [⟨0, .gt, .uint 50⟩, ⟨0, .lt, .uint 49⟩]
    let p : Predicate := ⟨0, .lt, .uint 39⟩
    s.Reachable ∧ s.schema.Contains [.uint 35] ∧
      (Expression.plan s.schema s.log.costs [m]).matchesNothing ∧
      (∀ q ∈ m, q.holds [.uint 35] → q.HoldsByKey s.schema [.uint 35]) ∧ ¬ m.holds [.uint 35] ∧
      p.holds [.uint 35] ∧ ¬ p.HoldsByKey s.schema [.uint 35] ∧
      ∃ n, p ∈ n ∧ n.holds [.uint 35] ∧
        (Expression.plan s.schema s.log.costs [n]).matchesNothing := by
  intro s m p
  have hs : s.Reachable := ⟨_, _, .start, rfl⟩
  have hdom : s.schema.Contains [.uint 35] := by decide +kernel
  have hempty : (Expression.plan s.schema s.log.costs [m]).matchesNothing := by decide +kernel
  have hkeys : ∀ q ∈ m, q.holds [.uint 35] → q.HoldsByKey s.schema [.uint 35] := by decide +kernel
  have hholds : p.holds [.uint 35] := by decide +kernel
  have hnot : ¬ p.HoldsByKey s.schema [.uint 35] := by decide +kernel
  obtain ⟨hright, hwrong⟩ := hs.not_holds_of_matchesNothing hdom
  exact ⟨hs, hdom, hempty, hkeys, hright [m] hempty m (List.mem_singleton_self m) hkeys, hholds, hnot,
    hwrong p hholds hnot⟩

/-- Records in the domain that a plan without operations loses. With an index on tens: between strict
bounds in one bucket or in neighbouring ones, with a fraction on an integer column, with an integer
that its comparison with a literal rounds, and at an end of the domain that is rounded. With an index
on threes: with a literal whose quotient is rounded, and no strict bound. -/
theorem exists_holds_of_matchesNothing :
    let tens := (start SchemaBuilder.start.build).run [.addIndex "timestamp" (.ofNat 10)]
    let threes := (start SchemaBuilder.start.build).run [.addIndex "timestamp" (.ofNat 3)]
    tens.Reachable ∧ threes.Reachable ∧
      (∀ q ∈ ([
        ([⟨0, .gt, .uint 31⟩, ⟨0, .lt, .uint 39⟩], .uint 35),
        ([⟨0, .gt, .uint 31⟩, ⟨0, .lt, .uint 49⟩], .uint 35),
        ([⟨0, .ge, .float (.ofQuotient false 59 2)⟩, ⟨0, .le, .float (.ofQuotient false 119 4)⟩],
          .float (.ofQuotient false 59 2)),
        ([⟨0, .eq, .float (.ofNat 9007199254741000)⟩, ⟨0, .le, .uint 9007199254740999⟩],
          .uint 9007199254740999),
        ([⟨0, .ge, .float (.ofNat (2 ^ 64))⟩], .float (.ofNat (2 ^ 64)))] : List (Minterm × Value)),
        (Expression.plan tens.schema tens.log.costs [q.1]).matchesNothing ∧
          tens.schema.Contains [q.2] ∧
          (∀ e ∈ tens.schema.columns.zip [q.2], e.1.type.accepts e.2) ∧ q.1.holds [q.2]) ∧
      let m : Minterm :=
        [⟨0, .eq, .float (.ofNat 13510798882111490)⟩, ⟨0, .le, .uint 13510798882111490⟩]
      let v : Value := .uint 13510798882111490
      (Expression.plan threes.schema threes.log.costs [m]).matchesNothing ∧
        threes.schema.Contains [v] ∧
        (∀ e ∈ threes.schema.columns.zip [v], e.1.type.accepts e.2) ∧ m.holds [v] := by
  intro tens threes
  refine ⟨⟨_, _, .start, rfl⟩, ⟨_, _, .start, rfl⟩, by decide +kernel, ?_⟩
  intro m v
  decide +kernel

end Indexing

end BucketPlanner
