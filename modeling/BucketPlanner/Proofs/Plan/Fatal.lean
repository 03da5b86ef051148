import BucketPlanner.Proofs.Plan.Assembly
import BucketPlanner.Proofs.Plan.Matching
import BucketPlanner.Proofs.Value.DataType

/-!
# Fatal errors of planning

A fatal error says that schema and indexes do not agree. After a run that starts from a built schema
they do, and still planning can be fatal: an end of a domain may be infinite, and has no key then.
Without such ends on indexed columns every error is a rejection, and each of them makes planning
fatal for some expression (`Indexing.Reachable.plan_rejects_iff`).
-/

namespace BucketPlanner

/-- An infinite number. -/
def Value.isInfinite : Value → Bool
  | .float (.infinite _) => true
  | _ => false

/-- The ends of the domains of the indexed columns are not infinite. -/
def Schema.IsFinite (schema : Schema) : Prop :=
  ∀ c ∈ schema.columns, c.isIndexed → ¬ c.min.isInfinite ∧ ¬ c.max.isInfinite

instance (schema : Schema) : Decidable schema.IsFinite :=
  inferInstanceAs (Decidable (∀ c ∈ schema.columns, c.isIndexed → _ ∧ _))

/-! ### Ends of domains -/

namespace Value

variable {a b v : Value} {t : DataType} {bucketSize : Binary64}

/-- Numbers that are compared, and are not infinite, are finite. -/
theorem isFinite_of_place? {x : Binary64} {p : Int} (hp : (Value.float x).place? = some p)
    (hinfinite : ¬ (Value.float x).isInfinite) : x.isFinite := by
  cases x with
  | nan => simp [place?, number?, Binary64.place?] at hp
  | infinite negative => exact absurd rfl hinfinite
  | finite negative n hn => rfl

/-- The ends of a domain that are not infinite are finite, if they are numbers. -/
theorem isFinite_of_isAtMost (h : a.isAtMost b) :
    (∀ x, a = .float x → ¬ a.isInfinite → x.isFinite) ∧
      ∀ x, b = .float x → ¬ b.isInfinite → x.isFinite := by
  obtain ⟨o, hcmp, -⟩ := isAtMost_iff.1 h
  rw [compare?_eq_some_iff] at hcmp
  constructor
  · rintro x rfl
    rcases hcmp with _ | _ | ⟨ha, -⟩ | ⟨-, ha, -⟩
    · simp [integer?] at ha
    · exact isFinite_of_place? ha
  · rintro x rfl
    rcases hcmp with _ | _ | ⟨-, hb⟩ | ⟨-, -, hb⟩
    · simp [integer?] at hb
    · exact isFinite_of_place? hb

theorem key?_of_isInfinite (h : v.isInfinite) : v.key? bucketSize = none := by
  unfold isInfinite at h
  split at h
  · unfold key?
    split <;> rfl
  · simp at h

/-- A type with an infinite value has numbers. -/
theorem accepts_int_of_isInfinite (h : t.accepts v) (hinfinite : v.isInfinite) (i : Int64) :
    t.accepts (.int i) := by
  unfold isInfinite at hinfinite
  split at hinfinite
  · cases t <;> simp_all [DataType.accepts, DataType.isNumeric]
  · simp at hinfinite

end Value

/-! ### Errors of predicates -/

namespace Column

variable {column : Column} {bucketSize : Binary64} {c : Comparison} {k : Key} {error : PlanError}

/-- The ends of the domain have keys. -/
def HasBoundKeys (column : Column) (bucketSize : Binary64) : Prop :=
  (column.min.key? bucketSize).isSome ∧ (column.max.key? bucketSize).isSome

theorem not_map_boundKey_eq_error {bound : Value} {f : Key → KeyRange}
    (hbound : (bound.key? bucketSize).isSome) :
    (column.boundKey bound bucketSize).map f ≠ .error error := by
  obtain ⟨k, hk⟩ := Option.isSome_iff_exists.1 hbound
  simp [boundKey, hk, Except.map]

theorem severity_of_rangeFrom (hbounds : column.HasBoundKeys bucketSize)
    (h : column.rangeFrom bucketSize c k = .error error) : error.severity = .reject := by
  cases c with
  | eq => simp [rangeFrom] at h
  | neq =>
    rw [rangeFrom, Except.error.injEq] at h
    rw [← h]
    rfl
  | ge => exact absurd h (not_map_boundKey_eq_error hbounds.2)
  | le => exact absurd h (not_map_boundKey_eq_error hbounds.1)
  | gt =>
    cases hnext : k.next? with
    | none => simp [rangeFrom, hnext] at h
    | some low =>
      simp only [rangeFrom, hnext] at h
      exact absurd h (not_map_boundKey_eq_error hbounds.2)
  | lt =>
    cases hprev : k.prev? with
    | none => simp [rangeFrom, hprev] at h
    | some high =>
      simp only [rangeFrom, hprev] at h
      exact absurd h (not_map_boundKey_eq_error hbounds.1)

end Column

/-- **An error of a predicate is a rejection** when its column has a size of buckets and keys for
the ends of its domain. -/
theorem Predicate.severity_of_keyRange {p : Predicate} {column : Column} {state : ColumnIndex}
    {error : PlanError} (hindex : column.index = some state)
    (hs : Key.isBucketSize state.bucketSize) (hbounds : column.HasBoundKeys state.bucketSize)
    (h : p.keyRange column = .error error) : error.severity = .reject := by
  unfold keyRange at h
  split at h
  · rw [← Except.error.inj h]
    rfl
  · rw [hindex] at h
    simp only [hs, Bool.not_true, Bool.false_eq_true, if_false] at h
    split at h
    · rw [← Except.error.inj h]
      rfl
    · split at h
      · simp at h
      · split at h
        · rw [← Except.error.inj h]
          rfl
        · exact Column.severity_of_rangeFrom hbounds h

/-- The range of a comparison with an integer. -/
theorem Predicate.keyRange_int {n : Nat} {c : Comparison} {i : Int64} {column : Column}
    {state : ColumnIndex} (hrange : c.isRange) (hindex : column.index = some state)
    (hs : Key.isBucketSize state.bucketSize) (haccepts : column.type.accepts (.int i)) :
    Predicate.keyRange ⟨n, c, .int i⟩ column =
      column.rangeFrom state.bucketSize c (Key.ofInteger i.toInt state.bucketSize) := by
  have hkey : (Value.int i).key? state.bucketSize = some (Key.ofInteger i.toInt state.bucketSize) :=
    Value.key?_of_integer? rfl hs
  simp [keyRange, hrange, hindex, hs, haccepts, wholeComparison?, hkey]

/-! ### Errors of expressions -/

/-- An error of the only predicate is the error of the plan. -/
theorem Expression.plan_singleton_eq_error {schema : Schema} {costs : IndexCosts} {p : Predicate}
    {c : Column} {error : PlanError} (hc : schema.column? p.field = some c) (hindexed : c.isIndexed)
    (hrange : p.comparison.isRange) (hkey : p.keyRange c = .error error) :
    (Expression.plan schema costs [[p]]).result = .error error := by
  obtain ⟨state, hstate⟩ := Option.isSome_iff_exists.1 hindexed
  have hcandidates : Minterm.candidates schema [p] [] = .error error := by
    simp [Minterm.candidates, hc, Column.indexId?, hstate, hrange, hkey]
  have houtcome : Minterm.outcome schema costs [p] = .error error := by
    simp [Minterm.outcome, hcandidates]
  simp [plan_result, coverage, Minterm.coverage_eq_error.2 houtcome, Coverage.orElse, Except.map]

namespace Indexing.Reachable

variable {s : Indexing} {n : Nat} {c : Column} {state : ColumnIndex} {e : Expression}
  {error : PlanError}

theorem hasBoundKeys (hs : s.Reachable) (hfinite : s.schema.IsFinite)
    (hindex : s.HasIndex n c state) : c.HasBoundKeys state.bucketSize := by
  obtain ⟨-, hmin, hmax, hordered⟩ := hs.isFormed hindex.1
  obtain ⟨hminFinite, hmaxFinite⟩ := hfinite c (List.mem_of_getElem? hindex.1)
    (by simp [Column.isIndexed, hindex.2])
  obtain ⟨hminNumber, hmaxNumber⟩ := Value.isFinite_of_isAtMost hordered
  have hindexable := hs.isIndexable hindex
  have hsize := hs.consistent.isBucketSize hindex
  obtain ⟨low, hlow⟩ := DataType.exists_key_of_accepts hindexable hmin
    (fun x hx => hminNumber x hx hminFinite) hsize
  obtain ⟨high, hhigh⟩ := DataType.exists_key_of_accepts hindexable hmax
    (fun x hx => hmaxNumber x hx hmaxFinite) hsize
  simp [Column.HasBoundKeys, hlow, hhigh]

/-- **Errors are rejections** when the ends of the domains are not infinite. -/
theorem severity_of_plan (hs : s.Reachable) (hfinite : s.schema.IsFinite)
    (h : (e.plan s.schema s.log.costs).result = .error error) : error.severity = .reject := by
  obtain ⟨m, -, houtcome⟩ := Expression.plan_eq_error h
  have hcosts : ∀ p ∈ m, ∀ c ∈ s.schema.column? p.field, ∀ id ∈ c.indexId?,
      (s.log.costs id).isSome := by
    intro p _ c hc id hid
    obtain ⟨state, hstate, rfl⟩ := Option.map_eq_some_iff.1 hid
    exact hs.isSome_costs ⟨hc, hstate⟩
  obtain ⟨p, -, ⟨-, rfl⟩ | ⟨c, hc, hindexed, -, hkey⟩⟩ := Minterm.outcome_eq_error hcosts houtcome
  · rfl
  · obtain ⟨state, hstate⟩ := Option.isSome_iff_exists.1 hindexed
    have hindex : s.HasIndex p.field c state := ⟨hc, hstate⟩
    exact Predicate.severity_of_keyRange hstate (hs.consistent.isBucketSize hindex)
      (hs.hasBoundKeys hfinite hindex) hkey

/-- **An infinite end of a domain** makes planning fatal for a predicate that takes the end. -/
theorem exists_fatal (hs : s.Reachable) (hindex : s.HasIndex n c state)
    (hinfinite : c.min.isInfinite ∨ c.max.isInfinite) :
    ∃ e error, (Expression.plan s.schema s.log.costs e).result = .error error ∧
      error.severity = .fatal := by
  obtain ⟨-, hmin, hmax, -⟩ := hs.isFormed hindex.1
  have hsize := hs.consistent.isBucketSize hindex
  have hindexed : c.isIndexed := by simp [Column.isIndexed, hindex.2]
  have hfatal : ∀ comparison bound, comparison.isRange → c.type.accepts bound → bound.isInfinite →
      (∀ k, c.rangeFrom state.bucketSize comparison k =
        .error (.corruptColumnIndex c.position c.name (.boundWithoutKey bound))) →
      ∃ e error, (Expression.plan s.schema s.log.costs e).result = .error error ∧
        error.severity = .fatal := by
    intro comparison bound hrange haccepts hbound hfrom
    -- Zero is a literal of every type that has an infinite value, and has a key.
    have hint := Value.accepts_int_of_isInfinite haccepts hbound 0
    have hkey := Predicate.keyRange_int (n := n) hrange hindex.2 hsize hint
    rw [hfrom] at hkey
    exact ⟨_, _, Expression.plan_singleton_eq_error hindex.1 hindexed hrange hkey, rfl⟩
  rcases hinfinite with hlow | hhigh
  · refine hfatal .le c.min rfl hmin hlow fun k => ?_
    simp [Column.rangeFrom, Column.boundKey, Value.key?_of_isInfinite hlow, Except.map]
  · refine hfatal .ge c.max rfl hmax hhigh fun k => ?_
    simp [Column.rangeFrom, Column.boundKey, Value.key?_of_isInfinite hhigh, Except.map]

/-- **Planning is never fatal** exactly when no indexed column has an infinite end of its domain:
then every expression has a plan or is rejected. -/
theorem plan_rejects_iff (hs : s.Reachable) :
    (∀ e error, (Expression.plan s.schema s.log.costs e).result = .error error →
      error.code = "TIDE_PLAN_MALFORMED_PREDICATE") ↔ s.schema.IsFinite := by
  constructor
  · intro hreject c hc hindexed
    obtain ⟨n, hn⟩ := List.getElem?_of_mem hc
    obtain ⟨state, hstate⟩ := Option.isSome_iff_exists.1 hindexed
    by_contra hinfinite
    obtain ⟨e, error, herror, hfatal⟩ := hs.exists_fatal ⟨hn, hstate⟩ (by tauto)
    have hcode := hreject e error herror
    simp [PlanError.code, hfatal] at hcode
  · intro hfinite e error herror
    simp [PlanError.code, hs.severity_of_plan hfinite herror]

end Indexing.Reachable

/-- A time stamp with an index on tens. -/
theorem Indexing.plan_rejects_iff_timestamp :
    let s := (start SchemaBuilder.start.build).run [.addIndex "timestamp" (.ofNat 10)]
    s.Reachable ∧ s.schema.IsFinite ∧ ∀ e error,
      (Expression.plan s.schema s.log.costs e).result = .error error →
        error.code = "TIDE_PLAN_MALFORMED_PREDICATE" := by
  intro s
  have hs : s.Reachable := ⟨_, _, .start, rfl⟩
  have hfinite : s.schema.IsFinite := by decide +kernel
  exact ⟨hs, hfinite, hs.plan_rejects_iff.2 hfinite⟩

/-- A level without an upper limit: looking for levels that are not negative is fatal. -/
theorem Indexing.exists_fatal_level :
    let s (b : SchemaBuilder) := (start b.build).run [.addIndex "level" (.ofNat 1)]
    let result (b : SchemaBuilder) :=
      (Expression.plan (s b).schema (s b).log.costs [[⟨1, .ge, .float (.zero false)⟩]]).result
    ∃ b, SchemaBuilder.start.addColumnWithin .double "level" (.float (.zero false))
        (.float (.infinite false)) = .ok b ∧
      (s b).Reachable ∧ (s b).log.size = 1 ∧
      ∃ error, result b = .error error ∧ error.code = "TIDE_PLAN_INVARIANT_VIOLATION" := by
  intro s result
  have hbuilt : (SchemaBuilder.start.addColumnWithin .double "level" (.float (.zero false))
      (.float (.infinite false))).toOption.any fun b =>
        (s b).log.size = 1 ∧ ((result b).mapError PlanError.code).map (fun _ => ()) =
          .error "TIDE_PLAN_INVARIANT_VIOLATION" := by
    decide +kernel
  obtain ⟨b, hb, h⟩ := exists_ok_of_any hbuilt
  obtain ⟨hsize, hfatal⟩ := of_decide_eq_true h
  refine ⟨b, hb, ⟨b, _, .column .start hb, rfl⟩, hsize, ?_⟩
  cases hresult : result b with
  | ok plan => simp [hresult, Except.mapError, Except.map] at hfatal
  | error error =>
    rw [hresult, Except.mapError, Except.map, Except.error.injEq] at hfatal
    exact ⟨error, rfl, hfatal⟩

end BucketPlanner
