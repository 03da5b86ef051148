import BucketPlanner.Proofs.Bucket.WholeSize
import BucketPlanner.Proofs.Plan.Assembly
import BucketPlanner.Proofs.Store.Opened

/-!
# Plans of a store lose no matching record

On an opened store every expression that is bound has a plan, and the plan covers the matching records:
unless it scans everything, a minterm contributes an index range that has the keys of the stored records
in the domain which satisfy it (`Store.plan_covers`). Strict comparisons have to separate the record from
the literal by a bucket (`Minterm.Separates`), which on integers in buckets of one they always do.
-/

namespace BucketPlanner

/-- The strict comparisons of a minterm are of values in different buckets, or of integers in buckets
of one. -/
def Minterm.Separates (m : Minterm) (schema : Schema) (record : Record) : Prop :=
  ∀ p ∈ m, p.comparison = .gt ∨ p.comparison = .lt → ∀ c ∈ schema.column? p.field,
    ∀ state ∈ c.index, ∀ v ∈ record[p.field]?,
      (c.type.isInteger ∧ state.bucketSize = .ofNat 1) ∨
        v.key? state.bucketSize ≠ p.value.key? state.bucketSize

instance (m : Minterm) (schema : Schema) (record : Record) :
    Decidable (m.Separates schema record) := by
  unfold Minterm.Separates
  infer_instance

/-! ### Buckets of one -/

/-- In buckets of one, different integers have different keys. -/
theorem Value.key?_ofNat_one_ne {v l : Value} {i j : Int} (hi : v.integer? = some i)
    (hj : l.integer? = some j) (hne : i ≠ j) : v.key? (.ofNat 1) ≠ l.key? (.ofNat 1) := by
  obtain ⟨k, hk, rfl⟩ := exists_key?_unit hi
  obtain ⟨m, hm, rfl⟩ := exists_key?_unit hj
  rw [hk, hm, ne_eq, Option.some.injEq]
  rintro rfl
  exact hne rfl

/-- A strict relation is one between different integers. -/
theorem Comparison.ne_of_relates {c : Comparison} {v l : Value} {i j : Int} (h : c.relates v l)
    (hc : c = .gt ∨ c = .lt) (hi : v.integer? = some i) (hj : l.integer? = some j) : i ≠ j := by
  obtain ⟨o, ho, hholds⟩ := relates_iff.1 h
  rw [Value.compare?_of_integer? hi hj, Option.some.injEq] at ho
  rintro rfl
  rcases hc with rfl | rfl <;> simp [← ho, holds] at hholds

/-! ### Bound expressions -/

/-- A bound predicate compares a column with a literal of the column's type. -/
def Predicate.IsBound (p : Predicate) (schema : Schema) : Prop :=
  ∃ c, schema.column? p.field = some c ∧ c.type.admits p.value

theorem NamedPredicate.bind_eq_ok {named : NamedPredicate} {schema : Schema} {p : Predicate}
    (h : named.bind schema = .ok p) : p.IsBound schema := by
  unfold NamedPredicate.bind at h
  split at h
  · simp at h
  · split at h
    · simp at h
    · split at h
      · simp at h
      next c hc =>
        split at h
        · simp at h
        next value hvalue =>
          rw [Except.ok.injEq] at h
          subst h
          exact ⟨c, hc, DataType.admits_valueOfJson? hvalue⟩

theorem Store.isBound_of_bindRequest {store : Store} {request : Json} {e : Expression}
    (h : store.bindRequest request = .ok e) : ∀ m ∈ e, ∀ p ∈ m, p.IsBound store.schema := by
  unfold bindRequest at h
  cases hnamed : NamedExpression.ofRequest request with
  | error fault => simp [hnamed, Except.mapError, bind, Except.bind] at h
  | ok named =>
    simp only [hnamed, Except.mapError, bind, Except.bind] at h
    split at h
    · simp at h
    next e' hbind =>
      rw [Except.ok.injEq] at h
      subst h
      intro m hm p hp
      obtain ⟨ps, -, hps⟩ := exists_mem_of_forall₂ (mapM_eq_ok_iff.1 hbind) hm
      obtain ⟨_, -, hp'⟩ := exists_mem_of_forall₂ (mapM_eq_ok_iff.1 hps) hp
      exact NamedPredicate.bind_eq_ok hp'

namespace Store

variable {store : Store} {clock : Nat → UInt64} {jsons : List Json} {e : Expression} {m : Minterm}
  {record : Record}

/-- **Every bound expression has a plan.** -/
theorem IsOpened.exists_plan (h : store.IsOpened clock jsons)
    (he : ∀ m ∈ e, ∀ p ∈ m, p.IsBound store.schema) :
    ∃ plan, (store.plan e).result = .ok plan := by
  apply Expression.exists_plan
  intro m hm
  apply Minterm.exists_outcome
  intro p hp
  obtain ⟨c, hc, hadmits⟩ := he m hm p hp
  refine ⟨c, hc, ?_⟩
  intro id hid
  obtain ⟨state, hstate, rfl⟩ := Option.map_eq_some_iff.1 hid
  obtain ⟨hindexable, hsize, hcost⟩ := h.indexed hc hstate
  refine ⟨hcost, ?_⟩
  intro hrange
  apply Predicate.exists_keyRange hrange hstate hsize (DataType.accepts_of_admits hadmits)
  · intro hint
    exact DataType.not_isFraction_of_admits hint hadmits
  · -- The literal and the ends of the domain are in one form, in which values have keys.
    intro v hv
    apply DataType.exists_key hindexable ?_ hsize
    simp only [List.mem_cons, List.not_mem_nil, or_false] at hv
    rcases hv with rfl | rfl | rfl
    · exact hadmits
    · exact (h.declared hc).admits_min
    · exact (h.declared hc).admits_max

/-- Keys of a store are fine enough for a bound minterm that separates a record which satisfies it. -/
theorem IsOpened.isSharp (h : store.IsOpened clock jsons)
    (hm : ∀ p ∈ m, p.IsBound store.schema) (hrecord : record ∈ store.records)
    (hholds : m.holds record) (hstrict : m.Separates store.schema record) :
    m.IsSharp store.schema record := by
  intro p hp hrange c hc state hstate v hv
  obtain ⟨c', hc', hliteral⟩ := hm p hp
  obtain rfl := Option.mem_unique hc' hc
  have hdeclared := h.declared hc
  have hvalue := h.admits hrecord hc hv
  refine {
    literal := DataType.isClearOf hvalue hliteral
    upper := fun _ => DataType.isClearOf hvalue hdeclared.admits_max
    lower := fun _ => DataType.isClearOf hvalue hdeclared.admits_min
    whole := fun hint _ => DataType.not_isFraction_of_admits hint hvalue
    strict := ?_ }
  intro hcmp _
  obtain ⟨hindexable, hsize, -⟩ := h.indexed hc hstate
  obtain ⟨k, hk⟩ := DataType.exists_key hindexable hvalue hsize
  refine ⟨by rw [hk]; rfl, ?_⟩
  rcases hstrict p hp hcmp c' hc state hstate v hv with ⟨hint, hone⟩ | hne
  · -- Different integers have different keys in buckets of one.
    obtain ⟨v', hv', hrel⟩ := Predicate.holds_iff.1 (List.all_eq_true.1 hholds p hp)
    obtain rfl := Option.mem_unique hv' hv
    obtain ⟨i, hi⟩ := DataType.integer?_of_admits hint hvalue
    obtain ⟨j, hj⟩ := DataType.integer?_of_admits hint hliteral
    rw [hone]
    exact Value.key?_ofNat_one_ne hi hj (Comparison.ne_of_relates hrel hcmp hi hj)
  · exact hne

/-- **A plan loses no matching record**: it is one full scan, or the minterm that a stored record in the
domain satisfies contributes an index range with the record's key. -/
theorem plan_covers {config : Config} {request : Json}
    (hopen : (ofConfig config clock).result = .ok store) (hbind : store.bindRequest request = .ok e)
    (hrecord : record ∈ store.records) (hdom : store.schema.Contains record) (hm : m ∈ e)
    (hholds : m.holds record) (hstrict : m.Separates store.schema record) :
    ∃ plan, (store.plan e).result = .ok plan ∧
      (plan.ops = [.fullScan] ∨
        plan.ops = e.flatMap (Minterm.contribution store.schema store.indexes.costs) ∧
          ∃ id range, m.contribution store.schema store.indexes.costs = [.indexRange id range] ∧
            ∃ k ∈ store.schema.keyOf? record id, k ∈ range) := by
  have hopened := ofConfig_eq_ok hopen
  have hbound := isBound_of_bindRequest hbind
  obtain ⟨added, hreach⟩ := hopened.reachable
  obtain ⟨plan, hplan⟩ := hopened.exists_plan hbound
  have hsharp := hopened.isSharp (hbound m hm) hrecord hholds hstrict
  exact ⟨plan, hplan,
    Expression.plan_of_keys hplan hm (Minterm.exists_key_mem hreach hdom hsharp hholds)⟩

/-- Ages from 30 to below 50, with an index on tens; the records are given no time stamps. -/
theorem plan_covers_ages :
    let config : Config := {
      logLevel := "warn"
      schema := ⟨[{
        name := "age", typeName := "int", size := none
        min := some (.number (.natural 0)), max := some (.number (.natural 120))
        index := some ⟨.ofNat 10⟩ }]⟩
      records := [
        .object [("age", .number (.natural 64))], .object [("age", .number (.natural 35))]] }
    let clock (n : Nat) : UInt64 := .ofNat (n + 6)
    let predicate (op : String) (n : UInt64) : Json :=
      .object [("field", .text "age"), ("op", .text op), ("value", .number (.natural n))]
    let request := Json.object [("expression", .list [.list [predicate ">=" 30, predicate "<" 50]])]
    let m : Minterm := [⟨1, .ge, .int 30⟩, ⟨1, .lt, .int 50⟩]
    ∃ store e plan, (ofConfig config clock).result = .ok store ∧ store.bindRequest request = .ok e ∧
      [.uint 7, .int 35] ∈ store.records ∧ store.schema.Contains [.uint 7, .int 35] ∧ m ∈ e ∧
      m.holds [.uint 7, .int 35] ∧ m.Separates store.schema [.uint 7, .int 35] ∧
      (store.plan e).result = .ok plan ∧
      (plan.ops = [.fullScan] ∨
        plan.ops = e.flatMap (Minterm.contribution store.schema store.indexes.costs) ∧
          ∃ id range, m.contribution store.schema store.indexes.costs = [.indexRange id range] ∧
            ∃ k ∈ store.schema.keyOf? [.uint 7, .int 35] id, k ∈ range) := by
  intro config clock predicate request m
  have hopen : (ofConfig config clock).result.toOption.any fun store =>
      decide ([.uint 7, .int 35] ∈ store.records ∧ store.schema.Contains [.uint 7, .int 35] ∧
        m.Separates store.schema [.uint 7, .int 35]) &&
      (store.bindRequest request).toOption.any fun e => decide (m ∈ e) := by
    decide +kernel
  obtain ⟨store, hstore, h⟩ := exists_ok_of_any hopen
  rw [Bool.and_eq_true, decide_eq_true_eq] at h
  obtain ⟨⟨hrecord, hdom, hstrict⟩, hbind⟩ := h
  obtain ⟨e, he, hm⟩ := exists_ok_of_any hbind
  rw [decide_eq_true_eq] at hm
  have hholds : m.holds [.uint 7, .int 35] := by decide +kernel
  obtain ⟨plan, hplan, hcovers⟩ := plan_covers hstore he hrecord hdom hm hholds hstrict
  exact ⟨store, e, plan, hstore, he, hrecord, hdom, hm, hholds, hstrict, hplan, hcovers⟩

end Store

end BucketPlanner
