import BucketPlanner.Proofs.Plan.Assembly
import BucketPlanner.Proofs.Plan.Outcome
import Mathlib.Data.List.Forall2

/-!
# The operations of a plan

* `Expression.ops_plan_append`: the operations for a disjunction are those for its sides, one after
  the other, unless a side has an error or needs a full scan;
* `Expression.plan_shape`: a plan is a full scan when some minterm has no indexable predicate, and
  otherwise it has one range for each satisfiable minterm.
-/

namespace BucketPlanner

/-- The operations of a plan, if there is one. -/
def Planning.ops (p : Planning) : Except PlanError (List ScanOp) := p.result.map Plan.ops

namespace Minterm

variable {schema : Schema} {costs : IndexCosts} {m : Minterm} {o : MintermOutcome}
  {id : IndexId} {range : KeyRange}

/-- The outcome is that no record satisfies the minterm. -/
def isUnsatisfiable (schema : Schema) (costs : IndexCosts) (m : Minterm) : Bool :=
  match outcome schema costs m with
  | .ok .unsatisfiable => true
  | _ => false

/-- A minterm contributes an operation: the range of the index chosen for it. -/
def Contributes (schema : Schema) (costs : IndexCosts) (m : Minterm) (op : ScanOp) : Prop :=
  ∃ id range, outcome schema costs m = .ok (.indexRange id range) ∧ op = .indexRange id range

/-- An operation serves a minterm: it scans a range of keys in an index that is there, on a column
that the minterm has a predicate for. -/
def IsServedBy (schema : Schema) (costs : IndexCosts) (m : Minterm) (op : ScanOp) : Prop :=
  ∃ id range, op = .indexRange id range ∧ range.low ≤ range.high ∧ (costs id).isSome ∧
    ∃ p ∈ m, p.comparison.isRange ∧ ∃ c ∈ schema.column? p.field, c.indexId? = some id

theorem isUnsatisfiable_iff (h : outcome schema costs m = .ok o) :
    isUnsatisfiable schema costs m ↔ o = .unsatisfiable := by
  unfold isUnsatisfiable
  rw [h]
  cases o <;> simp

theorem isServedBy_of_outcome (h : outcome schema costs m = .ok (.indexRange id range)) :
    IsServedBy schema costs m (.indexRange id range) := by
  obtain ⟨hvalid, hcost, p, hp, r, c, hc, hid, hrange, -⟩ := isValid_of_outcome h
  exact ⟨id, range, rfl, KeyRange.isValid_iff_le.1 hvalid, hcost, p, hp, hrange, c, hc, hid⟩

end Minterm

namespace Expression

variable {schema : Schema} {costs : IndexCosts} {e : Expression}

theorem ops_plan (schema : Schema) (costs : IndexCosts) (e : Expression) :
    (plan schema costs e).ops = (coverage schema costs e).map Coverage.ops := by
  rw [Planning.ops, plan_result]
  cases coverage schema costs e <;> rfl

/-- **Planning a disjunction.** An error of the first side, or a full scan for it, is all there is.
Otherwise the same goes for the second side, and if both have ranges, they are scanned one after the
other. -/
theorem ops_plan_append (schema : Schema) (costs : IndexCosts) (e₁ e₂ : Expression) :
    (plan schema costs (e₁ ++ e₂)).ops =
      match (plan schema costs e₁).ops, (plan schema costs e₂).ops with
      | .error error, _ => .error error
      | .ok [.fullScan], _ => .ok [.fullScan]
      | .ok _, .error error => .error error
      | .ok _, .ok [.fullScan] => .ok [.fullScan]
      | .ok ops₁, .ok ops₂ => .ok (ops₁ ++ ops₂) := by
  simp only [ops_plan, coverage_append]
  rcases coverage schema costs e₁ with error | (_ | rs)
  · rfl
  · rfl
  · -- Operations for ranges are not those of a full scan, which tells the last cases apart.
    have hrs := Coverage.ops_ranges_ne rs
    rcases coverage schema costs e₂ with error | (_ | rs')
    · simp only [Coverage.orElse, Except.map]
    · simp only [Coverage.orElse, Except.map, Coverage.union, Coverage.ops_everything]
    · have hrs' := Coverage.ops_ranges_ne rs'
      simp only [Coverage.orElse, Except.map, Coverage.union, Coverage.ops_ranges_append]

/-- What minterms with an index contribute: the range of its outcome for each that is satisfiable. -/
theorem forall₂_contributes
    (h : ∀ m ∈ e, ∃ o, Minterm.outcome schema costs m = .ok o ∧ o ≠ .noIndex) :
    List.Forall₂ (Minterm.Contributes schema costs)
      (e.filter fun m => !Minterm.isUnsatisfiable schema costs m)
      (e.flatMap (Minterm.contribution schema costs)) := by
  induction e with
  | nil => exact .nil
  | cons m ms ih =>
    obtain ⟨⟨o, ho, hne⟩, hms⟩ := List.forall_mem_cons.1 h
    rw [List.filter_cons, List.flatMap_cons, Minterm.contribution, ho]
    cases o with
    | noIndex => exact absurd rfl hne
    | unsatisfiable =>
      rw [(Minterm.isUnsatisfiable_iff ho).2 rfl]
      exact ih hms
    | indexRange id range =>
      have hsat : ¬ Minterm.isUnsatisfiable schema costs m := by
        simp [Minterm.isUnsatisfiable_iff ho]
      rw [if_pos (by simpa using hsat)]
      exact .cons ⟨id, range, ho, rfl⟩ (ih hms)

/-- Each operation that minterms with an index contribute serves its minterm. -/
theorem forall₂_contribution
    (h : ∀ m ∈ e, ∃ o, Minterm.outcome schema costs m = .ok o ∧ o ≠ .noIndex) :
    List.Forall₂ (Minterm.IsServedBy schema costs)
      (e.filter fun m => !Minterm.isUnsatisfiable schema costs m)
      (e.flatMap (Minterm.contribution schema costs)) := by
  refine (forall₂_contributes h).imp fun m op hop => ?_
  obtain ⟨id, range, ho, rfl⟩ := hop
  exact Minterm.isServedBy_of_outcome ho

/-- **The shape of a plan.** It is one full scan exactly when some minterm has no predicate that an
index is of use for. Otherwise it has one operation for each minterm but those whose ranges of some
index share no key, in the order of the minterms, and each operation serves its minterm. -/
theorem plan_shape {plan : Plan} (h : (e.plan schema costs).result = .ok plan) :
    (plan.ops = [.fullScan] ↔ ∃ m ∈ e, ∀ p ∈ m, ¬ p.isIndexable schema) ∧
    (plan.ops ≠ [.fullScan] →
      (∀ m ∈ e, Minterm.isUnsatisfiable schema costs m ↔
        ∃ i ∈ (Minterm.given m schema).indexes, (Minterm.given m schema).keys i = ∅) ∧
      List.Forall₂ (Minterm.IsServedBy schema costs)
        (e.filter fun m => !Minterm.isUnsatisfiable schema costs m) plan.ops) := by
  rcases plan_cases h with ⟨hfull, m, hm, hnoIndex⟩ | ⟨hops, hall⟩
  · have hidle := (Minterm.outcome_eq_noIndex_iff hnoIndex).1 rfl
    exact ⟨iff_of_true hfull ⟨m, hm, hidle⟩, fun hne => absurd hfull hne⟩
  · have hserved := forall₂_contribution hall
    rw [← hops] at hserved
    refine ⟨iff_of_false ?_ ?_, fun _ => ⟨fun m hm => ?_, hserved⟩⟩
    · intro hfull
      rw [hfull] at hserved
      obtain ⟨m, ms, ⟨id, range, hop, -⟩, -⟩ := List.forall₂_cons_right_iff.1 hserved
      simp at hop
    · rintro ⟨m, hm, hidle⟩
      obtain ⟨o, ho, hne⟩ := hall m hm
      exact hne ((Minterm.outcome_eq_noIndex_iff ho).2 hidle)
    · obtain ⟨o, ho, -⟩ := hall m hm
      exact (Minterm.isUnsatisfiable_iff ho).trans (Minterm.outcome_eq_unsatisfiable_iff ho)

/-- A time stamp with an index, and a contradiction before two comparisons. -/
theorem plan_shape_contradiction :
    let column : Column :=
      { position := 0, offset := 0, name := "TIMESTAMP", type := .ulong,
        min := DataType.ulong.least, max := DataType.ulong.greatest,
        index := some ⟨⟨0⟩, .ofNat 10⟩ }
    let schema : Schema := ⟨[column], 8⟩
    let costs : IndexCosts := fun id => if id = ⟨0⟩ then some fun _ => 0 else none
    let low : Minterm := [⟨0, .neq, .uint 7⟩, ⟨0, .lt, .uint 30⟩]
    let high : Minterm := [⟨0, .gt, .uint 50⟩]
    ∃ p, (plan schema costs [low ++ high, high, low]).result = .ok p ∧
      List.Forall₂ (Minterm.IsServedBy schema costs) [high, low] p.ops := by
  intro column schema costs low high
  have hok : (plan schema costs [low ++ high, high, low]).result.isOk := by decide +kernel
  cases hplan : (plan schema costs [low ++ high, high, low]).result with
  | error error => simp [hplan, Except.isOk, Except.toBool] at hok
  | ok p =>
    obtain ⟨hfull, hserved⟩ := plan_shape hplan
    have hindexable : ¬ ∃ m ∈ [low ++ high, high, low], ∀ p ∈ m, ¬ p.isIndexable schema := by
      decide +kernel
    have hfilter : ([low ++ high, high, low].filter fun m =>
        !Minterm.isUnsatisfiable schema costs m) = [high, low] := by
      decide +kernel
    have hall := (hserved fun h => hindexable (hfull.1 h)).2
    rw [hfilter] at hall
    exact ⟨p, rfl, hall⟩

end Expression

end BucketPlanner
