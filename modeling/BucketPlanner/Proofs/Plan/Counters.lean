import BucketPlanner.Proofs.Bucket.Run
import BucketPlanner.Proofs.Plan.Report

/-!
# Counters that plans share

Calls for plans can share their counters. These then hold the numbers of plans, failures and full
scans, and the number of ranges in the plans as long as no range was found that is in no plan
(`PlanCall.counters_agree_iff`).
-/

namespace BucketPlanner

/-- An operation scans a range of an index. -/
def ScanOp.isIndexRange : ScanOp → Bool
  | indexRange .. => true
  | fullScan => false

/-- A call for the plan of an expression. -/
structure PlanCall where
  schema : Schema
  costs : IndexCosts
  expression : Expression

namespace PlanCall

/-- What a call yields. -/
def planning (c : PlanCall) : Planning := c.expression.plan c.schema c.costs

/-- The course that planning takes. -/
def course (c : PlanCall) : Course := Expression.course c.schema c.costs c.expression.zipIdx

/-- A call is answered with a plan. -/
def isAnswered (c : PlanCall) : Bool := c.planning.result.isOk

/-- A call is answered with a full scan. -/
def isFullScan (c : PlanCall) : Bool := c.planning.result.toOption.any Plan.isFullScan

/-- How many index ranges the plan has with which a call is answered. -/
def rangesReturned (c : PlanCall) : Nat :=
  match c.planning.ops with
  | .ok ops => ops.countP ScanOp.isIndexRange
  | .error _ => 0

/-- How many ranges are found although there is no plan with them, because a full scan or an error
follows. -/
def rangesLost (c : PlanCall) : Nat :=
  match c.course.ending with
  | .complete => 0
  | .fallback _ | .failure .. => c.course.ranges.length

/-- The counters after calls one after the other, from zero. -/
def counters (calls : List PlanCall) : Metrics :=
  calls.foldl (fun counters c => counters + c.planning.metrics) .zero

variable {calls : List PlanCall} {c : PlanCall}

theorem counters_concat (calls : List PlanCall) (c : PlanCall) :
    counters (calls ++ [c]) = counters calls + c.planning.metrics := by
  rw [counters, List.foldl_append]
  rfl

theorem result_planning (c : PlanCall) :
    c.planning.result = (c.course.ending.coverage c.course.ranges).map
      fun coverage => ⟨c.schema, c.expression, coverage.ops⟩ := by
  rw [planning, Expression.plan_result, Expression.coverage_eq_of_course]
  rfl

theorem isFullScan_eq (c : PlanCall) : c.isFullScan = c.course.ending.fallback?.isSome := by
  rw [isFullScan, result_planning]
  cases c.course.ending with
  | complete =>
    have hops := Coverage.ops_ranges_ne c.course.ranges
    exact decide_eq_false hops
  | fallback position => rfl
  | failure position error => rfl

/-- The ranges that are found are those of the plan and those that are lost. -/
theorem length_ranges (c : PlanCall) :
    c.course.ranges.length = c.rangesReturned + c.rangesLost := by
  rw [rangesReturned, Planning.ops, result_planning, rangesLost]
  cases c.course.ending with
  | complete =>
    simp [Ending.coverage, Except.map, Coverage.ops, List.countP_map, Function.comp_def,
      ScanOp.isIndexRange]
  | fallback position => simp [Ending.coverage, Except.map, Coverage.ops, ScanOp.isIndexRange]
  | failure position error => simp [Ending.coverage, Except.map]

/-- **What one call adds** to the counters. -/
theorem metrics_planning (c : PlanCall) :
    c.planning.metrics = .ofCounts c.isAnswered.toNat c.isFullScan.toNat c.course.dropped.length
      (c.rangesReturned + c.rangesLost) (!c.isAnswered).toNat := by
  have hfallback : c.isFullScan.toNat = c.course.ending.fallback?.toList.length := by
    rw [isFullScan_eq]
    cases c.course.ending.fallback? <;> rfl
  rw [hfallback, ← length_ranges]
  exact Expression.metrics_eq_of_course c.schema c.costs c.expression

/-- **What the counters hold** after calls. -/
theorem counters_eq (calls : List PlanCall) :
    counters calls = .ofCounts (calls.countP isAnswered) (calls.countP isFullScan)
      (calls.map fun c => c.course.dropped.length).sum
      ((calls.map rangesReturned).sum + (calls.map rangesLost).sum)
      (calls.countP fun c => !c.isAnswered) := by
  have htoNat : ∀ b : Bool, b.toNat = if b then 1 else 0 := by decide
  induction calls using List.reverseRecOn with
  | nil => rfl
  | append_singleton calls c ih =>
    rw [counters_concat, ih, metrics_planning, Metrics.ofCounts_add]
    simp only [List.countP_append, List.countP_singleton, List.map_append, List.sum_append,
      List.map_singleton, List.sum_singleton, htoNat, Nat.add_add_add_comm]

theorem ofNat_add_eq_left_iff {a b : Nat} :
    UInt64.ofNat (a + b) = UInt64.ofNat a ↔ 2 ^ 64 ∣ b := by
  rw [← UInt64.toNat_inj, UInt64.toNat_ofNat', UInt64.toNat_ofNat', Nat.dvd_iff_mod_eq_zero]
  omega

/-- **Shared counters** hold the numbers of plans, of failures and of full scans. They hold the
number of ranges in the plans exactly when the number of ranges that were found in front of a full
scan or an error is zero, or at least comes to zero in 64 bits. -/
theorem counters_agree_iff (calls : List PlanCall) :
    (counters calls).plansBuilt = .ofNat (calls.countP isAnswered) ∧
    (counters calls).planningFailures = .ofNat (calls.countP fun c => !c.isAnswered) ∧
    (counters calls).fullScanFallbacks = .ofNat (calls.countP isFullScan) ∧
    ((counters calls).indexRangesEmitted = .ofNat (calls.map rangesReturned).sum ↔
      2 ^ 64 ∣ (calls.map rangesLost).sum) := by
  rw [counters_eq]
  exact ⟨rfl, rfl, rfl, ofNat_add_eq_left_iff⟩

/-- A range that is counted although it is in no plan: a minterm without an index or with an error
comes after it. -/
theorem exists_counters_ne :
    let s := (Indexing.start SchemaBuilder.start.build).run [.addIndex "timestamp" (.ofNat 1)]
    let call (m : Minterm) : PlanCall := ⟨s.schema, s.log.costs, [[⟨0, .ge, .uint 5⟩], m]⟩
    ∀ m ∈ [[⟨0, .neq, .uint 3⟩], [⟨7, .eq, .uint 3⟩]],
      (counters [call m]).indexRangesEmitted = 1 ∧ (call m).rangesReturned = 0 := by
  decide +kernel

end PlanCall

end BucketPlanner
