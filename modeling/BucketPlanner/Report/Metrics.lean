import BucketPlanner.Json.Basic

/-!
# Metrics

Counters of what planning did. They have 64 bits and start again at zero after the last number.
-/

namespace BucketPlanner

/-- The counters of planning. -/
structure Metrics where
  plansBuilt : UInt64
  fullScanFallbacks : UInt64
  mintermsUnsatisfiable : UInt64
  indexRangesEmitted : UInt64
  planningFailures : UInt64
  deriving DecidableEq

namespace Metrics

/-- All counters at zero. -/
def zero : Metrics := ⟨0, 0, 0, 0, 0⟩

instance : Inhabited Metrics := ⟨zero⟩

/-- The counters advanced by other counts. -/
def add (m n : Metrics) : Metrics where
  plansBuilt := m.plansBuilt + n.plansBuilt
  fullScanFallbacks := m.fullScanFallbacks + n.fullScanFallbacks
  mintermsUnsatisfiable := m.mintermsUnsatisfiable + n.mintermsUnsatisfiable
  indexRangesEmitted := m.indexRangesEmitted + n.indexRangesEmitted
  planningFailures := m.planningFailures + n.planningFailures

instance : Add Metrics := ⟨add⟩

/-- One plan more. -/
def plan : Metrics := { zero with plansBuilt := 1 }

/-- One full scan more. -/
def fullScan : Metrics := { zero with fullScanFallbacks := 1 }

/-- One unsatisfiable minterm more. -/
def unsatisfiable : Metrics := { zero with mintermsUnsatisfiable := 1 }

/-- A number of index ranges more. -/
def indexRanges (n : UInt64) : Metrics := { zero with indexRangesEmitted := n }

/-- One failure more. -/
def failure : Metrics := { zero with planningFailures := 1 }

/-- The counters as a JSON object. -/
def toJson (m : Metrics) : Json :=
  .ofMembers [
    ("plans_built", .number (.natural m.plansBuilt)),
    ("full_scan_fallbacks", .number (.natural m.fullScanFallbacks)),
    ("minterms_unsatisfiable", .number (.natural m.mintermsUnsatisfiable)),
    ("index_ranges_emitted", .number (.natural m.indexRangesEmitted)),
    ("planning_failures", .number (.natural m.planningFailures))]

end Metrics

end BucketPlanner
