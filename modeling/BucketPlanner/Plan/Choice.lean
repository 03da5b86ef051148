import BucketPlanner.Bucket.Log
import BucketPlanner.Plan.PredicateRange

/-!
# Choosing an index for a minterm

The predicates of a minterm on indexed columns give one key range for each index, the intersection
of their ranges. A minterm whose ranges do not meet is unsatisfiable. Of the indexes that remain the
one with the fewest entries in its range is chosen, and of several such the one with the smallest
identifier.
-/

namespace BucketPlanner

/-- A key range for each of some indexes, in ascending order of the identifiers. -/
abbrev CandidateRanges := List (IndexId × KeyRange)

namespace CandidateRanges

/-- Narrows the range of an index; none when no key remains. -/
def narrow? (ranges : CandidateRanges) (id : IndexId) (range : KeyRange) : Option CandidateRanges :=
  let merged := match Ascending.find? id ranges with
    | some r => r.intersect range
    | none => range
  if merged.isValid then some (Ascending.put id merged ranges) else none

/-- The cheapest of a candidate and further ones; a later one has to be cheaper to be chosen. -/
def cheapest (cost : IndexId → KeyRange → Except PlanError Nat) (best : IndexId × KeyRange)
    (bestCost : Nat) : CandidateRanges → Except PlanError (IndexId × KeyRange)
  | [] => .ok best
  | (id, range) :: rest =>
    match cost id range with
    | .error e => .error e
    | .ok c =>
      if c < bestCost then cheapest cost (id, range) c rest else cheapest cost best bestCost rest

end CandidateRanges

/-- What becomes of a minterm. -/
inductive MintermOutcome
  /-- The predicates contradict each other. -/
  | unsatisfiable
  /-- No index serves a predicate. -/
  | noIndex
  /-- The keys of an index that are to be scanned. -/
  | indexRange (id : IndexId) (range : KeyRange)
  deriving DecidableEq

namespace Minterm

/-- Narrows candidate ranges by the predicates of a minterm, in order; none when two ranges of an
index do not meet. -/
def candidates (schema : Schema) :
    Minterm → CandidateRanges → Except PlanError (Option CandidateRanges)
  | [], ranges => .ok (some ranges)
  | p :: ps, ranges =>
    match schema.column? p.field with
    | none => .error (.unknownField p.field schema.size)
    | some column =>
      match column.indexId?, p.comparison.isRange with
      | some id, true =>
        match p.keyRange column with
        | .error e => .error e
        | .ok range =>
          match ranges.narrow? id range with
          | none => .ok none
          | some ranges => candidates schema ps ranges
      | _, _ => candidates schema ps ranges

/-- How many entries an index has in a range. -/
def costOf (schema : Schema) (costs : IndexCosts) (id : IndexId) (range : KeyRange) :
    Except PlanError Nat :=
  match costs id with
  | some cost => .ok (cost range)
  | none =>
    .error (.missingIndex id (((schema.columnOfIndex? id).map Column.name).getD "<unknown>"))

/-- The outcome of a minterm. -/
def outcome (schema : Schema) (costs : IndexCosts) (m : Minterm) :
    Except PlanError MintermOutcome :=
  match candidates schema m [] with
  | .error e => .error e
  | .ok none => .ok .unsatisfiable
  | .ok (some []) => .ok .noIndex
  | .ok (some ((id, range) :: rest)) =>
    match costOf schema costs id range with
    | .error e => .error e
    | .ok c =>
      (CandidateRanges.cheapest (costOf schema costs) (id, range) c rest).map fun best =>
        .indexRange best.1 best.2

end Minterm

end BucketPlanner
