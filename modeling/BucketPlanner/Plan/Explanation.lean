import BucketPlanner.Plan.Basic

/-!
# Explanations of plans

An explanation describes a plan with the names of the columns, or says why there is no plan.
-/

namespace BucketPlanner

/-- How a plan finds its records. -/
inductive Strategy
  | fullScan
  | empty
  | indexRange
  deriving DecidableEq

/-- The name of a strategy. -/
def Strategy.name : Strategy → String
  | fullScan => "FULL_SCAN"
  | empty => "EMPTY"
  | indexRange => "INDEX_RANGE"

/-- The strategy of a plan. -/
def Plan.strategy (p : Plan) : Strategy :=
  if p.isFullScan then .fullScan else if p.matchesNothing then .empty else .indexRange

/-- A description of the result of planning. -/
inductive Explanation
  /-- The strategy of a plan, its minterms and its operations. -/
  | accepted (strategy : Strategy) (minterms operations : List String)
  /-- The code and the wording of an error. -/
  | rejected (code reason : String)
  deriving DecidableEq

namespace Explanation

/-- The description of an operation. -/
def ofOp (schema : Schema) : ScanOp → String
  | .fullScan => "full_scan"
  | .indexRange id range =>
    let column := ((schema.columnOfIndex? id).map Column.name).getD "?"
    s!"index_range({column} via index {id}, {range})"

/-- The description of a plan. -/
def ofPlan (p : Plan) : Explanation :=
  .accepted p.strategy (p.expression.map fun m => Minterm.describe m p.schema)
    (p.ops.map (ofOp p.schema))

/-- The description of an error. -/
def ofError (e : PlanError) : Explanation := .rejected e.code e.message

/-- The description of the result of planning. -/
def ofResult : Except PlanError Plan → Explanation
  | .ok p => ofPlan p
  | .error e => ofError e

/-- The explanation as a JSON object. -/
def toJson : Explanation → Json
  | accepted strategy minterms operations =>
    .ofMembers [
      ("accepted", .bool true), ("strategy", .text strategy.name),
      ("minterms", .ofTexts minterms), ("operations", .ofTexts operations),
      ("rejection_reason", .null), ("rejection_code", .null)]
  | rejected code reason =>
    .ofMembers [
      ("accepted", .bool false), ("strategy", .null),
      ("minterms", .ofTexts []), ("operations", .ofTexts []),
      ("rejection_reason", .text reason), ("rejection_code", .text code)]

/-- A headed list of lines; nothing when there are none. -/
private def block (heading : String) (lines : List String) : List String :=
  if lines.isEmpty then [] else heading :: lines

/-- The lines of an explanation. -/
def lines : Explanation → List String
  | accepted strategy minterms operations =>
    ["=== EXPLAIN PLAN ===", "Status: ACCEPTED", s!"Strategy: {strategy.name}"] ++
      block "Minterms:" (minterms.zipIdx.map fun (m, i) => s!"  {i}. {m}") ++
      block "Operations:" (operations.map fun op => s!"  - {op}")
  | rejected code reason =>
    ["=== EXPLAIN PLAN ===", "Status: REJECTED", s!"Error Code: {code}", s!"Reason: {reason}"]

/-- The explanation as text. -/
def render (e : Explanation) : String := String.join (e.lines.map (· ++ "\n"))

end Explanation

end BucketPlanner
