import BucketPlanner.Plan.Choice
import BucketPlanner.Plan.Scan
import BucketPlanner.Report.Entry
import BucketPlanner.Report.Metrics

/-!
# Planning

A plan covers an expression by scan operations. Every satisfiable minterm contributes the range of
the index chosen for it, and a minterm that no index serves makes the plan a single full scan.
Planning a given expression also yields what is to be logged and counted; nothing else is affected.
-/

namespace BucketPlanner

/-- The records to be scanned. -/
inductive Coverage
  /-- All records. -/
  | everything
  /-- The records in ranges of indexes. -/
  | ranges (rs : List (IndexId × KeyRange))
  deriving DecidableEq

namespace Coverage

/-- The coverage with a range in front; everything remains everything. -/
def withRange (id : IndexId) (range : KeyRange) : Coverage → Coverage
  | everything => everything
  | ranges rs => ranges ((id, range) :: rs)

/-- The scan operations of a coverage. -/
def ops : Coverage → List ScanOp
  | everything => [.fullScan]
  | ranges rs => rs.map fun r => .indexRange r.1 r.2

end Coverage

/-- A plan: the expression that was planned, the schema it is about and the operations. -/
structure Plan where
  schema : Schema
  expression : Expression
  ops : List ScanOp

namespace Plan

/-- The plan is one full scan. -/
def isFullScan (p : Plan) : Bool := p.ops = [.fullScan]

/-- The plan has no operations, so no record matches. -/
def matchesNothing (p : Plan) : Bool := p.ops.isEmpty

/-- The operations as text. -/
def render (p : Plan) : String := ScanOp.renderList p.ops

end Plan

/-- What going through the minterms of an expression yields. -/
structure Assembly where
  coverage : Except PlanError Coverage
  entries : List LogEntry
  metrics : Metrics

/-- What planning an expression yields: the plan, what is to be logged, and what is to be counted. -/
structure Planning where
  result : Except PlanError Plan
  entries : List LogEntry
  metrics : Metrics

namespace Expression

/-- The entry about a minterm at a place. -/
def mintermEntry (event : Event) (position : Nat) : LogEntry :=
  event.entry [("minterm", toString position)]

/-- Goes through minterms, of which the first has the given place. -/
def assemble (schema : Schema) (costs : IndexCosts) : Nat → Expression → Assembly
  | _, [] => ⟨.ok (.ranges []), [], .zero⟩
  | position, m :: ms =>
    match Minterm.outcome schema costs m with
    | .error e => ⟨.error e, [], .zero⟩
    | .ok .noIndex =>
      ⟨.ok .everything, [mintermEntry .planFullScanFallback position], .fullScan⟩
    | .ok .unsatisfiable =>
      let rest := assemble schema costs (position + 1) ms
      { rest with
        entries := mintermEntry .planMintermUnsatisfiable position :: rest.entries
        metrics := .unsatisfiable + rest.metrics }
    | .ok (.indexRange id range) =>
      let rest := assemble schema costs (position + 1) ms
      { rest with
        coverage := rest.coverage.map (Coverage.withRange id range)
        metrics := .indexRanges 1 + rest.metrics }

/-- Plans an expression. -/
def plan (schema : Schema) (costs : IndexCosts) (e : Expression) : Planning :=
  let assembly := assemble schema costs 0 e
  match assembly.coverage with
  | .ok coverage =>
    let complete := Event.planComplete.entry
      [("minterms", toString e.length), ("ops", toString coverage.ops.length)]
    { result := .ok ⟨schema, e, coverage.ops⟩
      entries := assembly.entries ++ [complete]
      metrics := assembly.metrics + .plan }
  | .error error =>
    let failed := Event.planFailed.entry [("code", error.code), ("message", error.message)]
    { result := .error error
      entries := assembly.entries ++ [failed]
      metrics := assembly.metrics + .failure }

end Expression

end BucketPlanner
