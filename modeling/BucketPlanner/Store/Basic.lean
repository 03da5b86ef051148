import BucketPlanner.Bucket.Log
import BucketPlanner.Plan.Explanation
import BucketPlanner.Schema.Record
import BucketPlanner.Store.Config

/-!
# Stores

A store is made from a configuration: the schema is built, the declared indexes are added, and the
records are read and entered into the indexes, each at its place in the list. The clock is read for
each record, so its reading is a function of the place. Requests on a store are bound to its schema and
then planned or explained. What is to be logged goes with each result.
-/

namespace BucketPlanner

/-- A result together with the log entries made on the way to it. -/
structure Logged (ε α : Type) where
  entries : List LogEntry
  result : Except ε α

/-- A store of records with its schema and indexes. -/
structure Store where
  schema : Schema
  indexes : IndexLog
  records : List Record

namespace Store

/-- The entry about an index that was built. -/
def indexEntry (column : String) (id : IndexId) (bucketSize : Binary64) : LogEntry :=
  Event.indexBuilt.entry [
    ("column", column), ("index", id.render), ("bucket_size", (Value.float bucketSize).render)]

/-- Adds declared indexes one after the other. -/
def addIndexes :
    List (String × Binary64) → Schema → IndexLog → Logged CommandError (Schema × IndexLog)
  | [], schema, log => ⟨[], .ok (schema, log)⟩
  | (column, bucketSize) :: rest, schema, log =>
    match log.addIndex schema column bucketSize with
    | .error e => ⟨[], .error (.index e)⟩
    | .ok added =>
      let next := addIndexes rest added.schema added.log
      { next with entries := indexEntry column added.id bucketSize :: next.entries }

/-- Reads records and enters them into the indexes. The first one has the given place, and the clock
shows `clock n` when the record at the place `n` is read. -/
def addRecords (schema : Schema) (clock : Nat → UInt64) :
    Nat → List Json → IndexLog → Except CommandError (IndexLog × List Record)
  | _, [], log => .ok (log, [])
  | n, json :: rest, log => do
    let record ← (schema.readRecord (clock n) json).mapError CommandError.schema
    let entered := log.enter schema record (.ofNat n)
    match entered.error with
    | some e => throw (.index e)
    | none =>
      let (log, records) ← addRecords schema clock (n + 1) rest entered.log
      return (log, record :: records)

/-- Adds the declared indexes to a built schema and then the records. -/
def load (config : Config) (clock : Nat → UInt64) (schema : Schema) : Logged CommandError Store :=
  let indexed := addIndexes config.schema.indexDefs schema .empty
  { entries := indexed.entries
    result := do
      let (schema, log) ← indexed.result
      let (indexes, records) ← addRecords schema clock 0 config.records log
      return { schema, indexes, records } }

/-- Opens the store of a configuration, with the readings of the clock for its records. -/
def ofConfig (config : Config) (clock : Nat → UInt64) : Logged (Failure CommandError) Store :=
  match config.schema.build with
  | .error failure => ⟨[], .error (failure.map .schema)⟩
  | .ok schema =>
    let loaded := load config clock schema
    ⟨loaded.entries, loaded.result.mapError .reported⟩

/-- Binds the expression of a request to the schema of a store. -/
def bindRequest (store : Store) (request : Json) : Except CommandError Expression := do
  let named ← (NamedExpression.ofRequest request).mapError fun fault =>
    CommandError.invalidRequest (.shape fault)
  (named.bind store.schema).mapError CommandError.plan

/-- Plans an expression on a store. -/
def plan (store : Store) (e : Expression) : Planning := e.plan store.schema store.indexes.costs

/-- Answers a request with the operations of its plan, as JSON and as text, and the counters. -/
def planResponse (store : Store) (request : Json) : Logged CommandError Json :=
  match store.bindRequest request with
  | .error e => ⟨[], .error e⟩
  | .ok e =>
    let planning := store.plan e
    { entries := planning.entries
      result := match planning.result with
        | .error e => .error (.plan e)
        | .ok p => .ok (.ofMembers [
            ("ops", ScanOp.listToJson p.ops), ("plan", .text p.render),
            ("metrics", planning.metrics.toJson)]) }

/-- Answers a request with the explanation of its plan, as JSON and as text. An error of planning is
explained as well. -/
def explainResponse (store : Store) (request : Json) : Logged CommandError Json :=
  match store.bindRequest request with
  | .error e => ⟨[], .error e⟩
  | .ok e =>
    let planning := store.plan e
    let explanation := Explanation.ofResult planning.result
    { entries := planning.entries
      result := .ok (.ofMembers [
        ("explain", explanation.toJson), ("text", .text explanation.render)]) }

end Store

end BucketPlanner
