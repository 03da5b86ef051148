import BucketPlanner.Bucket.Range
import BucketPlanner.Schema.Column

/-!
# Scan operations

A plan is carried out by scan operations: a scan of all records, or of those that an index has in a
range of keys. Operations are written in three forms, as text, as JSON in which keys beyond 64 bits
are texts, and as JSON in which all keys are numbers.
-/

namespace BucketPlanner

/-- A scan of records. -/
inductive ScanOp
  /-- All records. -/
  | fullScan
  /-- The records with keys in a range of an index. -/
  | indexRange (id : IndexId) (range : KeyRange)
  deriving DecidableEq, Inhabited

/-- A key as a JSON number if 64 bits can hold it, with or without sign, and as a text otherwise. -/
def Key.toJson (k : Key) : Json :=
  if 0 ≤ k.val ∧ k.val < 2 ^ 64 then .number (.natural (.ofNat k.val.toNat))
  else if -2 ^ 63 ≤ k.val ∧ k.val < 0 then .number (.negative (.ofInt k.val))
  else .text k.render

namespace ScanOp

/-- The operation as text. -/
def render : ScanOp → String
  | fullScan => "full_scan"
  | indexRange id range => s!"index_range(index={id}, range={range})"

/-- The operation as a JSON object, with the ends of the range in a list. -/
def toJson : ScanOp → Json
  | fullScan => .ofMembers [("op", .text "full_scan")]
  | indexRange id range =>
    .ofMembers [
      ("op", .text "index_range"),
      ("index", .ofNat id.position),
      ("range", .list [range.low.toJson, range.high.toJson])]

/-- The operation as the text of a JSON object whose keys are numbers of any size. -/
def renderJson : ScanOp → String
  | fullScan => "\x7b\"op\":\"full_scan\"\x7d"
  | indexRange id range =>
    "\x7b\"op\":\"index_range\",\"index\":" ++ id.render ++ ",\"range\":" ++ range.renderJson ++ "\x7d"

/-- A list of operations as text. -/
def renderList (ops : List ScanOp) : String :=
  "[" ++ String.intercalate ", " (ops.map render) ++ "]"

/-- A list of operations as a JSON list. -/
def listToJson (ops : List ScanOp) : Json := .list (ops.map toJson)

end ScanOp

end BucketPlanner
