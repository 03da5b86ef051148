import BucketPlanner.Filter.Named
import BucketPlanner.Json.Shape

/-!
# Requests

A request is a JSON object with the expression to be planned, `{"expression": [[{"field": "age",
"op": ">=", "value": 30}]]}`. A structure may also be given as the list of its fields. A request of
another shape is refused with the first fault that is met, members being taken in the order of
their names and missing fields being noticed after the present ones.

An expression that is a text of its own, `[[{"field": "age", "op": ">=", "value": 30}]]`, is read
by `NamedExpression.ofText?`. Its document has a shape: a field may not be written twice, and
members that are no fields are never made values, so they may hold anything.
-/

namespace BucketPlanner

open Json (Shape)

/-- What a JSON value is expected to be. -/
inductive ExpectedShape
  | structure (name : String)
  | sequence
  | text

/-- The wording of an expectation. -/
def ExpectedShape.wording : ExpectedShape → String
  | .structure name => s!"struct {name}"
  | .sequence => "a sequence"
  | .text => "a string"

/-- Why a JSON value is not of the shape of a request. -/
inductive ShapeFault
  | wrongKind (found : Json) (expected : ExpectedShape)
  | missingField (name : String)
  | tooShort (length : Nat) (structureName : String) (fields : Nat)
  | tooLong (length : Nat)

/-- The kind of a JSON value, with its value unless it is a list or an object. -/
def Json.kind : Json → String
  | .null => "null"
  | .bool b => s!"boolean `{b}`"
  | .number (.real x h) => s!"floating point `{(JsonNumber.real x h).text}`"
  | .number n => s!"integer `{n.text}`"
  | .text s => s!"string {quoted s}"
  | .list _ => "sequence"
  | .object _ => "map"

/-- The wording of a fault of shape. -/
def ShapeFault.message : ShapeFault → String
  | wrongKind found expected => s!"invalid type: {found.kind}, expected {expected.wording}"
  | missingField name => s!"missing field `{name}`"
  | tooShort length structureName fields =>
    let elements := if fields = 1 then "element" else "elements"
    s!"invalid length {length}, expected struct {structureName} with {fields} {elements}"
  | tooLong length => s!"invalid length {length}, expected fewer elements in array"

/-- The text that a JSON value is. -/
def Json.expectText : Json → Except ShapeFault String
  | .text s => .ok s
  | json => .error (.wrongKind json .text)

/-- The items of the list that a JSON value is. -/
def Json.expectList : Json → Except ShapeFault (List Json)
  | .list items => .ok items
  | json => .error (.wrongKind json .sequence)

namespace NamedPredicate

/-- Reads a predicate from the members of an object. -/
def ofMembers (members : List (String × Json)) : Except ShapeFault NamedPredicate := do
  let field ← (Ascending.find? "field" members).mapM Json.expectText
  let op ← (Ascending.find? "op" members).mapM Json.expectText
  match field, op, Ascending.find? "value" members with
  | none, _, _ => throw (.missingField "field")
  | _, none, _ => throw (.missingField "op")
  | _, _, none => throw (.missingField "value")
  | some field, some op, some value => return { field, op, value }

/-- Reads a predicate from the list of its fields. -/
def ofItems (items : List Json) : Except ShapeFault NamedPredicate :=
  let tooShort (length : Nat) : Except ShapeFault NamedPredicate :=
    .error (.tooShort length "PredicateSpec" 3)
  match items with
  | [] => tooShort 0
  | field :: rest => do
    let field ← field.expectText
    match rest with
    | [] => tooShort 1
    | op :: rest =>
      let op ← op.expectText
      match rest with
      | [] => tooShort 2
      | [value] => return { field, op, value }
      | _ => throw (.tooLong items.length)

/-- Reads a predicate. -/
def ofJson : Json → Except ShapeFault NamedPredicate
  | .object members => ofMembers members
  | .list items => ofItems items
  | json => .error (.wrongKind json (.structure "PredicateSpec"))

/-- The JSON shape of a predicate. -/
def shape : Shape NamedPredicate :=
  Shape.fields ["field", "op", "value"] fun levels slots =>
    match slots with
    | [field, op, value] => do
      let field ← Shape.required Shape.text levels field
      let op ← Shape.required Shape.text levels op
      let value ← Shape.required Shape.any levels value
      return { field, op, value }
    | _ => none

end NamedPredicate

/-- Reads an expression. -/
def NamedExpression.ofJson (json : Json) : Except ShapeFault NamedExpression := do
  (← json.expectList).mapM fun m => do (← m.expectList).mapM NamedPredicate.ofJson

/-- The JSON shape of an expression. -/
def NamedExpression.shape : Shape NamedExpression := .list (.list NamedPredicate.shape)

/-- Reads an expression from a text of its own. -/
def NamedExpression.ofText? (s : String) : Option NamedExpression :=
  Shape.ofText? NamedExpression.shape s

/-- The expression of a request. -/
def NamedExpression.ofRequest : Json → Except ShapeFault NamedExpression
  | .object members =>
    match Ascending.find? "expression" members with
    | none => .error (.missingField "expression")
    | some json => ofJson json
  | .list [] => .error (.tooShort 0 "PlanRequest" 1)
  | .list (json :: rest) => do
    let e ← ofJson json
    if rest.isEmpty then return e else throw (.tooLong (rest.length + 1))
  | json => .error (.wrongKind json (.structure "PlanRequest"))

end BucketPlanner
