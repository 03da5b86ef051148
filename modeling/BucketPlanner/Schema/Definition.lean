import BucketPlanner.Json.Shape
import BucketPlanner.Schema.Builder

/-!
# Schema definitions

A definition declares the columns of a schema in JSON, with the indexes to be kept on them:

    {"columns": [{"name": "age", "type": "int", "min": 0, "max": 120, "index": {"bucket_size": 1}},
                 {"name": "name", "type": "string", "size": 16}]}

`SchemaDef.ofText` reads a definition, `SchemaDef.toJson` writes it, and `SchemaDef.build` makes the
schema, still without indexes.
-/

namespace BucketPlanner

/-- The declaration of an index. -/
structure IndexDef where
  bucketSize : Binary64

/-- The declaration of a column. -/
structure ColumnDef where
  name : String
  typeName : String
  /-- The width of a string in bytes. -/
  size : Option UInt64
  /-- The least value of the domain, if it is not that of the type. -/
  min : Option Json
  /-- The greatest value of the domain, if it is not that of the type. -/
  max : Option Json
  index : Option IndexDef

/-- The declaration of a schema. -/
structure SchemaDef where
  columns : List ColumnDef

open Json (Shape)

namespace IndexDef

/-- The bucket size of an index that declares none. -/
def defaultBucketSize : Binary64 := .ofNat 1

/-- The JSON shape of an index declaration. -/
def shape : Shape IndexDef :=
  Shape.fields ["bucket_size"] fun levels slots =>
    match slots with
    | [bucketSize] =>
      (Shape.withDefault Shape.number defaultBucketSize levels bucketSize).map IndexDef.mk
    | _ => none

/-- The JSON form of an index declaration. -/
def toJson (d : IndexDef) : Json := .object [("bucket_size", (Value.float d.bucketSize).toJson)]

end IndexDef

namespace ColumnDef

/-- The JSON shape of a column declaration. -/
def shape : Shape ColumnDef :=
  Shape.fields ["name", "type", "size", "min", "max", "index"] fun levels slots =>
    match slots with
    | [name, type, size, min, max, index] => do
      let name ← Shape.required Shape.text levels name
      let typeName ← Shape.required Shape.text levels type
      let size ← Shape.withDefault (.optional Shape.natural) none levels size
      let min ← Shape.withDefault (.optional Shape.any) none levels min
      let max ← Shape.withDefault (.optional Shape.any) none levels max
      let index ← Shape.withDefault (.optional IndexDef.shape) none levels index
      return { name, typeName, size, min, max, index }
    | _ => none

/-- A member that is written only when there is a value. -/
private def member (name : String) (value : Option Json) : List (String × Json) :=
  (value.map (name, ·)).toList

/-- The JSON form of a column declaration, with the members in the order of the declaration. -/
def toJson (d : ColumnDef) : Json :=
  .object <|
    [("name", .text d.name), ("type", .text d.typeName)] ++
    member "size" (d.size.map fun n => .number (.natural n)) ++
    member "min" d.min ++ member "max" d.max ++ member "index" (d.index.map IndexDef.toJson)

/-- The declared end of the domain, read as a literal of the type. -/
def boundValue (d : ColumnDef) (type : DataType) (bound : Bound) :
    Except SchemaError (Option Value) :=
  match (match bound with | .min => d.min | .max => d.max) with
  | none => .ok none
  | some json =>
    match type.valueOfJson? json with
    | some v => .ok (some v)
    | none => .error (.invalidBounds d.name (.notLiteral bound json type))

/-- Adds the declared column to a schema. -/
def addTo (d : ColumnDef) (b : SchemaBuilder) : Except (Failure SchemaError) SchemaBuilder :=
  match DataType.ofName? d.typeName d.size with
  | none => .error (.reported (.invalidType d.name (.unknownType d.typeName d.size)))
  | some type => do
    let min := (← (d.boundValue type .min).mapError .reported).getD type.least
    let max := (← (d.boundValue type .max).mapError .reported).getD type.greatest
    b.addColumnWithin type d.name min max

end ColumnDef

namespace SchemaDef

/-- The JSON shape of a definition. -/
def shape : Shape SchemaDef :=
  Shape.fields ["columns"] fun levels slots =>
    match slots with
    | [columns] => (Shape.required (.list ColumnDef.shape) levels columns).map SchemaDef.mk
    | _ => none

/-- Reads a definition. -/
def ofText (s : String) : Except SchemaError SchemaDef :=
  match Shape.ofText? shape s with
  | some d => .ok d
  | none => .error (.malformed "Invalid schema JSON: not a schema definition")

/-- The JSON form of a definition. -/
def toJson (d : SchemaDef) : Json := .object [("columns", .list (d.columns.map ColumnDef.toJson))]

/-- The schema of the declared columns, without indexes. -/
def build (d : SchemaDef) : Except (Failure SchemaError) Schema :=
  (d.columns.foldlM (fun b (c : ColumnDef) => c.addTo b) SchemaBuilder.start).map
    SchemaBuilder.build

/-- The declared indexes with the names of their columns, in order. -/
def indexDefs (d : SchemaDef) : List (String × Binary64) :=
  d.columns.filterMap fun c => c.index.map fun i => (c.name, i.bucketSize)

end SchemaDef

end BucketPlanner
