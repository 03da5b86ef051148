import BucketPlanner.Proofs.Json.Shapes
import BucketPlanner.Proofs.Value.DataType
import BucketPlanner.Schema.Definition

/-!
# Written definitions

A definition that was read is written out in one form, whatever form it was read from: as objects,
without the members that are absent, and with the bucket sizes that were left out. Reading this form
gives the definition again (`SchemaDef.ofText_render`).
-/

namespace BucketPlanner

open Json (Document Shape)

variable {levels : Nat} {d : Document}

namespace IndexDef

variable {i : IndexDef}

/-- The members of a declaration. -/
def fields (i : IndexDef) (h : i.bucketSize.isFinite) : List (String × Option Json) :=
  [("bucket_size", some (.number (.real i.bucketSize h)))]

theorem toJson_eq (h : i.bucketSize.isFinite) : i.toJson = .object (Shape.present (i.fields h)) := by
  rw [toJson, Value.toJson, JsonNumber.ofBinary64?, dif_pos h]
  rfl

theorem mem_numbers_toJson (h : i.bucketSize.isFinite) {n : JsonNumber} :
    n ∈ i.toJson.numbers ↔ n = .real i.bucketSize h := by
  rw [toJson_eq h, Json.mem_numbers_object]
  simp [fields, Shape.present, Json.numbers]

/-- Bucket sizes that are read are finite. -/
theorem isFinite_of_shape (h : shape levels d = some i) : i.bucketSize.isFinite := by
  obtain ⟨below, slots, -, hmake⟩ := Shape.exists_of_fields h
  split at hmake
  next slot =>
    obtain ⟨x, hx, rfl⟩ := Option.map_eq_some_iff.1 hmake
    cases slot with
    | none =>
      rw [← Option.some.inj hx]
      decide +kernel
    | some d =>
      cases d with
      | numeral =>
        obtain ⟨n, -, rfl⟩ := Option.map_eq_some_iff.1 hx
        exact n.isFinite_toBinary64
      | null | bool | text | list | object => simp [Shape.withDefault, Shape.number] at hx
  next => simp at hmake

theorem shape_document (h : i.bucketSize.isFinite) (hread : (JsonNumber.real _ h).IsReadBack)
    (levels : Nat) : shape (levels + 1) i.toJson.document = some i := by
  rw [toJson_eq h, shape]
  refine (Shape.fields_document (i.fields h) (by simp [fields]) _ levels).trans ?_
  simp only [fields, List.map_cons, List.map_nil, Option.map_some, Json.document, Shape.withDefault,
    Shape.number, hread.jsonNumber?_numeral]
  rfl

end IndexDef

namespace ColumnDef

variable {c : ColumnDef}

/-- The members of a declaration, with those that are left out. -/
def fields (c : ColumnDef) : List (String × Option Json) :=
  [("name", some (.text c.name)), ("type", some (.text c.typeName)),
    ("size", c.size.map fun n => .number (.natural n)), ("min", c.min), ("max", c.max),
    ("index", c.index.map IndexDef.toJson)]

theorem toJson_eq (c : ColumnDef) : c.toJson = .object (Shape.present c.fields) := by
  obtain ⟨name, typeName, size, min, max, index⟩ := c
  cases size <;> cases min <;> cases max <;> cases index <;> rfl

theorem mem_numbers_toJson {n : JsonNumber} :
    n ∈ c.toJson.numbers ↔ ∃ name j, (name, some j) ∈ c.fields ∧ n ∈ j.numbers := by
  rw [toJson_eq, Json.mem_numbers_object]
  simp only [Shape.mem_present, Prod.exists]

/-- What is known of a declaration whose bounds are read with so many levels. -/
structure IsReadable (levels : Nat) (c : ColumnDef) : Prop where
  bound : ∀ j, c.min = some j ∨ c.max = some j → j ≠ .null ∧ j.IsReadable levels
  index : ∀ i, c.index = some i → i.bucketSize.isFinite

/-- **Every declaration that is read** is readable. -/
theorem isReadable_of_shape (h : shape (levels + 1) d = some c) : c.IsReadable levels := by
  obtain ⟨below, slots, hlevels, hmake⟩ := Shape.exists_of_fields h
  obtain rfl := Nat.succ.inj hlevels
  -- A bound that is read is one that is read from something else than `null`.
  have hbound : ∀ {slot : Option Document} {value : Option Json},
      Shape.withDefault (.optional Shape.any) none levels slot = some value →
        ∀ j, value = some j → j ≠ .null ∧ j.IsReadable levels := by
    intro slot value hslot j hj
    obtain ⟨d, hd, hread⟩ := Shape.exists_of_withDefault_optional hslot hj
    refine ⟨?_, Json.isReadable_of_ofDocument? hread⟩
    rintro rfl
    exact hd (Json.eq_null_of_ofDocument? hread)
  split at hmake
  · simp only [bind, Option.bind_eq_some_iff] at hmake
    obtain ⟨name, -, typeName, -, size, -, min, hmin, max, hmax, index, hindex, hc⟩ := hmake
    rw [← Option.some.inj hc]
    refine ⟨fun j hj => hj.elim (hbound hmin j) (hbound hmax j), fun i hi => ?_⟩
    obtain ⟨d, -, hread⟩ := Shape.exists_of_withDefault_optional hindex hi
    exact IndexDef.isFinite_of_shape hread
  · simp at hmake

/-- The integers in a declaration that was read are read back. -/
theorem IsReadable.isReal_or_isReadBack (h : c.IsReadable levels) {n : JsonNumber}
    (hn : n ∈ c.toJson.numbers) : n.isReal ∨ n.IsReadBack := by
  obtain ⟨name, j, hj, hn⟩ := mem_numbers_toJson.1 hn
  simp only [fields, List.mem_cons, Prod.mk.injEq, List.not_mem_nil, or_false] at hj
  obtain ⟨-, hj⟩ | ⟨-, hj⟩ | ⟨-, hj⟩ | ⟨-, hj⟩ | ⟨-, hj⟩ | ⟨-, hj⟩ := hj
  · obtain rfl := Option.some.inj hj
    simp [Json.numbers] at hn
  · obtain rfl := Option.some.inj hj
    simp [Json.numbers] at hn
  · obtain ⟨size, -, rfl⟩ := Option.map_eq_some_iff.1 hj.symm
    rw [Json.numbers, List.mem_singleton] at hn
    exact Or.inr (hn ▸ JsonNumber.isReadBack_natural size)
  · exact (h.bound j (Or.inl hj.symm)).2.isReal_or_isReadBack hn
  · exact (h.bound j (Or.inr hj.symm)).2.isReal_or_isReadBack hn
  · obtain ⟨i, hi, rfl⟩ := Option.map_eq_some_iff.1 hj.symm
    rw [(IndexDef.mem_numbers_toJson (h.index i hi)).1 hn]
    exact Or.inl rfl

/-! ### Slots of a written declaration -/

theorem read_size (size : Option UInt64) (levels : Nat) :
    Shape.withDefault (.optional Shape.natural) none levels
      ((size.map fun n => .number (.natural n)).map Json.document) = some size := by
  rw [Option.map_map]
  refine Shape.withDefault_optional fun n _ => ⟨Json.document_ne_null Json.noConfusion, ?_⟩
  have hread := (JsonNumber.isReadBack_natural n).jsonNumber?_numeral
  simp only [Function.comp_apply, Json.document, Shape.natural, hread]
  rfl

section Read

variable (h : c.IsReadable levels) (hnumbers : ∀ n ∈ c.toJson.numbers, n.IsReadBack)
include h hnumbers

theorem read_bound {value : Option Json} (name : String) (hvalue : value = c.min ∨ value = c.max)
    (hname : (name, value) ∈ c.fields) :
    Shape.withDefault (.optional Shape.any) none levels (value.map Json.document) = some value := by
  refine Shape.withDefault_optional fun j hj => ?_
  obtain ⟨hnull, hreadable⟩ := h.bound j (hj ▸ hvalue.imp Eq.symm Eq.symm)
  exact ⟨Json.document_ne_null hnull, Json.ofDocument?_document hreadable fun n hn =>
    hnumbers n (mem_numbers_toJson.2 ⟨name, j, hj ▸ hname, hn⟩)⟩

theorem read_index (hlevels : 0 < levels) :
    Shape.withDefault (.optional IndexDef.shape) none levels
      ((c.index.map IndexDef.toJson).map Json.document) = some c.index := by
  rw [Option.map_map]
  refine Shape.withDefault_optional fun i hi => ⟨Json.document_ne_null Json.noConfusion, ?_⟩
  have hfinite := h.index i hi
  have hreal : JsonNumber.real _ hfinite ∈ c.toJson.numbers :=
    mem_numbers_toJson.2 ⟨"index", i.toJson, by simp [fields, hi],
      (IndexDef.mem_numbers_toJson hfinite).2 rfl⟩
  obtain ⟨below, rfl⟩ := Nat.exists_eq_add_one_of_ne_zero hlevels.ne'
  exact IndexDef.shape_document hfinite (hnumbers _ hreal) below

/-- **A declaration that was read** is read again from its document. -/
theorem shape_document (hlevels : 0 < levels) : shape (levels + 1) c.toJson.document = some c := by
  have hmin := read_bound h hnumbers "min" (Or.inl rfl) (by simp [fields])
  have hmax := read_bound h hnumbers "max" (Or.inr rfl) (by simp [fields])
  rw [toJson_eq, shape]
  refine (Shape.fields_document c.fields (by simp [fields]) _ levels).trans ?_
  simp only [fields, List.map_cons, List.map_nil, read_size, hmin, hmax,
    read_index h hnumbers hlevels]
  simp [Json.document, Shape.required, Shape.text]

end Read

end ColumnDef

namespace SchemaDef

variable {s : SchemaDef}

theorem mem_numbers_toJson {n : JsonNumber} :
    n ∈ s.toJson.numbers ↔ ∃ c ∈ s.columns, n ∈ c.toJson.numbers := by
  rw [toJson, Json.mem_numbers_object]
  simp [Json.mem_numbers_list]

/-- **Every definition that is read** has readable columns. -/
theorem isReadable_of_shape (h : shape (levels + 3) d = some s) :
    ∀ c ∈ s.columns, c.IsReadable levels := by
  obtain ⟨below, slots, hlevels, hmake⟩ := Shape.exists_of_fields h
  obtain rfl := Nat.succ.inj hlevels
  split at hmake
  next slot =>
    obtain ⟨columns, hcolumns, rfl⟩ := Option.map_eq_some_iff.1 hmake
    obtain ⟨d, -, hd⟩ := Option.bind_eq_some_iff.1 hcolumns
    cases d with
    | list ds =>
      intro c hc
      obtain ⟨d, -, hread⟩ := exists_mem_of_forall₂ (mapM_eq_some_iff.1 hd) hc
      exact ColumnDef.isReadable_of_shape hread
    | null | bool | numeral | text | object => simp [Shape.list] at hd
  next => simp at hmake

theorem shape_document (h : ∀ c ∈ s.columns, c.IsReadable levels)
    (hnumbers : ∀ n ∈ s.toJson.numbers, n.IsReadBack) (hlevels : 0 < levels) :
    shape (levels + 3) s.toJson.document = some s := by
  have hcolumns : (Json.list (s.columns.map ColumnDef.toJson)).document =
      .list (s.columns.map fun c => c.toJson.document) := by
    rw [Json.document, List.map_map]
    rfl
  have hread : (s.columns.map fun c => c.toJson.document).mapM (ColumnDef.shape (levels + 1)) =
      some s.columns := by
    rw [mapM_eq_some_iff, List.forall₂_map_left_iff, List.forall₂_same]
    exact fun c hc => ColumnDef.shape_document (h c hc)
      (fun n hn => hnumbers n (mem_numbers_toJson.2 ⟨c, hc, hn⟩)) hlevels
  rw [toJson, shape]
  refine (Shape.fields_document [("columns", some (.list (s.columns.map ColumnDef.toJson)))]
    (by simp) _ (levels + 2)).trans ?_
  simp only [List.map_cons, List.map_nil, Option.map_some, hcolumns, Shape.required,
    Option.bind_some, Shape.list, hread]

theorem ofText_eq_ok_iff {text : String} :
    ofText text = .ok s ↔ (Document.ofText? text).bind (shape Json.levelLimit) = some s := by
  unfold ofText Shape.ofText?
  split
  next hread => rw [hread, Except.ok.injEq, Option.some.injEq]
  next hread => simp [hread]

/-- **Definitions survive being written.** What is read from the written form of a definition that was
read is the definition, so that it gives the same schema or failure and declares the same indexes. The
real numbers in it have to be read back. -/
theorem ofText_render {text : String} (h : ofText text = .ok s)
    (hreals : ∀ n ∈ s.toJson.numbers, n.isReal → n.IsReadBack) :
    ofText s.toJson.render = .ok s ∧
      ((ofText s.toJson.render).mapError .reported).bind build =
        ((ofText text).mapError .reported).bind build ∧
      (ofText s.toJson.render).map indexDefs = (ofText text).map indexDefs := by
  obtain ⟨d, -, hd⟩ := Option.bind_eq_some_iff.1 (ofText_eq_ok_iff.1 h)
  have hreadable : ∀ c ∈ s.columns, c.IsReadable 124 := isReadable_of_shape hd
  have hnumbers : ∀ n ∈ s.toJson.numbers, n.IsReadBack := by
    intro n hn
    obtain ⟨c, hc, hmem⟩ := mem_numbers_toJson.1 hn
    exact ((hreadable c hc).isReal_or_isReadBack hmem).elim (hreals n hn) id
  have hwritten : ofText s.toJson.render = .ok s := by
    rw [ofText_eq_ok_iff, Json.ofText?_render hnumbers, Option.bind_some]
    exact shape_document hreadable hnumbers (by decide)
  rw [hwritten, h]
  exact ⟨rfl, rfl, rfl⟩

/-- A definition in lists and objects: a bound that nests and repeats a name, members that are `null`,
one that is ignored, and a bucket size that is left out. -/
theorem ofText_render_mixed :
    let text := "[[[\"a\",\"int\",null,-5,[\x7b\"b\":1.5,\"a\":null,\"b\":[2]\x7d,-0.0],[]]," ++
      "\x7b\"type\":\"string\",\"note\":[[]],\"size\":16,\"name\":\"N\",\"max\":null\x7d," ++
      "[\"d\",\"double\",null,0.1,1e3,\x7b\"bucket_size\":2.5\x7d]]]"
    let written := "\x7b\"columns\":[\x7b\"name\":\"a\",\"type\":\"int\",\"min\":-5," ++
      "\"max\":[\x7b\"a\":null,\"b\":[2]\x7d,-0.0],\"index\":\x7b\"bucket_size\":1.0\x7d\x7d," ++
      "\x7b\"name\":\"N\",\"type\":\"string\",\"size\":16\x7d," ++
      "\x7b\"name\":\"d\",\"type\":\"double\",\"min\":0.1,\"max\":1000.0," ++
      "\"index\":\x7b\"bucket_size\":2.5\x7d\x7d]\x7d"
    ∃ s, ofText text = .ok s ∧ s.toJson.render = written ∧ ofText written = .ok s ∧
      ((ofText written).mapError .reported).bind build =
        ((ofText text).mapError .reported).bind build := by
  intro text written
  have hread : (ofText text).toOption.any fun s => s.toJson.render = written ∧
      ∀ n ∈ s.toJson.numbers, n.isReal → n.IsReadBack := by
    decide +kernel
  obtain ⟨s, hs, hs'⟩ := exists_ok_of_any hread
  obtain ⟨hwritten, hreals⟩ := of_decide_eq_true hs'
  obtain ⟨hsame, hbuild, -⟩ := ofText_render hs hreals
  exact ⟨s, hs, hwritten, hwritten ▸ hsame, hwritten ▸ hbuild⟩

end SchemaDef

end BucketPlanner
