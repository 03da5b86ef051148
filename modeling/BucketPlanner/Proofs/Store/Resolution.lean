import BucketPlanner.Proofs.Bucket.Log
import BucketPlanner.Proofs.Schema.Calls
import BucketPlanner.Proofs.Schema.Definition
import BucketPlanner.Store.Basic

/-!
# Declared names

Names are trimmed when columns are declared, and they are not trimmed when columns are looked up. So a
declared name leads to the column of the declaration exactly when there are no blanks around it, and
indexes that are declared under other names cannot be added (`SchemaDef.fieldIndex_declared_iff`).
-/

namespace BucketPlanner

namespace SchemaBuilder

/-- The place of the column that is declared by a name behind other names: the first one for the time
stamp, and for others the next one. -/
def placeBehind (front : List String) (name : String) : Nat :=
  if canonicalName name = Schema.timestampName then 0
  else (front.filter (canonicalName · ≠ Schema.timestampName)).length + 1

variable {b : SchemaBuilder} {n : Nat} {column : Column} {name : String}

theorem Built.fieldIndex_eq_ok_iff_trim (hb : Built b) (hcolumn : b.build.column? n = some column)
    (hname : column.name = canonicalName name) :
    b.build.fieldIndex name = .ok n ↔ trim name = name := by
  rw [Schema.fieldIndex_eq_ok_iff hb.nodup, ← upperCase_trim_eq_iff]
  constructor
  · rintro ⟨c, hc, hcname⟩
    rw [hcolumn, Option.some.injEq] at hc
    rw [← hcname, ← hc, hname, canonicalName]
  · exact fun htrim => ⟨column, hcolumn, hname.trans htrim⟩

theorem Built.fieldIndex_eq_error_iff_trim (hb : Built b)
    (hcolumn : b.build.column? n = some column) (hname : column.name = canonicalName name) :
    b.build.fieldIndex name = .error (.unknownColumn name) ↔ trim name ≠ name := by
  rw [Schema.fieldIndex_eq_error_iff, ← upperCase_trim_eq_iff.ne]
  constructor
  · rintro ⟨hnone, -⟩ heq
    exact hnone column (List.mem_of_getElem? hcolumn) (hname.trans heq)
  · intro hne
    refine ⟨fun c hc hcname => hne ?_, rfl⟩
    -- The names of columns are trimmed, in whatever case.
    have htrimmed := (hb.isCanonical c hc).trimmed
    rwa [hcname, trim_upperCase] at htrimmed

/-- **The column of a call** stands behind the columns of the calls before it. -/
theorem column?_ofCalls {front back : List Call} {call : Call}
    (h : ofCalls (front ++ call :: back) = .ok b) :
    ∃ column, b.build.column? (placeBehind (front.map Call.name) call.name) = some column ∧
      column.name = canonicalName call.name ∧ column.type = call.type := by
  by_cases hname : canonicalName call.name = Schema.timestampName
  · have hzero := (Built.ofCalls h).column?_zero
    rw [ofCalls, List.foldlM_append] at h
    obtain ⟨before, -, hbehind⟩ := bind_eq_ok.1 h
    rw [List.foldlM_cons] at hbehind
    obtain ⟨after, hcall, -⟩ := bind_eq_ok.1 hbehind
    rw [placeBehind, if_pos hname, hzero, hname, type_eq_ulong_of_apply hcall hname]
    exact ⟨_, rfl, rfl, rfl⟩
  · -- The declared columns are those of the calls that do not declare the time stamp.
    have hplace : placeBehind (front.map Call.name) call.name =
        (front.filter (!·.isTimestamp)).length + 1 := by
      rw [placeBehind, if_neg hname, List.filter_map, List.length_map]
      simp [Call.isTimestamp, Function.comp_def, beq_eq_decide]
    have hkept : (call :: back).filter (!·.isTimestamp) = call :: back.filter (!·.isTimestamp) := by
      simp [Call.isTimestamp, hname]
    have hdeclared : (b.columns.map Column.declaration)[placeBehind (front.map Call.name) call.name]? =
        some call.declaration := by
      rw [declarations_ofCalls h, hplace, List.filter_append, hkept]
      simp
    rw [List.getElem?_map] at hdeclared
    obtain ⟨column, hcolumn, heq⟩ := Option.map_eq_some_iff.1 hdeclared
    exact ⟨column, hcolumn, congrArg Prod.fst heq, congrArg (·.2.1) heq⟩

end SchemaBuilder

/-! ### Declarations -/

namespace ColumnDef

variable {d : ColumnDef} {b b' : SchemaBuilder}

/-- The call that a declaration makes. -/
structure Makes (d : ColumnDef) (call : SchemaBuilder.Call) : Prop where
  name : call.name = d.name
  type : DataType.ofName? d.typeName d.size = some call.type

theorem exists_call_of_addTo (h : d.addTo b = .ok b') : ∃ call, d.Makes call ∧ call.apply b = .ok b' := by
  obtain ⟨type, min, max, htype, -, -, hadd⟩ := addTo_eq_ok h
  exact ⟨.addColumnWithin type d.name min max, ⟨rfl, htype⟩, hadd⟩

theorem exists_calls_of_foldlM {columns : List ColumnDef}
    (h : columns.foldlM (fun b (d : ColumnDef) => d.addTo b) b = .ok b') :
    ∃ calls, List.Forall₂ Makes columns calls ∧ calls.foldlM SchemaBuilder.Call.apply b = .ok b' := by
  induction columns generalizing b with
  | nil => exact ⟨[], .nil, h⟩
  | cons d columns ih =>
    rw [List.foldlM_cons] at h
    obtain ⟨next, hnext, hrest⟩ := bind_eq_ok.1 h
    obtain ⟨call, hmakes, hcall⟩ := exists_call_of_addTo hnext
    obtain ⟨calls, hall, hcalls⟩ := ih hrest
    exact ⟨call :: calls, .cons hmakes hall, by rw [List.foldlM_cons, hcall]; exact hcalls⟩

end ColumnDef

namespace SchemaDef

open SchemaBuilder (canonicalName placeBehind)

variable {d : SchemaDef} {schema : Schema} {front back : List ColumnDef} {c : ColumnDef}

/-- **The schema of a definition** is built by calls, one for each declaration. -/
theorem exists_calls_of_build (h : d.build = .ok schema) :
    ∃ calls b, List.Forall₂ ColumnDef.Makes d.columns calls ∧
      SchemaBuilder.ofCalls calls = .ok b ∧ schema = b.build := by
  obtain ⟨b, hb, hschema⟩ := exists_foldlM_of_build h
  obtain ⟨calls, hall, hcalls⟩ := ColumnDef.exists_calls_of_foldlM hb
  exact ⟨calls, b, hall, hcalls, hschema⟩

/-- **The column of a declaration** has its name in canonical form and its type. -/
theorem column?_of_build (h : d.build = .ok schema) (hd : d.columns = front ++ c :: back) :
    ∃ column, schema.column? (placeBehind (front.map ColumnDef.name) c.name) = some column ∧
      column.name = canonicalName c.name ∧ DataType.ofName? c.typeName c.size = some column.type := by
  obtain ⟨calls, b, hmakes, hb, rfl⟩ := exists_calls_of_build h
  rw [hd] at hmakes
  obtain ⟨front', call, back', rfl, hfront, hcall⟩ := exists_append_of_forall₂ hmakes
  have hnames : front.map ColumnDef.name = front'.map SchemaBuilder.Call.name := by
    rw [← List.forall₂_eq_eq_eq, List.forall₂_map_left_iff, List.forall₂_map_right_iff]
    exact hfront.imp fun _ _ hmakes => hmakes.name.symm
  obtain ⟨column, hcolumn, hname, htype⟩ := SchemaBuilder.column?_ofCalls hb
  rw [hnames, ← hcall.name, hcall.type]
  exact ⟨column, hcolumn, hname, congrArg some htype.symm⟩

end SchemaDef

/-! ### Indexes under unknown names -/

theorem Column.withIndex_ne_unknownColumn {c : Column} {id : IndexId} {s : Binary64} {name : String} :
    c.withIndex id s ≠ .error (.unknownColumn name) := by
  unfold withIndex
  split_ifs <;> simp

theorem IndexLog.addIndex_eq_unknownColumn_iff {log : IndexLog} {schema : Schema}
    {column name : String} {s : Binary64} :
    log.addIndex schema column s = .error (.buildFailed (.rejected (.unknownColumn name))) ↔
      schema.fieldIndex column = .error (.unknownColumn name) := by
  unfold addIndex
  cases hfield : schema.fieldIndex column with
  | error e => simp
  | ok n =>
    simp only [reduceCtorEq, iff_false]
    split
    · simp
    next id hid =>
      split
      · simp
      next c hc =>
        split
        next e hmarked =>
          intro h
          simp only [Except.error.injEq, IndexError.buildFailed.injEq, BuildFault.rejected.injEq] at h
          exact Column.withIndex_ne_unknownColumn (h ▸ hmarked)
        · simp

namespace Store

variable {defs : List (String × Binary64)} {schema : Schema} {log : IndexLog} {column name : String}
  {s : Binary64}

theorem result_addIndexes_cons_of_error {e : IndexError} (h : log.addIndex schema column s = .error e)
    (defs : List (String × Binary64)) :
    (addIndexes ((column, s) :: defs) schema log).result = .error (.index e) := by
  rw [addIndexes, h]

theorem result_addIndexes_cons_of_ok {added : IndexLog.Added}
    (h : log.addIndex schema column s = .ok added) (defs : List (String × Binary64)) :
    (addIndexes ((column, s) :: defs) schema log).result =
      (addIndexes defs added.schema added.log).result := by
  rw [addIndexes, h]

/-- **Adding declared indexes** stops at the first unknown name, if it comes that far. -/
theorem addIndexes_eq_unknownColumn_iff :
    (addIndexes defs schema log).result =
        .error (.index (.buildFailed (.rejected (.unknownColumn name)))) ↔
      ∃ front s back, defs = front ++ (name, s) :: back ∧ (addIndexes front schema log).result.isOk ∧
        schema.fieldIndex name = .error (.unknownColumn name) := by
  induction defs generalizing schema log with
  | nil => simp [addIndexes]
  | cons d defs ih =>
    obtain ⟨column, s⟩ := d
    cases hadd : log.addIndex schema column s with
    | error e =>
      have hresult := result_addIndexes_cons_of_error hadd
      rw [hresult, Except.error.injEq, CommandError.index.injEq]
      constructor
      · rintro rfl
        have hunknown := IndexLog.addIndex_eq_unknownColumn_iff.1 hadd
        obtain ⟨-, hname⟩ := Schema.fieldIndex_eq_error_iff.1 hunknown
        obtain rfl := SchemaError.unknownColumn.inj hname
        exact ⟨[], s, defs, rfl, rfl, hunknown⟩
      · rintro ⟨front, s', back, heq, hfront, hunknown⟩
        cases front with
        | nil =>
          obtain ⟨⟨rfl, rfl⟩, rfl⟩ := by simpa using heq
          rw [IndexLog.addIndex_eq_unknownColumn_iff.2 hunknown, Except.error.injEq] at hadd
          exact hadd.symm
        | cons d' front =>
          obtain ⟨rfl, -⟩ := List.cons.inj heq
          simp [hresult, Except.isOk, Except.toBool] at hfront
    | ok added =>
      have hresult := result_addIndexes_cons_of_ok hadd
      obtain ⟨n, -, hfield, -⟩ := IndexLog.addIndex_eq_ok hadd
      simp only [hresult, ih, IndexLog.fieldIndex_addIndex hadd]
      constructor
      · rintro ⟨front, s', back, rfl, hfront, hunknown⟩
        exact ⟨(column, s) :: front, s', back, rfl, by rwa [hresult], hunknown⟩
      · rintro ⟨front, s', back, heq, hfront, hunknown⟩
        cases front with
        | nil =>
          obtain ⟨⟨rfl, rfl⟩, rfl⟩ := by simpa using heq
          simp [hfield] at hunknown
        | cons d' front =>
          obtain ⟨rfl, rfl⟩ := List.cons.inj heq
          exact ⟨front, s', back, rfl, by rwa [hresult] at hfront, hunknown⟩

end Store

namespace SchemaDef

open SchemaBuilder (placeBehind canonicalName)

variable {d : SchemaDef} {schema : Schema}

/-- **Declared names** lead to the columns of their declarations exactly when they have no blanks around
them, and are unknown otherwise. Then an index that is declared under such a name cannot be added, once
those before it are. -/
theorem fieldIndex_declared_iff (h : d.build = .ok schema) :
    (∀ {front back : List ColumnDef} {c : ColumnDef}, d.columns = front ++ c :: back →
      let place := placeBehind (front.map ColumnDef.name) c.name
      (∃ column, schema.column? place = some column ∧ column.name = canonicalName c.name ∧
        DataType.ofName? c.typeName c.size = some column.type) ∧
      (schema.fieldIndex c.name = .ok place ↔ trim c.name = c.name) ∧
      (schema.fieldIndex c.name = .error (.unknownColumn c.name) ↔ trim c.name ≠ c.name)) ∧
    ∀ name, (Store.addIndexes d.indexDefs schema .empty).result =
        .error (.index (.buildFailed (.rejected (.unknownColumn name)))) ↔
      ∃ front s back, d.indexDefs = front ++ (name, s) :: back ∧
        (Store.addIndexes front schema .empty).result.isOk ∧ trim name ≠ name := by
  have hdeclared : ∀ {front back : List ColumnDef} {c : ColumnDef}, d.columns = front ++ c :: back →
      let place := placeBehind (front.map ColumnDef.name) c.name
      (schema.fieldIndex c.name = .ok place ↔ trim c.name = c.name) ∧
      (schema.fieldIndex c.name = .error (.unknownColumn c.name) ↔ trim c.name ≠ c.name) := by
    intro front back c hd
    obtain ⟨column, hcolumn, hname, -⟩ := column?_of_build h hd
    obtain ⟨b, hb, rfl⟩ := build_eq_ok h
    exact ⟨hb.1.fieldIndex_eq_ok_iff_trim hcolumn hname,
      hb.1.fieldIndex_eq_error_iff_trim hcolumn hname⟩
  refine ⟨fun hd => ⟨column?_of_build h hd, hdeclared hd⟩, fun name => ?_⟩
  rw [Store.addIndexes_eq_unknownColumn_iff]
  -- Indexes are declared under the names of columns.
  have hunknown : ∀ {front back : List (String × Binary64)} {s : Binary64},
      d.indexDefs = front ++ (name, s) :: back →
      (schema.fieldIndex name = .error (.unknownColumn name) ↔ trim name ≠ name) := by
    intro front back s heq
    have hmem : (name, s) ∈ d.indexDefs := by
      rw [heq]
      exact List.mem_append_right _ List.mem_cons_self
    obtain ⟨c, hc, hindex⟩ := List.mem_filterMap.1 hmem
    obtain ⟨i, -, hi⟩ := Option.map_eq_some_iff.1 hindex
    obtain ⟨before, behind, hd⟩ := List.append_of_mem hc
    obtain rfl : c.name = name := congrArg Prod.fst hi
    exact (hdeclared hd).2
  constructor
  · rintro ⟨front, s, back, heq, hfront, herror⟩
    exact ⟨front, s, back, heq, hfront, (hunknown heq).1 herror⟩
  · rintro ⟨front, s, back, heq, hfront, htrim⟩
    exact ⟨front, s, back, heq, hfront, (hunknown heq).2 htrim⟩

/-- Names in letters of any case, behind the time stamp. -/
theorem fieldIndex_declared_iff_heights :
    let d : SchemaDef := ⟨[⟨"timeStamp", "ulong", none, none, none, none⟩,
      ⟨"Height", "double", none, none, none, some ⟨.ofNat 10⟩⟩]⟩
    ∃ schema, d.build = .ok schema ∧ schema.fieldIndex "timeStamp" = .ok 0 ∧
      schema.fieldIndex "Height" = .ok 1 := by
  intro d
  have hbuilt : d.build.toOption.any fun _ => true := by decide +kernel
  obtain ⟨schema, h, -⟩ := exists_ok_of_any hbuilt
  have htimestamp : schema.fieldIndex "timeStamp" = .ok (placeBehind [] "timeStamp") :=
    ((fieldIndex_declared_iff h).1 (rfl : _ = [] ++ _ :: _)).2.1.2 (by decide +kernel)
  have hheight : schema.fieldIndex "Height" = .ok (placeBehind ["timeStamp"] "Height") :=
    ((fieldIndex_declared_iff h).1 (rfl : _ = [_] ++ _ :: _)).2.1.2 (by decide +kernel)
  have hplaces : placeBehind [] "timeStamp" = 0 ∧ placeBehind ["timeStamp"] "Height" = 1 := by
    decide +kernel
  rw [hplaces.1] at htimestamp
  rw [hplaces.2] at hheight
  exact ⟨schema, h, htimestamp, hheight⟩

/-- A declared name with blanks around it, and an index under this name. -/
theorem exists_fieldIndex_declared_eq_error :
    let d : SchemaDef := ⟨[⟨" age ", "int", none, none, none, some ⟨.ofNat 1⟩⟩]⟩
    ∃ schema, d.build = .ok schema ∧
      schema.fieldIndex " age " = .error (.unknownColumn " age ") ∧
      (Store.addIndexes d.indexDefs schema .empty).result =
        .error (.index (.buildFailed (.rejected (.unknownColumn " age ")))) := by
  intro d
  have hbuilt : d.build.toOption.any fun schema =>
      schema.columns.map Column.name = ["TIMESTAMP", "AGE"] := by decide +kernel
  obtain ⟨schema, h, hnames⟩ := exists_ok_of_any hbuilt
  rw [decide_eq_true_eq] at hnames
  have hunknown : schema.fieldIndex " age " = .error (.unknownColumn " age ") := by
    refine Schema.fieldIndex_eq_error_iff.2 ⟨fun c hc => ?_, rfl⟩
    have hname : c.name ∈ ["TIMESTAMP", "AGE"] := by
      rw [← hnames]
      exact List.mem_map_of_mem hc
    have hapart : ∀ name ∈ ["TIMESTAMP", "AGE"], name ≠ upperCase " age " := by decide +kernel
    exact hapart c.name hname
  exact ⟨schema, h, hunknown, Store.addIndexes_eq_unknownColumn_iff.2 ⟨[], _, [], rfl, rfl, hunknown⟩⟩

end SchemaDef

end BucketPlanner
