import BucketPlanner.Store.Basic
import BucketPlanner.Proofs.Bucket.RunEntries
import BucketPlanner.Proofs.Plan.Matching
import BucketPlanner.Proofs.Schema.Record

/-!
# Opened stores

Opening a store is a run over a built schema and an empty log (`Store.exists_run_of_ofConfig`), so
schema and indexes of the store agree; and the records of the store are those that the configuration
gives (`Store.ofConfig_eq_ok`).
-/

namespace BucketPlanner

/-- The records are read from JSON values, each with the reading of the clock at its place. -/
def Schema.ReadsAll (schema : Schema) (clock : Nat → UInt64) (jsons : List (Json × Nat))
    (records : List Record) : Prop :=
  List.Forall₂ (fun r record => schema.readRecord (clock r.2) r.1 = .ok record) jsons records

/-- A store whose schema and indexes are the outcome of a run, with declared columns, and whose records
are read from JSON values. -/
structure Store.IsOpened (store : Store) (clock : Nat → UInt64) (jsons : List Json) : Prop where
  reachable : ∃ added, Indexing.Reachable ⟨store.schema, store.indexes, added⟩
  declared : ∀ {n c}, store.schema.column? n = some c → c.IsDeclared
  read : store.schema.ReadsAll clock jsons.zipIdx store.records

namespace Store

variable {store : Store} {clock : Nat → UInt64} {jsons : List Json}

/-- The value of a record for a column is read from the record's object. -/
theorem IsOpened.readField (h : store.IsOpened clock jsons) {record : Record}
    (hrecord : record ∈ store.records) :
    ∃ members now, .object members ∈ jsons ∧ ∀ {n c v}, store.schema.column? n = some c →
      record[n]? = some v → Schema.readField now members c = .ok v := by
  obtain ⟨⟨json, i⟩, hjson, hread⟩ := exists_mem_of_forall₂ h.read hrecord
  obtain ⟨members, rfl, -, hfields⟩ := Schema.readRecord_eq_ok_iff.1 hread
  exact ⟨members, clock i, List.fst_mem_of_mem_zipIdx hjson,
    fun hc hv => of_getElem?_of_forall₂ hfields hc hv⟩

/-- The values of stored records are in the form of their columns' types. -/
theorem IsOpened.admits (h : store.IsOpened clock jsons) {record : Record}
    (hrecord : record ∈ store.records) {n : Nat} {c : Column} {v : Value}
    (hc : store.schema.column? n = some c) (hv : record[n]? = some v) : c.type.admits v := by
  obtain ⟨members, now, -, hread⟩ := h.readField hrecord
  exact Schema.admits_of_readField (fun hname => ((h.declared hc).timestamp hname).1) (hread hc hv)

/-- What a column of a store knows of its index. -/
theorem IsOpened.indexed (h : store.IsOpened clock jsons) {n : Nat} {c : Column} {state : ColumnIndex}
    (hc : store.schema.column? n = some c) (hstate : c.index = some state) :
    c.type.isIndexable ∧ Key.isBucketSize state.bucketSize ∧
      (store.indexes.costs state.id).isSome := by
  obtain ⟨added, hreach⟩ := h.reachable
  have hindex : Indexing.HasIndex ⟨store.schema, store.indexes, added⟩ n c state := ⟨hc, hstate⟩
  exact ⟨hreach.isIndexable hindex, hreach.consistent.isBucketSize hindex,
    hreach.isSome_costs hindex⟩

/-- The calls that add declared indexes. -/
def additions (defs : List (String × Binary64)) : List IndexLog.Operation :=
  defs.map fun d => .addIndex d.1 d.2

/-- The calls that enter records, the first one at the given place. -/
def entries : Nat → List Record → List IndexLog.Operation
  | _, [] => []
  | n, record :: records => .enter record (.ofNat n) :: entries (n + 1) records

/-- Declared indexes are added by a run. -/
theorem run_additions {defs : List (String × Binary64)} {schema schema' : Schema}
    {log log' : IndexLog}
    (h : (addIndexes defs schema log).result = .ok (schema', log'))
    (added : List (String × ColumnIndex)) :
    ∃ added', Indexing.run ⟨schema, log, added⟩ (additions defs) = ⟨schema', log', added'⟩ := by
  induction defs generalizing schema log added with
  | nil =>
    rw [addIndexes, Except.ok.injEq, Prod.mk.injEq] at h
    exact ⟨added, by rw [← h.1, ← h.2]; rfl⟩
  | cons d defs ih =>
    obtain ⟨column, bucketSize⟩ := d
    unfold addIndexes at h
    split at h
    · simp at h
    next step hadd =>
      obtain ⟨added', hrun⟩ := ih h (added ++ [(column, ⟨step.id, bucketSize⟩)])
      refine ⟨added', ?_⟩
      rw [additions, List.map_cons, Indexing.run_cons, Indexing.step, hadd]
      exact hrun

section AddRecords

variable {schema : Schema} {n : Nat} {log log' : IndexLog} {json : Json} {record : Record}
  {records : List Record}

theorem addRecords_cons_of_error {e : SchemaError} (h : schema.readRecord (clock n) json = .error e) :
    addRecords schema clock n (json :: jsons) log = .error (.schema e) := by
  simp [addRecords, h, Except.mapError, bind, Except.bind]

theorem addRecords_cons_of_fails {e : IndexError} (h : schema.readRecord (clock n) json = .ok record)
    (hfails : (log.enter schema record (.ofNat n)).error = some e) :
    addRecords schema clock n (json :: jsons) log = .error (.index e) := by
  simp [addRecords, h, hfails, Except.mapError, bind, Except.bind, throw, throwThe,
    MonadExceptOf.throw]

theorem addRecords_cons_of_ok (h : schema.readRecord (clock n) json = .ok record)
    (hnone : (log.enter schema record (.ofNat n)).error = none) :
    addRecords schema clock n (json :: jsons) log =
      (addRecords schema clock (n + 1) jsons (log.enter schema record (.ofNat n)).log).map
        fun rest => (rest.1, record :: rest.2) := by
  simp only [addRecords, h, hnone, Except.mapError, bind, Except.bind]
  cases addRecords schema clock (n + 1) jsons (log.enter schema record (.ofNat n)).log <;> rfl

/-- Records are read and entered by a run, which leaves the schema as it is. -/
theorem run_entries (h : addRecords schema clock n jsons log = .ok (log', records))
    (added : List (String × ColumnIndex)) :
    schema.ReadsAll clock (jsons.zipIdx n) records ∧
      Indexing.EntersAll ⟨schema, log, added⟩ (entries n records) ∧
      Indexing.run ⟨schema, log, added⟩ (entries n records) = ⟨schema, log', added⟩ := by
  induction jsons generalizing n log log' records with
  | nil =>
    rw [addRecords, Except.ok.injEq, Prod.mk.injEq] at h
    rw [← h.1, ← h.2]
    exact ⟨.nil, Indexing.entersAll_nil, rfl⟩
  | cons json jsons ih =>
    cases hread : schema.readRecord (clock n) json with
    | error e => simp [addRecords_cons_of_error hread] at h
    | ok record =>
      cases herror : (log.enter schema record (.ofNat n)).error with
      | some e => simp [addRecords_cons_of_fails hread herror] at h
      | none =>
        rw [addRecords_cons_of_ok hread herror] at h
        cases hrest :
          addRecords schema clock (n + 1) jsons (log.enter schema record (.ofNat n)).log with
        | error e => simp [hrest, Except.map] at h
        | ok rest =>
          obtain ⟨log'', records'⟩ := rest
          rw [hrest, Except.map, Except.ok.injEq, Prod.mk.injEq] at h
          obtain ⟨hread', hentered, hrun⟩ := ih hrest
          rw [← h.1, ← h.2]
          refine ⟨.cons hread hread', Indexing.entersAll_cons.2 ⟨?_, hentered⟩, hrun⟩
          rintro _ _ ⟨rfl, rfl⟩
          exact herror

end AddRecords

/-- **Opening a store** adds the declared indexes to an empty log and then enters the records. -/
theorem exists_run_of_ofConfig {config : Config}
    (h : (ofConfig config clock).result = .ok store) :
    ∃ (b : SchemaBuilder) (added : List (String × ColumnIndex)) (s : Indexing), b.IsDeclared ∧
      s = (Indexing.start b.build).run (additions config.schema.indexDefs) ∧
      store.schema.ReadsAll clock config.records.zipIdx store.records ∧
      s.EntersAll (entries 0 store.records) ∧
      s.run (entries 0 store.records) = ⟨store.schema, store.indexes, added⟩ := by
  unfold ofConfig at h
  split at h
  · simp at h
  next schema hbuild =>
    obtain ⟨b, hb, hschema⟩ := SchemaDef.build_eq_ok hbuild
    rw [hschema] at h
    replace h := mapError_eq_ok.1 h
    simp only [load, bind, Except.bind] at h
    split at h
    · simp at h
    next pair hindexed =>
      obtain ⟨schema, log⟩ := pair
      simp only at h
      split at h
      · simp at h
      next pair hrecords =>
        obtain ⟨indexes, records⟩ := pair
        simp only [pure, Except.pure, Except.ok.injEq] at h
        obtain ⟨added, hrun⟩ := run_additions hindexed []
        obtain ⟨hread, hentered, hrun'⟩ := run_entries hrecords added
        subst h
        exact ⟨b, added, _, hb, hrun.symm, hread, hentered, hrun'⟩

/-- **An opened store** has a reachable schema and the records of its configuration. -/
theorem ofConfig_eq_ok {config : Config}
    (h : (ofConfig config clock).result = .ok store) : store.IsOpened clock config.records := by
  obtain ⟨b, added, s, hb, rfl, hread, -, hrun⟩ := exists_run_of_ofConfig h
  rw [← Indexing.run_append] at hrun
  refine ⟨⟨added, b, _, hb.1, hrun.symm⟩, fun {n c} hc => ?_, hread⟩
  have hc' : (Indexing.mk store.schema store.indexes added).schema.column? n = some c := hc
  rw [← hrun] at hc'
  obtain ⟨c', hcolumn, heq⟩ := Indexing.exists_column_of_run hc'
  obtain ⟨hmin, hmax, htimestamp⟩ := hb.2 hcolumn
  rw [heq]
  exact ⟨hmin, hmax, htimestamp⟩

end Store

end BucketPlanner
