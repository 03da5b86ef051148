import BucketPlanner.Proofs.Bucket.Entering
import BucketPlanner.Proofs.Store.Opened

/-!
# Loading records

A record that is read has a value for each column, in the form of the column's type; and the types of
indexed columns have keys for all of their values. So what is read can be entered, into all of its
indexes, and records are loaded without an error unless one of them is not read
(`Store.enters_of_reads`).
-/

namespace BucketPlanner

namespace Indexing

/-- A record is entered without an error, and each index gets the entry for it. -/
structure EntersWhole (s : Indexing) (record : Record) (offset : Offset) : Prop where
  noError : (s.log.enter s.schema record offset).error = none
  holds : ∀ {n c state}, s.HasIndex n c state →
    ∃ v key, record[n]? = some v ∧ v.key? state.bucketSize = some key ∧
      (s.log.enter s.schema record offset).log.Holds state.id (key, offset)

variable {s : Indexing} {now : UInt64} {json : Json} {record : Record}

/-- **A value of an indexed column** has an entry in the index. -/
theorem Reachable.exists_entry (hs : s.Reachable) {n : Nat} {c : Column} {state : ColumnIndex}
    (hindex : s.HasIndex n c state) {v : Value} (hv : c.type.admits v) :
    ∃ key, v.key? state.bucketSize = some key ∧ s.log.entryOf? (c, v) = some (state.id, key) := by
  obtain ⟨key, hkey⟩ :=
    DataType.exists_key (hs.isIndexable hindex) hv (hs.consistent.isBucketSize hindex)
  obtain ⟨index, hlog, hsize⟩ := Option.map_eq_some_iff.1 (hs.consistent.sameSize hindex)
  rw [← hsize] at hkey
  exact ⟨key, hsize ▸ hkey,
    (IndexLog.entryOf?_eq_some_iff hindex.2).2 ⟨rfl, index, hlog, hkey⟩⟩

/-- A record that is read has values in the form of the columns' types. -/
theorem Reachable.forall₂_admits (hs : s.Reachable)
    (hread : s.schema.readRecord now json = .ok record) :
    List.Forall₂ (fun c v => c.type.admits v) s.schema.columns record := by
  obtain ⟨members, -, -, hfields⟩ := Schema.readRecord_eq_ok_iff.1 hread
  refine List.forall₂_iff_zip.2 ⟨hfields.length_eq, fun {c v} hmem => ?_⟩
  have hc := (List.of_mem_zip hmem).1
  exact Schema.admits_of_readField (hs.type_of_timestamp hc) ((List.forall₂_iff_zip.1 hfields).2 hmem)

/-- **Values in the form of the columns' types** are entered, all of them. -/
theorem Reachable.entersWhole (hs : s.Reachable)
    (hrecord : List.Forall₂ (fun c v => c.type.admits v) s.schema.columns record)
    (offset : Offset) : s.EntersWhole record offset := by
  have hentry : ∀ {n c v state}, s.HasIndex n c state → record[n]? = some v →
      ∃ key, v.key? state.bucketSize = some key ∧ s.log.entryOf? (c, v) = some (state.id, key) :=
    fun hindex hv => hs.exists_entry hindex (of_getElem?_of_forall₂ hrecord hindex.1 hv)
  have hnone : (s.log.enter s.schema record offset).error = none := by
    rw [IndexLog.enter, if_neg (by simp [Schema.size, hrecord.length_eq]),
      IndexLog.error_enterFields_eq_none_iff]
    rintro ⟨c, v⟩ hmem
    obtain ⟨n, hn⟩ := List.getElem?_of_mem hmem
    obtain ⟨hc, hv⟩ := List.getElem?_zip_eq_some.1 hn
    cases hstate : c.index with
    | none => simp [IndexLog.accepts, Column.isIndexed, hstate]
    | some state =>
      obtain ⟨key, -, hkey⟩ := hentry ⟨hc, hstate⟩ hv
      simp [IndexLog.accepts, hkey]
  refine ⟨hnone, fun {n c state} hindex => ?_⟩
  obtain ⟨v, hv, -⟩ := exists_getElem?_of_forall₂ hrecord hindex.1
  obtain ⟨key, hkey, hlog⟩ := hentry hindex hv
  have hmem : (c, v) ∈ s.schema.columns.zip record :=
    List.mem_of_getElem? (List.getElem?_zip_eq_some.2 ⟨hindex.1, hv⟩)
  exact ⟨v, key, hv, hkey, (IndexLog.holds_enter hnone).2 (Or.inr ⟨rfl, (c, v), hmem, hlog⟩)⟩

end Indexing

namespace Store

variable {s : Indexing}

theorem map_snd_map_cons {record : Record} {x : Except CommandError (IndexLog × List Record)} :
    (x.map fun rest => (rest.1, record :: rest.2)).map Prod.snd =
      (x.map Prod.snd).map (record :: ·) := by
  cases x <;> rfl

/-- **Loading records** gives the records, or the error, that reading them gives. -/
theorem map_snd_addRecords (hs : s.Reachable) (clock : Nat → UInt64) (jsons : List Json) (n : Nat) :
    (addRecords s.schema clock n jsons s.log).map Prod.snd =
      ((jsons.zipIdx n).mapM fun r => s.schema.readRecord (clock r.2) r.1).mapError .schema := by
  induction jsons generalizing s n with
  | nil => rfl
  | cons json jsons ih =>
    rw [List.zipIdx_cons, List.mapM_cons]
    cases hread : s.schema.readRecord (clock n) json with
    | error e =>
      rw [addRecords_cons_of_error hread]
      simp [Except.mapError, Except.map, bind, Except.bind]
    | ok record =>
      have hnone := (hs.entersWhole (hs.forall₂_admits hread) (.ofNat n)).noError
      have hrest : (addRecords s.schema clock (n + 1) jsons
          (s.log.enter s.schema record (.ofNat n)).log).map Prod.snd = ((jsons.zipIdx (n + 1)).mapM
            fun r => s.schema.readRecord (clock r.2) r.1).mapError .schema :=
        ih (hs.step (.enter record (.ofNat n))) (n + 1)
      rw [addRecords_cons_of_ok hread hnone, map_snd_map_cons, hrest]
      cases (jsons.zipIdx (n + 1)).mapM fun r => s.schema.readRecord (clock r.2) r.1 <;>
        simp [Except.mapError, Except.map, bind, Except.bind, pure, Except.pure]

/-- **What is read is entered.** A value that is read as a record is entered, and each index gets its
entry; and when the indexes of a store are there, opening it gives the records, or the error, that
reading them gives, each with its reading of the clock. -/
theorem enters_of_reads :
    (∀ (s : Indexing) (now : UInt64) (json : Json) (record : Record) (offset : Offset), s.Reachable →
        s.schema.readRecord now json = .ok record → s.EntersWhole record offset) ∧
      ∀ (config : Config) (clock : Nat → UInt64) (schema schema' : Schema) (log : IndexLog),
        config.schema.build = .ok schema →
          (addIndexes config.schema.indexDefs schema .empty).result = .ok (schema', log) →
            (ofConfig config clock).result.map Store.records =
              (config.records.zipIdx.mapM fun r => schema'.readRecord (clock r.2) r.1).mapError
                fun e => .reported (.schema e) := by
  constructor
  · intro s now json record offset hs hread
    exact hs.entersWhole (hs.forall₂_admits hread) offset
  · intro config clock schema schema' log hbuild hindexed
    obtain ⟨b, hb, rfl⟩ := SchemaDef.build_eq_ok hbuild
    obtain ⟨added, hrun⟩ := run_additions hindexed []
    have hs : Indexing.Reachable ⟨schema', log, added⟩ := ⟨b, _, hb.1, hrun.symm⟩
    have hreported : ∀ x : Except SchemaError (List Record),
        x.mapError (fun e => Failure.reported (.schema e)) =
          (x.mapError CommandError.schema).mapError .reported := by
      intro x
      cases x <;> rfl
    rw [hreported, ← map_snd_addRecords hs clock config.records 0]
    simp only [ofConfig, load, hbuild, hindexed, bind, Except.bind]
    cases addRecords schema' clock 0 config.records log <;> rfl

/-- Two records for a column with an index, without time stamps. -/
theorem enters_of_reads_ages :
    let json (age : UInt64) : Json := .object [("age", .number (.natural age))]
    let config : Config :=
      { logLevel := "warn"
        schema := ⟨[⟨"age", "int", none, none, none, some ⟨.ofNat 10⟩⟩]⟩
        records := [json 35, json 64] }
    let clock (n : Nat) : UInt64 := .ofNat (n + 9)
    ∃ schema schema' log added record record', config.schema.build = .ok schema ∧
      (addIndexes config.schema.indexDefs schema .empty).result = .ok (schema', log) ∧
      log.size = 1 ∧ schema'.readRecord 9 (json 35) = .ok record ∧
      schema'.readRecord 10 (json 64) = .ok record' ∧
      Indexing.EntersWhole ⟨schema', log, added⟩ record 0 ∧
      (ofConfig config clock).result.map Store.records = .ok [record, record'] := by
  intro json config clock
  have hopen : config.schema.build.toOption.any fun schema =>
      (addIndexes config.schema.indexDefs schema .empty).result.toOption.any fun indexed =>
        indexed.2.size = 1 ∧ (indexed.1.readRecord 9 (json 35)).isOk ∧
          (indexed.1.readRecord 10 (json 64)).isOk := by
    decide +kernel
  obtain ⟨schema, hbuild, hopen⟩ := exists_ok_of_any hopen
  obtain ⟨⟨schema', log⟩, hindexed, hopen⟩ := exists_ok_of_any hopen
  obtain ⟨hsize, hread, hread'⟩ := of_decide_eq_true hopen
  obtain ⟨record, hrecord⟩ := isOk_iff_exists.1 hread
  obtain ⟨record', hrecord'⟩ := isOk_iff_exists.1 hread'
  obtain ⟨b, hb, hschema⟩ := SchemaDef.build_eq_ok hbuild
  obtain ⟨added, hrun⟩ := run_additions hindexed []
  have hs : Indexing.Reachable ⟨schema', log, added⟩ := by
    rw [← hrun, hschema]
    exact ⟨b, _, hb.1, rfl⟩
  obtain ⟨hwhole, hrecords⟩ := enters_of_reads
  refine ⟨schema, schema', log, added, record, record', hbuild, hindexed, hsize, hrecord, hrecord',
    hwhole _ 9 (json 35) record 0 hs hrecord, ?_⟩
  have hboth : (config.records.zipIdx.mapM fun r => schema'.readRecord (clock r.2) r.1) =
      .ok [record, record'] :=
    mapM_eq_ok_iff.2 (.cons hrecord (.cons hrecord' .nil))
  rw [hrecords config clock schema schema' log hbuild hindexed, hboth]
  rfl

end Store

end BucketPlanner
