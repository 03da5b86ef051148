import BucketPlanner.Proofs.Store.Opened

/-!
# Counts of an opened store

Counts of a run over a schema and its indexes are numbers of entries. Opening a store is a run that
enters each record under an offset of its own, when all indexes are there; so an index of the store
counts the records whose key is in a range (`Store.count_eq_countP`). `Store.count_exact` has both.
-/

namespace BucketPlanner

namespace Store

variable {store : Store} {clock : Nat → UInt64} {s : Indexing} {id : IndexId} {record : Record}
  {records : List Record} {defs : List (String × Binary64)} {offset o : Offset} {n : Nat}

/-! ### The calls of opening a store -/

/-- Adding indexes enters no record. -/
theorem not_meets_additions {t : Indexing} :
    ¬ s.Meets (additions defs) t (.enter record offset) := by
  intro h
  obtain ⟨d, -, hd⟩ := List.mem_map.1 h.mem
  simp at hd

theorem size_step_enter : (s.step (.enter record offset)).log.size = s.log.size := by
  rw [Indexing.step, ← IndexLog.length_bucketSizes, IndexLog.bucketSizes_enter,
    IndexLog.length_bucketSizes]

/-- The records are entered one after the other. -/
theorem enters_entries :
    s.Enters (entries n records) id record o ↔
      id.position < s.log.size ∧ ∃ i, records[i]? = some record ∧ o = .ofNat (n + i) := by
  induction records generalizing s n with
  | nil => simp [entries]
  | cons first rest ih =>
    rw [entries, Indexing.enters_cons, ih, size_step_enter, IndexLog.Operation.enter.injEq]
    constructor
    · rintro (⟨⟨rfl, rfl⟩, hlt⟩ | ⟨hlt, i, hi, rfl⟩)
      · exact ⟨hlt, 0, rfl, rfl⟩
      · exact ⟨hlt, i + 1, hi, by rw [Nat.add_right_comm, Nat.add_assoc]⟩
    · rintro ⟨hlt, _ | i, hi, rfl⟩
      · exact Or.inl ⟨⟨by simpa using hi, rfl⟩, hlt⟩
      · exact Or.inr ⟨hlt, i, hi, by rw [Nat.add_right_comm, Nat.add_assoc]⟩

theorem size_run_entries : (s.run (entries n records)).log.size = s.log.size := by
  induction records generalizing s n with
  | nil => rfl
  | cons first rest ih => rw [entries, Indexing.run_cons, ih, size_step_enter]

/-- **Opening a store** enters its records when all indexes are there. -/
theorem enters_additions_entries :
    s.Enters (additions defs ++ entries n records) id record o ↔
      id.position < (s.run (additions defs)).log.size ∧
        ∃ i, records[i]? = some record ∧ o = .ofNat (n + i) := by
  have hnone : ¬ s.Enters (additions defs) id record o := fun ⟨_, h, _⟩ => not_meets_additions h
  rw [Indexing.enters_append, or_iff_right hnone, enters_entries]

theorem entersAll_additions_entries
    (h : (s.run (additions defs)).EntersAll (entries n records)) :
    s.EntersAll (additions defs ++ entries n records) :=
  Indexing.entersAll_append.2 ⟨fun _ _ _ hmeets => absurd hmeets not_meets_additions, h⟩

/-! ### Records and their keys -/

/-- Records at different places have different offsets. -/
theorem nodup_offsets (hlength : records.length ≤ 2 ^ 64) (p : Record × Nat → Bool) :
    ((records.zipIdx.filter p).map fun x => UInt64.ofNat x.2).Nodup := by
  have hplaces : ((records.zipIdx.filter p).map Prod.snd).Sublist (List.range records.length) := by
    have hsub := (List.filter_sublist (p := p) (l := records.zipIdx)).map Prod.snd
    rwa [List.zipIdx_map_snd, ← List.range_eq_range'] at hsub
  have hoffsets : (((records.zipIdx.filter p).map Prod.snd).map UInt64.ofNat).Nodup := by
    refine List.Nodup.map_on ?_ (List.nodup_range.sublist hplaces)
    intro i hi j hj heq
    have hi' := List.mem_range.1 (hplaces.subset hi)
    have hj' := List.mem_range.1 (hplaces.subset hj)
    have hval := congrArg UInt64.toNat heq
    rwa [UInt64.toNat_ofNat', UInt64.toNat_ofNat', Nat.mod_eq_of_lt (by omega),
      Nat.mod_eq_of_lt (by omega)] at hval
  rwa [List.map_map] at hoffsets

/-- Records at different places make different entries. -/
theorem encard_entries_eq_countP (hlength : records.length ≤ 2 ^ 64) (key? : Record → Option Key)
    (range : KeyRange) :
    {e : Key × Offset | e.1 ∈ range ∧ ∃ record, (∃ i, records[i]? = some record ∧ e.2 = .ofNat i) ∧
      key? record = some e.1}.encard =
        records.countP fun record => (key? record).any (· ∈ range) := by
  let inRange (record : Record) : Bool := (key? record).any (· ∈ range)
  let placed := records.zipIdx.filter (inRange ·.1)
  let keyed := placed.map fun x => ((key? x.1).getD default, UInt64.ofNat x.2)
  have hset : {e : Key × Offset | e.1 ∈ range ∧ ∃ record,
      (∃ i, records[i]? = some record ∧ e.2 = .ofNat i) ∧ key? record = some e.1} =
        {e | e ∈ keyed} := by
    ext ⟨k, o⟩
    simp only [Set.mem_ofPred_eq, keyed, placed, List.mem_map, List.mem_filter, Prod.exists,
      List.mem_zipIdx_iff_getElem?, Prod.mk.injEq]
    constructor
    · rintro ⟨hk, record, ⟨i, hi, rfl⟩, hkey⟩
      exact ⟨record, i, ⟨hi, by simp [inRange, hkey, hk]⟩, by simp [hkey], rfl⟩
    · rintro ⟨record, i, ⟨hi, hrange⟩, hk, rfl⟩
      obtain ⟨k', hk', hmem⟩ := (Option.any_eq_true ..).1 hrange
      rw [hk', Option.getD_some] at hk
      rw [← hk]
      exact ⟨of_decide_eq_true hmem, record, ⟨i, hi, rfl⟩, hk'⟩
  have hnodup : keyed.Nodup := by
    -- The offsets tell the entries apart.
    have hoffsets := nodup_offsets hlength (inRange ·.1)
    refine List.Nodup.of_map Prod.snd ?_
    rwa [List.map_map]
  have hlen : keyed.length = records.countP inRange :=
    calc keyed.length = records.zipIdx.countP (inRange ∘ Prod.fst) := by
          rw [List.length_map, ← List.countP_eq_length_filter]
          rfl
      _ = records.countP inRange := by rw [← List.countP_map, List.zipIdx_map_fst]
  rw [hset, encard_setOf_mem hnodup, hlen]

/-- **An index of an opened store** counts the records whose key is in the range. -/
theorem count_eq_countP {config : Config} {index : BucketIndex}
    (hopen : (ofConfig config clock).result = .ok store) (hlength : config.records.length ≤ 2 ^ 64)
    (hindex : store.indexes.index? id = some index) :
    ∃ n c state, store.schema.column? n = some c ∧ c.index = some state ∧ state.id = id ∧
      ∀ range, index.count range =
        store.records.countP fun record =>
          (Indexing.keyAt? n state.bucketSize record).any (· ∈ range) := by
  obtain ⟨b, added, _, hb, rfl, hread, hentered, hrun⟩ := exists_run_of_ofConfig hopen
  let opened := (Indexing.start b.build).run (additions config.schema.indexDefs)
  let ops := additions config.schema.indexDefs ++ entries 0 store.records
  have hopened : (Indexing.start b.build).run ops = ⟨store.schema, store.indexes, added⟩ := by
    rw [Indexing.run_append, hrun]
  have hrecorded := (Indexing.Recorded.start hb.1).run ops
  have hfinal : ((Indexing.start b.build).run ops).log.index? id = some index := by
    rw [hopened]
    exact hindex
  obtain ⟨n, c, state, hcolumn, rfl⟩ := hrecorded.exists_hasIndex hfinal
  -- All indexes are there when the first record is entered.
  have hlt : state.id.position < opened.log.size := by
    have hlt := hrecorded.consistent.id_lt hcolumn
    rwa [Indexing.run_append, size_run_entries] at hlt
  have henters : ∀ record o, (Indexing.start b.build).Enters ops state.id record o ↔
      ∃ i, store.records[i]? = some record ∧ o = .ofNat i := by
    intro record o
    rw [enters_additions_entries, and_iff_right hlt]
    simp
  have hall : (Indexing.start b.build).EntersAll ops := entersAll_additions_entries hentered
  have hcount := Indexing.count_run (fun _ h => hb.1.index_eq_none h) hall hfinal hcolumn
  simp only [henters] at hcount
  rw [hopened] at hcolumn
  refine ⟨n, c, state, hcolumn.1, hcolumn.2, rfl, fun range => ?_⟩
  have hlengths : config.records.length = store.records.length := by
    rw [← hread.length_eq, List.length_zipIdx]
  have hrange := hcount range
  rw [encard_entries_eq_countP (hlengths ▸ hlength)] at hrange
  exact_mod_cast hrange

/-- **Counts are exact.** After a run that starts without indexes and enters all its records without
an error, the count of an index is the number of pairs of a key in the range and an offset such that
a record was entered there, after the index was added, whose value has the key. After a store is
opened, it is the number of records whose value has its key in the range; there are no more records
than offsets. -/
theorem count_exact :
    (∀ {schema : Schema} {ops : List IndexLog.Operation} {id : IndexId} {count : KeyRange → Nat},
      (∀ column ∈ schema.columns, column.index = none) →
      (Indexing.start schema).EntersAll ops →
      ((Indexing.start schema).run ops).log.costs id = some count →
      ∃ n c state, ((Indexing.start schema).run ops).HasIndex n c state ∧ state.id = id ∧
        ∀ range, (count range : ℕ∞) = {e : Key × Offset | e.1 ∈ range ∧
          ∃ record, (Indexing.start schema).Enters ops id record e.2 ∧
            Indexing.keyAt? n state.bucketSize record = some e.1}.encard) ∧
    ∀ {config : Config} {clock : Nat → UInt64} {store : Store} {id : IndexId} {count : KeyRange → Nat},
      (ofConfig config clock).result = .ok store → config.records.length ≤ 2 ^ 64 →
      store.indexes.costs id = some count →
      ∃ n c state, store.schema.column? n = some c ∧ c.index = some state ∧ state.id = id ∧
        ∀ range, count range =
          store.records.countP fun record =>
            (Indexing.keyAt? n state.bucketSize record).any (· ∈ range) := by
  constructor
  · intro schema ops id count hschema hentered hcount
    obtain ⟨index, hindex, rfl⟩ := Option.map_eq_some_iff.1 hcount
    obtain ⟨n, c, state, hcolumn, rfl⟩ :=
      ((Indexing.Recorded.ofUnindexed hschema).run ops).exists_hasIndex hindex
    exact ⟨n, c, state, hcolumn, rfl, Indexing.count_run hschema hentered hindex hcolumn⟩
  · intro config clock store id count hopen hlength hcount
    obtain ⟨index, hindex, rfl⟩ := Option.map_eq_some_iff.1 hcount
    exact count_eq_countP hopen hlength hindex

/-- An index that is added after the first record, another record that is entered twice, and a store
of three records. -/
theorem count_exact_ages :
    let ops : List IndexLog.Operation := [
      .addIndex "age" (.ofNat 10), .enter [.uint 1, .int 35] 0, .addIndex "timestamp" (.ofNat 10),
      .enter [.uint 2, .int 37] 1, .enter [.uint 2, .int 37] 1, .enter [.uint 13, .int 64] 2]
    let record (age time : UInt64) : Json :=
      .object [("age", .number (.natural age)), ("timestamp", .number (.natural time))]
    let config : Config := {
      logLevel := "warn"
      schema := ⟨[⟨"age", "int", none, none, none, some ⟨.ofNat 10⟩⟩]⟩
      records := [record 35 1, record 37 2, record 64 13] }
    (∃ b count n c state, SchemaBuilder.start.addColumn .int "age" = .ok b ∧
      (Indexing.start b.build).EntersAll ops ∧
      ((Indexing.start b.build).run ops).log.costs ⟨1⟩ = some count ∧
      ((Indexing.start b.build).run ops).HasIndex n c state ∧ state.id = ⟨1⟩ ∧
      {e : Key × Offset | e.1 ∈ KeyRange.point (.clamp 0) ∧
        ∃ record, (Indexing.start b.build).Enters ops ⟨1⟩ record e.2 ∧
          Indexing.keyAt? n state.bucketSize record = some e.1}.encard = 1) ∧
    ∃ store count n c state, (ofConfig config fun _ => 0).result = .ok store ∧
      store.indexes.costs ⟨0⟩ = some count ∧ store.schema.column? n = some c ∧
      c.index = some state ∧ state.id = ⟨0⟩ ∧
      (store.records.countP fun record => (Indexing.keyAt? n state.bucketSize record).any
        (· ∈ KeyRange.point (.clamp 3))) = 2 := by
  intro ops record config
  constructor
  · have hbuilt : (SchemaBuilder.start.addColumn .int "age").toOption.any fun b =>
        decide ((∀ column ∈ b.build.columns, column.index = none) ∧
          (Indexing.start b.build).EntersAll ops) &&
        (((Indexing.start b.build).run ops).log.costs ⟨1⟩).any (· (.point (.clamp 0)) == 1) := by
      decide +kernel
    obtain ⟨b, hb, h⟩ := exists_ok_of_any hbuilt
    rw [Bool.and_eq_true, decide_eq_true_eq, Option.any_eq_true] at h
    obtain ⟨⟨hschema, hentered⟩, count, hcount, hone⟩ := h
    obtain ⟨n, c, state, hcolumn, hid, hexact⟩ := count_exact.1 hschema hentered hcount
    refine ⟨b, count, n, c, state, hb, hentered, hcount, hcolumn, hid, ?_⟩
    rw [← hexact, beq_iff_eq.1 hone]
    rfl
  · have hopen : (ofConfig config fun _ => 0).result.toOption.any fun store =>
        (store.indexes.costs ⟨0⟩).any (· (.point (.clamp 3)) == 2) := by
      decide +kernel
    obtain ⟨store, hstore, h⟩ := exists_ok_of_any hopen
    rw [Option.any_eq_true] at h
    obtain ⟨count, hcount, htwo⟩ := h
    obtain ⟨n, c, state, hc, hstate, hid, hexact⟩ := count_exact.2 hstore (by decide) hcount
    exact ⟨store, count, n, c, state, hstore, hcount, hc, hstate, hid,
      (hexact _).symm.trans (beq_iff_eq.1 htwo)⟩

end Store

end BucketPlanner
