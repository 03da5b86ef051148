import BucketPlanner.Proofs.Bucket.Entries
import BucketPlanner.Proofs.Bucket.Run

/-!
# What entering a record does to the indexes

The fields of a record are entered one after the other, up to the first that cannot be entered.

* `IndexLog.holds_enterFields`: the entries afterwards are those before and those of the fields in
  front of that one;
* `IndexLog.error_enterFields_eq_none_iff`: there is no error when all fields can be entered;
* `IndexLog.IsOrdered.run`: the indexes stay in order in every run;
* `IndexLog.costs_enter_eq_iff`: when counts are the same after a failure as before it.
-/

namespace BucketPlanner

namespace IndexLog

/-- The index that a field is entered into and the key under which it is entered. There is none
when the column has no index, the index is not there or the value has no key. -/
def entryOf? (log : IndexLog) (field : Column × Value) : Option (IndexId × Key) := do
  let state ← field.1.index
  let index ← log.index? state.id
  let key ← field.2.key? index.bucketSize
  return (state.id, key)

/-- A field can be entered, or its column has no index. -/
def accepts (log : IndexLog) (field : Column × Value) : Bool :=
  !field.1.isIndexed || (log.entryOf? field).isSome

/-- The log with an entry more. -/
def insert (log : IndexLog) (offset : Offset) (e : IndexId × Key) : IndexLog :=
  ⟨log.indexes.modify e.1.position (·.insert e.2 offset)⟩

/-- An index of the log has an entry. -/
def Holds (log : IndexLog) (id : IndexId) (e : Key × Offset) : Prop :=
  ∃ index ∈ log.index? id, e ∈ index

instance (log : IndexLog) (id : IndexId) (e : Key × Offset) : Decidable (log.Holds id e) :=
  inferInstanceAs (Decidable (∃ index ∈ log.index? id, e ∈ index))

/-- All indexes have their keys and offsets in ascending order. -/
def IsOrdered (log : IndexLog) : Prop := ∀ index ∈ log.indexes, index.IsOrdered

variable {log : IndexLog} {id : IndexId} {key : Key} {offset : Offset} {e : Key × Offset}
  {field : Column × Value} {fields rest : List (Column × Value)} {schema : Schema} {record : Record}

/-! ### One entry -/

theorem bucketSizes_insert (log : IndexLog) (offset : Offset) (e : IndexId × Key) :
    (log.insert offset e).bucketSizes = log.bucketSizes := by
  apply List.ext_getElem?
  intro i
  simp only [bucketSizes, insert, List.getElem?_map, List.getElem?_modify]
  split
  · cases log.indexes[i]? <;> rfl
  · simp

theorem index?_insert_of_ne {id' : IndexId} (h : id' ≠ id) :
    (log.insert offset (id, key)).index? id' = log.index? id' := by
  have hne : id.position ≠ id'.position := fun heq => h (IndexId.eq_of_position heq.symm)
  simp [index?, insert, hne]

theorem index?_insert_self :
    (log.insert offset (id, key)).index? id = (log.index? id).map (·.insert key offset) := by
  simp [index?, insert]

theorem holds_insert {id' : IndexId} (hid : (log.index? id).isSome) :
    (log.insert offset (id, key)).Holds id' e ↔ log.Holds id' e ∨ id' = id ∧ e = (key, offset) := by
  by_cases h : id' = id
  · subst h
    obtain ⟨index, hindex⟩ := Option.isSome_iff_exists.1 hid
    simp [Holds, index?_insert_self, hindex, or_comm]
  · simp [Holds, index?_insert_of_ne h, h]

theorem IsOrdered.insert (h : log.IsOrdered) (offset : Offset) (e : IndexId × Key) :
    (log.insert offset e).IsOrdered := by
  intro index hindex
  obtain ⟨i, hi⟩ := List.getElem?_of_mem hindex
  rw [IndexLog.insert, List.getElem?_modify] at hi
  obtain ⟨old, hold, rfl⟩ := Option.map_eq_some_iff.1 hi
  have hordered := h old (List.mem_of_getElem? hold)
  split
  · exact hordered.insert ..
  · exact hordered

/-! ### The fields of a record -/

theorem map_bucketSize_index? (log : IndexLog) (id : IndexId) :
    (log.index? id).map BucketIndex.bucketSize = log.bucketSizes[id.position]? := by
  rw [index?, bucketSizes, List.getElem?_map]

theorem entryOf?_eq_some_iff {state : ColumnIndex} (h : field.1.index = some state) :
    log.entryOf? field = some (id, key) ↔
      id = state.id ∧ ∃ index ∈ log.index? id, field.2.key? index.bucketSize = some key := by
  simp only [entryOf?, h, bind, pure, Option.bind_some, Option.bind_eq_some_iff]
  constructor
  · rintro ⟨index, hindex, k, hk, heq⟩
    simp only [Option.some.injEq, Prod.mk.injEq] at heq
    obtain ⟨rfl, rfl⟩ := heq
    exact ⟨rfl, index, hindex, hk⟩
  · rintro ⟨rfl, index, hindex, hk⟩
    exact ⟨index, hindex, key, hk, rfl⟩

/-- What fields enter depends on the bucket sizes only. -/
theorem entryOf?_congr {log' : IndexLog} (h : log'.bucketSizes = log.bucketSizes) :
    log'.entryOf? = log.entryOf? := by
  have hsizes : ∀ log : IndexLog, log.entryOf? = fun field => field.1.index.bind fun state =>
      log.bucketSizes[state.id.position]?.bind fun size =>
        (field.2.key? size).bind fun key => some (state.id, key) := by
    intro log
    funext field
    simp only [entryOf?, ← map_bucketSize_index?, Option.bind_map]
    rfl
  rw [hsizes, hsizes, h]

theorem accepts_congr {log' : IndexLog} (h : log'.bucketSizes = log.bucketSizes) :
    log'.accepts = log.accepts := by
  funext field
  rw [accepts, accepts, entryOf?_congr h]

/-- **A field that can be entered** makes its entry, if it has one. -/
theorem enterFields_cons_of_accepts (h : log.accepts field) :
    enterFields offset (field :: rest) log =
      enterFields offset rest ((log.entryOf? field).elim log (log.insert offset)) := by
  obtain ⟨column, value⟩ := field
  cases hstate : column.index with
  | none => simp [enterFields, entryOf?, hstate]
  | some state =>
    have hsome : (log.entryOf? (column, value)).isSome := by
      simpa [accepts, Column.isIndexed, hstate] using h
    obtain ⟨⟨id, key⟩, hentry⟩ := Option.isSome_iff_exists.1 hsome
    obtain ⟨rfl, index, hindex, hkey⟩ := (entryOf?_eq_some_iff hstate).1 hentry
    -- Replacing the index in the list is inserting into it there.
    have hset : log.indexes.set state.id.position (index.insert key offset) =
        (log.insert offset (state.id, key)).indexes := by
      rw [insert, List.modify_eq_set_getElem?,
        show log.indexes[state.id.position]? = some index from hindex]
      rfl
    simp only [enterFields, hstate, Option.mem_def.1 hindex, BucketIndex.insertValue?, hkey,
      Option.map_some, hset, hentry, Option.elim]

/-- **A field that cannot be entered** ends it. -/
theorem enterFields_cons_of_not_accepts (offset : Offset) (rest : List (Column × Value))
    (h : ¬ log.accepts field) :
    ∃ error, enterFields offset (field :: rest) log = ⟨log, some error⟩ := by
  obtain ⟨column, value⟩ := field
  cases hstate : column.index with
  | none => simp [accepts, Column.isIndexed, hstate] at h
  | some state =>
    simp only [enterFields, hstate]
    cases hindex : log.index? state.id with
    | none => exact ⟨_, rfl⟩
    | some index =>
      have hkey : value.key? index.bucketSize = none := by
        rw [Option.eq_none_iff_forall_ne_some]
        simpa [accepts, Column.isIndexed, entryOf?, hstate, hindex, bind, pure] using h
      simp only [BucketIndex.insertValue?, hkey, Option.map_none]
      exact ⟨_, rfl⟩

theorem isSome_index?_of_entryOf? (h : log.entryOf? field = some (id, key)) :
    (log.index? id).isSome := by
  cases hstate : field.1.index with
  | none => simp [entryOf?, hstate] at h
  | some state =>
    obtain ⟨-, index, hindex, -⟩ := (entryOf?_eq_some_iff hstate).1 h
    simp [Option.mem_def.1 hindex]

/-- A field makes no entry into an index that is not there. -/
theorem lt_size_of_entryOf? (h : log.entryOf? field = some (id, key)) : id.position < log.size := by
  obtain ⟨index, hindex⟩ := Option.isSome_iff_exists.1 (isSome_index?_of_entryOf? h)
  exact (List.getElem?_eq_some_iff.1 hindex).1

/-- The log after a field that can be entered. -/
theorem holds_elim_insert :
    ((log.entryOf? field).elim log (log.insert offset)).Holds id e ↔
      log.Holds id e ∨ e.2 = offset ∧ log.entryOf? field = some (id, e.1) := by
  cases hentry : log.entryOf? field with
  | none => simp
  | some x =>
    obtain ⟨id', key⟩ := x
    obtain ⟨k, o⟩ := e
    rw [Option.elim, holds_insert (isSome_index?_of_entryOf? hentry)]
    simp only [Option.some.injEq, Prod.mk.injEq]
    refine or_congr_right ⟨?_, ?_⟩
    · rintro ⟨rfl, rfl, rfl⟩
      exact ⟨rfl, rfl, rfl⟩
    · rintro ⟨rfl, rfl, rfl⟩
      exact ⟨rfl, rfl, rfl⟩

theorem bucketSizes_elim_insert :
    ((log.entryOf? field).elim log (log.insert offset)).bucketSizes = log.bucketSizes := by
  cases log.entryOf? field with
  | none => rfl
  | some x => exact bucketSizes_insert ..

/-- **The entries after fields are entered** are those before, and those of the fields in front of
the first that cannot be entered. -/
theorem holds_enterFields (offset : Offset) (fields : List (Column × Value)) (log : IndexLog) :
    (enterFields offset fields log).log.Holds id e ↔
      log.Holds id e ∨ e.2 = offset ∧
        ∃ field ∈ fields.takeWhile log.accepts, log.entryOf? field = some (id, e.1) := by
  induction fields generalizing log with
  | nil => simp [enterFields]
  | cons field rest ih =>
    by_cases h : log.accepts field
    -- An entry leaves the bucket sizes, and with them what the other fields enter.
    · rw [enterFields_cons_of_accepts h, ih, holds_elim_insert,
        accepts_congr bucketSizes_elim_insert, entryOf?_congr bucketSizes_elim_insert,
        List.takeWhile_cons_of_pos h, List.exists_mem_cons_iff]
      tauto
    · obtain ⟨error, herror⟩ := enterFields_cons_of_not_accepts offset rest h
      rw [herror, List.takeWhile_cons_of_neg h]
      simp

/-- **There is no error** when all fields can be entered. -/
theorem error_enterFields_eq_none_iff (offset : Offset) (fields : List (Column × Value))
    (log : IndexLog) :
    (enterFields offset fields log).error = none ↔ ∀ field ∈ fields, log.accepts field := by
  induction fields generalizing log with
  | nil => simp [enterFields]
  | cons field rest ih =>
    by_cases h : log.accepts field
    · rw [enterFields_cons_of_accepts h, ih, accepts_congr bucketSizes_elim_insert]
      simp [h]
    · obtain ⟨error, herror⟩ := enterFields_cons_of_not_accepts offset rest h
      simp [herror, h]

theorem IsOrdered.enterFields (hlog : log.IsOrdered) (offset : Offset)
    (fields : List (Column × Value)) : (enterFields offset fields log).log.IsOrdered := by
  induction fields generalizing log with
  | nil => exact hlog
  | cons field rest ih =>
    by_cases h : log.accepts field
    · rw [enterFields_cons_of_accepts h]
      apply ih
      cases log.entryOf? field with
      | none => exact hlog
      | some x => exact hlog.insert offset x
    · obtain ⟨error, herror⟩ := enterFields_cons_of_not_accepts offset rest h
      rwa [herror]

/-! ### Records -/

/-- The indexes of the log are those before and an empty one. -/
theorem indexes_addIndex {column : String} {bucketSize : Binary64} {added : Added}
    (h : log.addIndex schema column bucketSize = .ok added) :
    added.log.indexes = log.indexes ++ [BucketIndex.empty bucketSize] := by
  obtain ⟨-, -, -, -, -, -, -, -, -, hlog⟩ := addIndex_eq_ok_iff.1 h
  exact hlog

theorem holds_addIndex {column : String} {bucketSize : Binary64} {added : Added}
    (h : log.addIndex schema column bucketSize = .ok added) :
    added.log.Holds id e ↔ log.Holds id e := by
  simp only [Holds, index?, indexes_addIndex h, List.getElem?_append]
  split
  · rfl
  next hge =>
    rw [List.getElem?_eq_none (Nat.le_of_not_lt hge), List.getElem?_singleton]
    split <;> simp

theorem IsOrdered.empty : IndexLog.empty.IsOrdered := by
  intro index hindex
  simp [IndexLog.empty] at hindex

theorem IsOrdered.addIndex {column : String} {bucketSize : Binary64} {added : Added}
    (hlog : log.IsOrdered) (h : log.addIndex schema column bucketSize = .ok added) :
    added.log.IsOrdered := by
  intro index hindex
  rw [indexes_addIndex h, List.mem_append, List.mem_singleton] at hindex
  rcases hindex with hold | rfl
  · exact hlog index hold
  · exact .empty bucketSize

/-- **Entering a record keeps the order**, whether it succeeds or not. -/
theorem IsOrdered.enter (hlog : log.IsOrdered) (schema : Schema) (record : Record)
    (offset : Offset) : (log.enter schema record offset).log.IsOrdered := by
  unfold IndexLog.enter
  split
  · exact hlog
  · exact hlog.enterFields offset _

/-- **The entries after a record is entered** without an error are those before and those of its
fields. -/
theorem holds_enter (h : (log.enter schema record offset).error = none) :
    (log.enter schema record offset).log.Holds id e ↔
      log.Holds id e ∨ e.2 = offset ∧
        ∃ field ∈ schema.columns.zip record, log.entryOf? field = some (id, e.1) := by
  unfold enter at h ⊢
  split at h
  · simp at h
  next hsize =>
    rw [if_neg hsize, holds_enterFields,
      List.takeWhile_eq_self_iff.2 ((error_enterFields_eq_none_iff ..).1 h)]

theorem IsOrdered.step {s : Indexing} (hs : s.log.IsOrdered) (op : Operation) :
    (s.step op).log.IsOrdered :=
  Indexing.step_keeps (P := fun t => t.log.IsOrdered) (fun hadd => hs.addIndex hadd)
    (fun record offset => hs.enter s.schema record offset) hs op

/-- **Every run keeps the order.** -/
theorem IsOrdered.run {s : Indexing} (hs : s.log.IsOrdered) (ops : List Operation) :
    (s.run ops).log.IsOrdered :=
  Indexing.run_keeps (P := fun t => t.log.IsOrdered) (fun ht => IsOrdered.step ht) hs ops

/-! ### Counts -/

/-- Logs with the same bucket sizes have indexes under the same identifiers. -/
theorem index?_cases {log' : IndexLog} (hsizes : log'.bucketSizes = log.bucketSizes) (id : IndexId) :
    (log.index? id = none ∧ log'.index? id = none) ∨
      ∃ index index', log.index? id = some index ∧ log'.index? id = some index' := by
  have hsize : (log'.index? id).map BucketIndex.bucketSize =
      (log.index? id).map BucketIndex.bucketSize := by
    rw [map_bucketSize_index?, map_bucketSize_index?, hsizes]
  cases hindex : log.index? id with
  | none => exact Or.inl ⟨rfl, by simpa [hindex] using hsize⟩
  | some index =>
    obtain ⟨index', hindex', -⟩ := Option.map_eq_some_iff.1 (hsize.trans (by rw [hindex]; rfl))
    exact Or.inr ⟨index, index', rfl, hindex'⟩

/-- Counts are the same in two logs, one with all entries of the other, when there are no more. -/
theorem costs_eq_iff {log' : IndexLog} (hlog : log.IsOrdered) (hlog' : log'.IsOrdered)
    (hsizes : log'.bucketSizes = log.bucketSizes)
    (hsub : ∀ {id e}, log.Holds id e → log'.Holds id e) :
    log'.costs = log.costs ↔ ∀ {id e}, log'.Holds id e → log.Holds id e := by
  have hcount : ∀ {id index index'}, log.index? id = some index → log'.index? id = some index' →
      (index'.count = index.count ↔ ∀ e ∈ index', e ∈ index) := by
    intro id index index' hindex hindex'
    refine BucketIndex.count_eq_iff (hlog _ (List.mem_of_getElem? hindex))
      (hlog' _ (List.mem_of_getElem? hindex')) ?_
    intro e he
    obtain ⟨found, hfound, hmem⟩ := hsub ⟨index, hindex, he⟩
    rwa [Option.mem_unique hfound hindex'] at hmem
  constructor
  · rintro hcosts id e ⟨index', hindex', he⟩
    have hid := congrFun hcosts id
    rcases index?_cases hsizes id with ⟨-, hnone⟩ | ⟨index, found, hindex, hfound⟩
    · simp [hnone] at hindex'
    · obtain rfl := Option.mem_unique hindex' hfound
      simp only [costs, hindex, hfound, Option.map_some, Option.some.injEq] at hid
      exact ⟨index, hindex, (hcount hindex hfound).1 hid e he⟩
  · intro hback
    funext id
    rcases index?_cases hsizes id with ⟨hnone, hnone'⟩ | ⟨index, index', hindex, hindex'⟩
    · simp only [costs, hnone, hnone']
    · have hall : ∀ e ∈ index', e ∈ index := by
        intro e he
        obtain ⟨found, hfound, hmem⟩ := hback ⟨index', hindex', he⟩
        rwa [Option.mem_unique hfound hindex] at hmem
      simp only [costs, hindex, hindex', Option.map_some, (hcount hindex hindex').2 hall]

/-- **A failed entry leaves every count as it was** exactly when it enters nothing that is not there
yet: the record has a wrong size, or the fields in front of the first that cannot be entered have
their entries already. The log is in order, as it is after every run (`IsOrdered.run`). -/
theorem costs_enter_eq_iff {error : IndexError} (hlog : log.IsOrdered)
    (herror : (log.enter schema record offset).error = some error) :
    (log.enter schema record offset).log.costs = log.costs ↔
      record.length ≠ schema.size ∨
        ∃ front field back, schema.columns.zip record = front ++ field :: back ∧
          ¬ log.accepts field ∧
          ∀ f ∈ front, log.accepts f ∧ ∀ x ∈ log.entryOf? f, log.Holds x.1 (x.2, offset) := by
  by_cases hsize : record.length = schema.size
  · rw [enter, if_neg (not_not_intro hsize)] at herror ⊢
    have hfails : ∃ field ∈ schema.columns.zip record, ¬ log.accepts field := by
      by_contra hall
      have hnone := (error_enterFields_eq_none_iff offset (schema.columns.zip record) log).2
        fun field hfield => by_contra fun hno => hall ⟨field, hfield, hno⟩
      simp [herror] at hnone
    rw [or_iff_right (not_not_intro hsize), ← forall_takeWhile_iff hfails,
      costs_eq_iff hlog (hlog.enterFields offset _) (bucketSizes_enterFields ..)
        fun h => (holds_enterFields ..).2 (Or.inl h)]
    constructor
    · rintro hback field hfield ⟨id, key⟩ hx
      exact hback ((holds_enterFields ..).2 (Or.inr ⟨rfl, field, hfield, hx⟩))
    · rintro hall id ⟨key, o⟩ hholds
      rcases (holds_enterFields ..).1 hholds with hold | ⟨rfl, field, hfield, hx⟩
      · exact hold
      · exact hall field hfield _ hx
  · rw [enter, if_pos hsize]
    exact iff_of_true rfl (Or.inl hsize)

/-- The time stamp in front of the text has its entry from the record before. -/
theorem costs_enter_eq_iff_again :
    let s (b : SchemaBuilder) := (Indexing.start b.build).run [
      .addIndex "timestamp" (.ofNat 1), .addIndex "age" (.ofNat 1), .enter [.uint 5, .int 30] 0]
    let entered (b : SchemaBuilder) := (s b).log.enter (s b).schema [.uint 5, .text "x"] 0
    ∃ b, SchemaBuilder.start.addColumn .int "age" = .ok b ∧ (s b).log.IsOrdered ∧
      (entered b).error.isSome ∧ (entered b).log.costs = (s b).log.costs := by
  intro s entered
  have hbuilt : (SchemaBuilder.start.addColumn .int "age").toOption.any fun b =>
      let fields := (s b).schema.columns.zip [.uint 5, .text "x"]
      decide ((entered b).error.isSome ∧ (∃ f ∈ fields, ¬ (s b).log.accepts f) ∧
        ∀ f ∈ fields.takeWhile (s b).log.accepts, ∀ x ∈ (s b).log.entryOf? f,
          (s b).log.Holds x.1 (x.2, 0)) := by
    decide +kernel
  obtain ⟨b, hb, h⟩ := exists_ok_of_any hbuilt
  obtain ⟨hsome, hfails, hheld⟩ := of_decide_eq_true h
  obtain ⟨error, herror⟩ := Option.isSome_iff_exists.1 hsome
  have hordered : (s b).log.IsOrdered := IsOrdered.empty.run _
  exact ⟨b, hb, hordered, hsome,
    (costs_enter_eq_iff hordered herror).2 (Or.inr ((forall_takeWhile_iff hfails).1 hheld))⟩

/-- A failed entry that changes a count: the time stamp is entered before the text turns out to have
no key. -/
theorem exists_costs_enter_ne :
    let s (b : SchemaBuilder) := (Indexing.start b.build).run [
      .addIndex "timestamp" (.ofNat 1), .addIndex "age" (.ofNat 1)]
    let entered (b : SchemaBuilder) := (s b).log.enter (s b).schema [.uint 5, .text "x"] 0
    let count (log : IndexLog) := (log.costs ⟨0⟩).map (· ⟨.clamp 0, .clamp 10⟩)
    ∃ b, SchemaBuilder.start.addColumn .int "age" = .ok b ∧ (entered b).error.isSome ∧
      count (s b).log = some 0 ∧ count (entered b).log = some 1 := by
  intro s entered count
  have hbuilt : (SchemaBuilder.start.addColumn .int "age").toOption.any fun b =>
      decide ((entered b).error.isSome ∧ count (s b).log = some 0 ∧
        count (entered b).log = some 1) := by
    decide +kernel
  obtain ⟨b, hb, h⟩ := exists_ok_of_any hbuilt
  exact ⟨b, hb, of_decide_eq_true h⟩

end IndexLog

end BucketPlanner
