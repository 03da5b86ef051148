import BucketPlanner.Proofs.Bucket.Log
import BucketPlanner.Proofs.Schema.Builder

/-!
# Runs over a schema and its indexes

A schema and the log of its indexes go through additions of indexes and entries of records, some of
which fail. The schema and the log agree after every run:

* `Indexing.step_keeps`, `Indexing.run_keeps`: what additions and entries keep, a run keeps;
* `Indexing.Recorded`: what both know is what the successful additions say;
* `Indexing.Recorded.step`, `Indexing.Recorded.run`: each call, and so each run, keeps it so;
* `Indexing.run_consistent`: identifiers and columns belong to each other one to one.
-/

namespace BucketPlanner

/-- A call that changes a schema or the log of its indexes. -/
inductive IndexLog.Operation
  | addIndex (column : String) (bucketSize : Binary64)
  | enter (record : Record) (offset : Offset)

/-- A schema with the log of its indexes. -/
structure Indexing where
  schema : Schema
  log : IndexLog
  /-- The additions that succeeded, in order: the column by name, and what it then knows. -/
  added : List (String × ColumnIndex)

namespace Indexing

/-- A schema without indexes, and an empty log. -/
def start (schema : Schema) : Indexing := ⟨schema, .empty, []⟩

/-- The effect of a call. A failed addition changes nothing. -/
def step (s : Indexing) : IndexLog.Operation → Indexing
  | .addIndex column bucketSize =>
    match s.log.addIndex s.schema column bucketSize with
    | .error _ => s
    | .ok added => ⟨added.schema, added.log, s.added ++ [(column, ⟨added.id, bucketSize⟩)]⟩
  | .enter record offset => { s with log := (s.log.enter s.schema record offset).log }

/-- The effect of calls, one after the other. -/
def run (s : Indexing) (ops : List IndexLog.Operation) : Indexing := ops.foldl step s

theorem run_cons (s : Indexing) (op : IndexLog.Operation) (ops : List IndexLog.Operation) :
    s.run (op :: ops) = (s.step op).run ops := rfl

theorem run_append (s : Indexing) (ops ops' : List IndexLog.Operation) :
    s.run (ops ++ ops') = (s.run ops).run ops' := List.foldl_append ..

/-- A column has an index. -/
def HasIndex (s : Indexing) (n : Nat) (c : Column) (state : ColumnIndex) : Prop :=
  s.schema.column? n = some c ∧ c.index = some state

/-- Schema and log know of the indexes what the successful additions say. -/
structure Recorded (s : Indexing) : Prop where
  /-- The log has the added indexes, in order. -/
  sizes : s.log.bucketSizes = s.added.map (·.2.bucketSize)
  /-- An added index is that of its column, and is numbered by its turn. -/
  entry : ∀ {i name state}, s.added[i]? = some (name, state) →
    state.id.position = i ∧ Key.isBucketSize state.bucketSize ∧
      ∃ n c, s.schema.fieldIndex name = .ok n ∧ s.HasIndex n c state ∧ c.type.isIndexable
  /-- An indexed column has an added index. -/
  indexed : ∀ {n c state}, s.HasIndex n c state →
    ∃ name, s.schema.fieldIndex name = .ok n ∧ s.added[state.id.position]? = some (name, state)

variable {s : Indexing}

/-- **What a call keeps**: a property that an addition which succeeds and an entry keep. -/
theorem step_keeps {P : Indexing → Prop}
    (haddIndex : ∀ {column bucketSize added},
      s.log.addIndex s.schema column bucketSize = .ok added →
        P ⟨added.schema, added.log, s.added ++ [(column, ⟨added.id, bucketSize⟩)]⟩)
    (henter : ∀ record offset, P { s with log := (s.log.enter s.schema record offset).log })
    (h : P s) (op : IndexLog.Operation) : P (s.step op) := by
  cases op with
  | addIndex column bucketSize =>
    cases hadd : s.log.addIndex s.schema column bucketSize with
    | error e => simpa only [step, hadd] using h
    | ok added => simpa only [step, hadd] using haddIndex hadd
  | enter record offset => exact henter record offset

/-- **What a run keeps**: a property that each call keeps. -/
theorem run_keeps {P : Indexing → Prop}
    (hstep : ∀ {s : Indexing}, P s → ∀ op, P (s.step op)) (h : P s)
    (ops : List IndexLog.Operation) : P (s.run ops) := by
  induction ops generalizing s with
  | nil => exact h
  | cons op ops ih => exact ih (hstep h op)

/-- A schema without indexes, and an empty log. -/
theorem Recorded.ofUnindexed {schema : Schema}
    (h : ∀ column ∈ schema.columns, column.index = none) : (Indexing.start schema).Recorded where
  sizes := rfl
  entry h := by simp [Indexing.start] at h
  indexed hindex := by
    have hnone := h _ (List.mem_of_getElem? hindex.1)
    rw [hindex.2] at hnone
    simp at hnone

theorem Recorded.start {b : SchemaBuilder} (hb : b.Built) : (Indexing.start b.build).Recorded :=
  .ofUnindexed fun _ hcolumn => hb.index_eq_none hcolumn

theorem Recorded.length_added (h : s.Recorded) : s.added.length = s.log.size := by
  rw [← s.log.length_bucketSizes, h.sizes, List.length_map]

theorem HasIndex.addIndex {n : Nat} {c : Column} {state : ColumnIndex} (h : s.HasIndex n c state)
    {column : String} {bucketSize : Binary64} {added : IndexLog.Added}
    (hadd : s.log.addIndex s.schema column bucketSize = .ok added) :
    added.schema.column? n = some c := by
  obtain ⟨m, c', -, hc', -, hnone, -, -, hschema, -⟩ := IndexLog.addIndex_eq_ok hadd
  have hne : m ≠ n := by
    rintro rfl
    obtain rfl := Option.mem_unique hc' h.1
    simp [h.2] at hnone
  rw [hschema, Schema.column?_setColumn_of_ne hne, h.1]

/-- **An indexed column stays** as it is, with its index. -/
theorem HasIndex.step {n : Nat} {c : Column} {state : ColumnIndex} (h : s.HasIndex n c state)
    (op : IndexLog.Operation) : (s.step op).HasIndex n c state :=
  step_keeps (P := fun t => t.HasIndex n c state) (fun hadd => ⟨h.addIndex hadd, h.2⟩)
    (fun _ _ => h) h op

theorem HasIndex.run {n : Nat} {c : Column} {state : ColumnIndex} (h : s.HasIndex n c state)
    (ops : List IndexLog.Operation) : (s.run ops).HasIndex n c state :=
  run_keeps (P := fun t => t.HasIndex n c state) (fun ht => ht.step) h ops

/-- Marking a column that has no index keeps the others. -/
theorem Recorded.addIndex (h : s.Recorded) {column : String} {bucketSize : Binary64}
    {added : IndexLog.Added} (hadd : s.log.addIndex s.schema column bucketSize = .ok added) :
    Recorded ⟨added.schema, added.log, s.added ++ [(column, ⟨added.id, bucketSize⟩)]⟩ := by
  obtain ⟨n, c, hfield, hc, hindexable, hnone, hsize, hid, hschema, hlog⟩ :=
    IndexLog.addIndex_eq_ok hadd
  have hself : added.schema.column? n = some { c with index := some ⟨added.id, bucketSize⟩ } := by
    rw [hschema, Schema.column?_setColumn_self hc]
  have hname := IndexLog.fieldIndex_addIndex hadd
  refine ⟨by simp [hlog, h.sizes], ?_, ?_⟩
  · intro i name state hentry
    rcases getElem?_append_singleton hentry with hold | ⟨rfl, hnew⟩
    · obtain ⟨hpos, hb, m, c', hm, hindex, htype⟩ := h.entry hold
      exact ⟨hpos, hb, m, c', by rw [hname, hm], ⟨hindex.addIndex hadd, hindex.2⟩, htype⟩
    · obtain ⟨rfl, rfl⟩ := Prod.mk.inj hnew
      exact ⟨by rw [hid, h.length_added], hsize, n, _, by rw [hname, hfield], ⟨hself, rfl⟩, hindexable⟩
  · rintro m c' state ⟨hc', hstate⟩
    by_cases hnm : n = m
    · subst hnm
      rw [hself, Option.some.injEq] at hc'
      rw [← hc', Option.some.injEq] at hstate
      rw [← hstate]
      refine ⟨column, by rw [hname, hfield], ?_⟩
      simp [hid, ← h.length_added]
    · rw [hschema, Schema.column?_setColumn_of_ne hnm] at hc'
      obtain ⟨name, hm, hentry⟩ := h.indexed ⟨hc', hstate⟩
      refine ⟨name, by rw [hname, hm], ?_⟩
      obtain ⟨hlt, -⟩ := List.getElem?_eq_some_iff.1 hentry
      rw [List.getElem?_append_left hlt, hentry]

/-- **A call keeps schema and log in step.** -/
theorem Recorded.step (h : s.Recorded) (op : IndexLog.Operation) : (s.step op).Recorded :=
  step_keeps h.addIndex
    (fun _ _ => ⟨by rw [IndexLog.bucketSizes_enter, h.sizes], h.entry, h.indexed⟩) h op

theorem Recorded.run (h : s.Recorded) (ops : List IndexLog.Operation) : (s.run ops).Recorded :=
  run_keeps Recorded.step h ops

/-- A run changes nothing in the columns but their indexes. -/
theorem bare_run (s : Indexing) (ops : List IndexLog.Operation) :
    (s.run ops).schema.columns.map Column.bare = s.schema.columns.map Column.bare := by
  let IsSame (t : Indexing) : Prop :=
    t.schema.columns.map Column.bare = s.schema.columns.map Column.bare
  refine run_keeps (P := IsSame) (fun {t} ht op => ?_) rfl ops
  refine step_keeps (P := IsSame) ?_ (fun _ _ => ht) ht op
  intro column bucketSize added hadd
  obtain ⟨n, c, -, hc, -, -, -, -, hschema, -⟩ := IndexLog.addIndex_eq_ok hadd
  have hadded : added.schema.columns.map Column.bare = t.schema.columns.map Column.bare := by
    rw [hschema]
    exact Schema.map_setColumn hc rfl
  exact hadded.trans ht

/-- The columns keep all but their indexes in a run. -/
theorem exists_column_of_run {ops : List IndexLog.Operation} {n : Nat} {c : Column}
    (hc : (s.run ops).schema.column? n = some c) :
    ∃ c', s.schema.column? n = some c' ∧ c = { c' with index := c.index } := by
  have hbare : ((s.run ops).schema.columns.map Column.bare)[n]? = some c.bare := by
    rw [List.getElem?_map, show (s.run ops).schema.columns[n]? = some c from hc, Option.map_some]
  rw [bare_run, List.getElem?_map] at hbare
  obtain ⟨c', hc', heq⟩ := Option.map_eq_some_iff.1 hbare
  refine ⟨c', hc', ?_⟩
  cases c
  cases c'
  simp_all [Column.bare]

/-! ### Agreement of schema and log -/

/-- Schema and log agree: identifiers and indexed columns belong to each other one to one, and both
know the same bucket size. -/
structure Consistent (s : Indexing) : Prop where
  /-- The identifier of an indexed column is one of the log's. -/
  id_lt : ∀ {n c state}, s.HasIndex n c state → state.id.position < s.log.size
  /-- An identifier of the log is that of one column. -/
  existsUnique : ∀ i < s.log.size, ∃! n, ∃ c state, s.HasIndex n c state ∧ state.id.position = i
  /-- Identifiers are given in the order of the additions that succeed, each to its column. -/
  ordered : s.added.length = s.log.size ∧
    ∀ {i name state}, s.added[i]? = some (name, state) → state.id.position = i ∧
      ∃ n c, s.schema.fieldIndex name = .ok n ∧ s.HasIndex n c state
  /-- Strings are not indexed. -/
  not_string : ∀ {n c state}, s.HasIndex n c state → ∀ size, c.type ≠ .string size
  /-- Bucket sizes are positive and finite. -/
  isBucketSize : ∀ {n c state}, s.HasIndex n c state → Key.isBucketSize state.bucketSize
  /-- The index has the bucket size that its column says. -/
  sameSize : ∀ {n c state}, s.HasIndex n c state →
    (s.log.index? state.id).map BucketIndex.bucketSize = some state.bucketSize

/-- What an addition says about an indexed column. -/
theorem Recorded.ofIndex (h : s.Recorded) {n : Nat} {c : Column} {state : ColumnIndex}
    (hindex : s.HasIndex n c state) :
    c.type.isIndexable ∧ Key.isBucketSize state.bucketSize ∧
      s.log.bucketSizes[state.id.position]? = some state.bucketSize := by
  obtain ⟨name, hfield, hentry⟩ := h.indexed hindex
  obtain ⟨-, hsize, n', c', hfield', hindex', hindexable⟩ := h.entry hentry
  rw [hfield, Except.ok.injEq] at hfield'
  subst hfield'
  have hc := hindex'.1
  rw [hindex.1, Option.some.injEq] at hc
  subst hc
  exact ⟨hindexable, hsize, by simp [h.sizes, hentry]⟩

theorem Recorded.consistent (h : s.Recorded) : s.Consistent where
  id_lt hindex := by
    obtain ⟨hlt, -⟩ := List.getElem?_eq_some_iff.1 (h.ofIndex hindex).2.2
    rwa [s.log.length_bucketSizes] at hlt
  existsUnique i hi := by
    rw [← h.length_added] at hi
    obtain ⟨name, state, hentry⟩ : ∃ name state, s.added[i]? = some (name, state) :=
      ⟨_, _, List.getElem?_eq_getElem hi⟩
    obtain ⟨hpos, -, n, c, hfield, hindex, -⟩ := h.entry hentry
    refine ⟨n, ⟨c, state, hindex, hpos⟩, ?_⟩
    rintro m ⟨c', state', hindex', hpos'⟩
    -- Two columns with one identifier are the column of one addition.
    obtain ⟨name', hfield', hentry'⟩ := h.indexed hindex'
    rw [hpos', hentry, Option.some.injEq, Prod.mk.injEq] at hentry'
    rw [← hentry'.1, hfield, Except.ok.injEq] at hfield'
    exact hfield'.symm
  ordered := by
    refine ⟨h.length_added, fun hentry => ?_⟩
    obtain ⟨hpos, -, n, c, hfield, hindex, -⟩ := h.entry hentry
    exact ⟨hpos, n, c, hfield, hindex⟩
  not_string hindex size htype := by
    have hindexable := (h.ofIndex hindex).1
    rw [htype] at hindexable
    simp [DataType.isIndexable] at hindexable
  isBucketSize hindex := (h.ofIndex hindex).2.1
  sameSize hindex := by
    rw [IndexLog.index?, ← List.getElem?_map]
    exact (h.ofIndex hindex).2.2

/-- The column that carries an identifier is found. -/
theorem Consistent.columnOfIndex? (h : s.Consistent) {n : Nat} {c : Column} {state : ColumnIndex}
    (hindex : s.HasIndex n c state) : s.schema.columnOfIndex? state.id = some c := by
  obtain ⟨hc, hstate⟩ := hindex
  obtain ⟨m, -, hunique⟩ := h.existsUnique _ (h.id_lt ⟨hc, hstate⟩)
  have hn := hunique n ⟨c, state, ⟨hc, hstate⟩, rfl⟩
  unfold Schema.columnOfIndex?
  cases hfind : s.schema.indexedColumns.find? (·.indexId? == some state.id) with
  | none =>
    have hmem : c ∈ s.schema.indexedColumns :=
      List.mem_filter.2 ⟨List.mem_of_getElem? hc, by simp [Column.isIndexed, hstate]⟩
    have := List.find?_eq_none.1 hfind c hmem
    simp [Column.indexId?, hstate] at this
  | some c' =>
    -- A column with the same identifier stands at the same place.
    have hid : c'.indexId? = some state.id := by simpa using List.find?_some hfind
    obtain ⟨state', hstate', hid'⟩ := Option.map_eq_some_iff.1 hid
    obtain ⟨n', hc'⟩ := List.getElem?_of_mem (List.mem_filter.1 (List.mem_of_find?_eq_some hfind)).1
    have hn' := hunique n' ⟨c', state', ⟨hc', hstate'⟩, by rw [hid']⟩
    rw [hn', ← hn] at hc'
    rw [← hc', ← hc, Schema.column?]

/-- **Schema and log agree after every run** that starts from a built schema and an empty log. -/
theorem run_consistent {b : SchemaBuilder} (hb : b.Built) (ops : List IndexLog.Operation) :
    ((start b.build).run ops).Consistent := ((Recorded.start hb).run ops).consistent

/-- Of these calls the first addition and the first entry succeed. -/
theorem run_consistent_timestamp :
    SchemaBuilder.start.Built ∧
      let s := (start SchemaBuilder.start.build).run [
        .addIndex "timestamp" (.ofNat 10), .addIndex "age" (.ofNat 10),
        .addIndex "TIMESTAMP" (.ofNat 1), .enter [.uint 35] 0, .enter [] 1]
      s.Consistent ∧ s.log.size = 1 :=
  ⟨.start, run_consistent .start _, by decide +kernel⟩

/-! ### Reachable schemas and logs -/

/-- Schemas and logs that a run leads to from a built schema. -/
def Reachable (s : Indexing) : Prop :=
  ∃ b ops, SchemaBuilder.Built b ∧ s = (start b.build).run ops

theorem Reachable.start {b : SchemaBuilder} (hb : b.Built) : (start b.build).Reachable :=
  ⟨b, [], hb, rfl⟩

theorem Reachable.consistent (h : s.Reachable) : s.Consistent := by
  obtain ⟨b, ops, hb, rfl⟩ := h
  exact ((Recorded.start hb).run ops).consistent

/-- Indexed columns are of types whose values have keys. -/
theorem Reachable.isIndexable (h : s.Reachable) {n : Nat} {c : Column} {state : ColumnIndex}
    (hindex : s.HasIndex n c state) : c.type.isIndexable := by
  obtain ⟨b, ops, hb, rfl⟩ := h
  exact (((Recorded.start hb).run ops).ofIndex hindex).1

/-- The index of a column is there. -/
theorem Reachable.isSome_costs (h : s.Reachable) {n : Nat} {c : Column} {state : ColumnIndex}
    (hindex : s.HasIndex n c state) : (s.log.costs state.id).isSome := by
  obtain ⟨index, hlog, -⟩ := Option.map_eq_some_iff.1 (h.consistent.sameSize hindex)
  simp [IndexLog.costs, hlog]

theorem Reachable.step (h : s.Reachable) (op : IndexLog.Operation) : (s.step op).Reachable := by
  obtain ⟨b, ops, hb, rfl⟩ := h
  refine ⟨b, ops ++ [op], hb, ?_⟩
  rw [run_append]
  rfl

/-- The columns are those of a built schema, their indexes apart. -/
theorem Reachable.exists_built (h : s.Reachable) :
    ∃ b : SchemaBuilder, b.Built ∧ s.schema.columns.map Column.bare = b.columns.map Column.bare := by
  obtain ⟨b, ops, hb, rfl⟩ := h
  exact ⟨b, hb, bare_run ..⟩

/-- A column has the name and the type of a column of a built schema. -/
theorem Reachable.exists_built_column (h : s.Reachable) {c : Column} (hc : c ∈ s.schema.columns) :
    ∃ b : SchemaBuilder, b.Built ∧ ∃ c' ∈ b.columns, c'.name = c.name ∧ c'.type = c.type := by
  obtain ⟨b, hb, hbare⟩ := h.exists_built
  have hmem := hbare ▸ List.mem_map_of_mem hc
  obtain ⟨c', hc', heq⟩ := List.mem_map.1 hmem
  have hname : c'.bare.name = c.bare.name := by rw [heq]
  have htype : c'.bare.type = c.bare.type := by rw [heq]
  exact ⟨b, hb, c', hc', hname, htype⟩

theorem Reachable.type_of_timestamp (h : s.Reachable) {c : Column} (hc : c ∈ s.schema.columns)
    (hname : c.name = Schema.timestampName) : c.type = .ulong := by
  obtain ⟨b, hb, c', hc', hname', htype⟩ := h.exists_built_column hc
  exact htype ▸ hb.type_of_timestamp hc' (hname'.trans hname)

/-- Columns have different names. -/
theorem Reachable.nodup (h : s.Reachable) : (s.schema.columns.map Column.name).Nodup := by
  obtain ⟨b, hb, hbare⟩ := h.exists_built
  have hnames := congrArg (List.map Column.name) hbare
  rw [List.map_map, List.map_map] at hnames
  exact hnames ▸ hb.nodup

theorem Reachable.isFormed (h : s.Reachable) {n : Nat} {c : Column}
    (hc : s.schema.column? n = some c) : c.IsFormed n := by
  obtain ⟨b, ops, hb, rfl⟩ := h
  obtain ⟨c', hc', heq⟩ := exists_column_of_run hc
  obtain ⟨⟨hplaced, hmin, hmax, hordered⟩, -⟩ := hb.isFormed hc'
  rw [heq]
  exact ⟨hplaced, hmin, hmax, hordered⟩

end Indexing

end BucketPlanner
