import BucketPlanner.Proofs.Bucket.Log
import BucketPlanner.Proofs.Schema.Lookup

/-!
# Additions of indexes are made in whole

Adding an index changes a schema and a log in place, one after the other: `IndexLog.addIndexInPlace` has
each change where it is made, and what was changed before a failure would stay. It has the outcome of
`IndexLog.addIndex`, and nothing is changed by a failure (`IndexLog.run_addIndexInPlace`). An addition
succeeds exactly when the column and the bucket size allow it, and it changes one column and adds one
empty index (`IndexLog.addIndex_in_whole`).
-/

namespace BucketPlanner

/-- Bucket sizes are the finite numbers above zero. -/
theorem Key.isBucketSize_iff {s : Binary64} :
    isBucketSize s ↔ s.isFinite ∧ (Binary64.zero false).compare? s = some .lt := by
  cases s with
  | nan => simp [isBucketSize, Binary64.isFinite]
  | infinite negative => simp [isBucketSize, Binary64.isFinite]
  | finite negative n h =>
    cases negative <;>
      simp [isBucketSize, Binary64.isFinite, Binary64.isPositive, Binary64.zero, Binary64.compare?,
        Binary64.place?, compare_lt_iff_lt, Nat.pos_iff_ne_zero]

theorem DataType.isIndexable_iff_ne_string {t : DataType} :
    t.isIndexable ↔ ∀ size, t ≠ .string size := by
  cases t <;> simp [isIndexable]

theorem IndexId.exists_ofPosition?_iff {n : Nat} : (∃ id, ofPosition? n = some id) ↔ n < 2 ^ 32 := by
  unfold ofPosition?
  split <;> simp [*]

theorem Schema.find?_eq_some_iff {s : Schema} {name : String} {c : Column} :
    s.columns.find? (·.name == upperCase name) = some c ↔
      ∃ n, s.fieldIndex name = .ok n ∧ s.column? n = some c := by
  rw [List.find?_eq_bind_findIdx?_getElem?]
  rcases s.fieldIndex_cases name with ⟨n, hn, hfield⟩ | ⟨hnone, hfield⟩
  · simp [hn, hfield, Schema.column?]
  · simp [hnone, hfield]

namespace IndexLog

/-- Changes to a schema and the log of its indexes, some of which fail. What was changed before a
failure stays changed. -/
abbrev InPlace (α : Type) := ExceptT IndexError (StateM (Schema × IndexLog)) α

/-- Adds an index in place: the column is marked, and then an empty index is put at the end. -/
def addIndexInPlace (column : String) (bucketSize : Binary64) : InPlace IndexId := do
  let (schema, log) ← get
  let position ← (schema.fieldIndex column).mapError fun e => IndexError.buildFailed (.rejected e)
  let some id := IndexId.ofPosition? log.size
    | throw (.buildFailed .idsExhausted)
  let some c := schema.column? position
    | throw (.buildFailed (.columnVanished position))
  let marked ← (c.withIndex id bucketSize).mapError fun e => IndexError.buildFailed (.rejected e)
  modify fun (schema, log) => (schema.setColumn position marked, log)
  modify fun (schema, log) => (schema, ⟨log.indexes ++ [BucketIndex.empty bucketSize]⟩)
  return id

section Run

variable {α β : Type} (s : Schema × IndexLog)

theorem run_bind (x : InPlace α) (f : α → InPlace β) :
    (x >>= f).run.run s =
      match x.run.run s with
      | (.error e, s') => (.error e, s')
      | (.ok a, s') => (f a).run.run s' := by
  rw [ExceptT.run_bind, StateT.run_bind]
  generalize x.run.run s = outcome
  obtain ⟨result, s'⟩ := outcome
  cases result <;> rfl

theorem run_get : (get : InPlace (Schema × IndexLog)).run.run s = (.ok s, s) := rfl

theorem run_modify (f : Schema × IndexLog → Schema × IndexLog) :
    (modify f : InPlace Unit).run.run s = (.ok (), f s) := rfl

theorem run_pure (a : α) : (pure a : InPlace α).run.run s = (.ok a, s) := rfl

theorem run_lift (x : Except IndexError α) : (liftM x : InPlace α).run.run s = (x, s) := by
  cases x <;> rfl

end Run

variable {log : IndexLog} {schema : Schema} {column : String} {s : Binary64}

/-- **Adding in place** has the outcome of the addition, and a failure leaves schema and log as they
were. -/
theorem run_addIndexInPlace (log : IndexLog) (schema : Schema) (column : String)
    (bucketSize : Binary64) :
    (addIndexInPlace column bucketSize).run.run (schema, log) =
      match log.addIndex schema column bucketSize with
      | .error e => (.error e, schema, log)
      | .ok added => (.ok added.id, added.schema, added.log) := by
  simp only [addIndexInPlace, addIndex, run_bind, run_get, run_lift]
  cases hfield : schema.fieldIndex column with
  | error e => rfl
  | ok position =>
    dsimp only [Except.mapError]
    cases hid : IndexId.ofPosition? log.size with
    | none => rfl
    | some id =>
      dsimp only
      cases hc : schema.column? position with
      | none => rfl
      | some c =>
        simp only [run_bind, run_lift, run_modify, run_pure]
        cases hmarked : c.withIndex id bucketSize with
        | error e => rfl
        | ok marked => rfl

/-- What an addition changes: one column is marked with an identifier, and the index of this
identifier is put, without entries, behind those that there are. -/
structure Added.IsWhole (added : Added) (schema : Schema) (log : IndexLog) (column : String)
    (bucketSize : Binary64) : Prop where
  id : added.id.position = log.size
  marked : ∃ n c, schema.fieldIndex column = .ok n ∧ schema.column? n = some c ∧
    ∀ m, added.schema.column? m =
      if m = n then some { c with index := some ⟨added.id, bucketSize⟩ } else schema.column? m
  recordSize : added.schema.recordSize = schema.recordSize
  size : added.log.size = log.size + 1
  kept : ∀ id, id.position < log.size → added.log.index? id = log.index? id
  new : added.log.index? added.id = some (BucketIndex.empty bucketSize)

theorem isWhole_of_addIndex {added : Added} (h : log.addIndex schema column s = .ok added) :
    added.IsWhole schema log column s := by
  obtain ⟨n, c, hfield, hc, -, -, -, hid, hschema, hlog⟩ := addIndex_eq_ok_iff.1 h
  have hposition : added.id.position = log.indexes.length := IndexId.position_of_ofPosition? hid
  refine ⟨hposition, ⟨n, c, hfield, hc, fun m => ?_⟩, by rw [hschema]; rfl, ?_, fun id hlt => ?_, ?_⟩
  · rw [hschema]
    split
    next heq => rw [heq, Schema.column?_setColumn_self hc]
    next hne => rw [Schema.column?_setColumn_of_ne (Ne.symm hne)]
  · rw [size, hlog, List.length_append, List.length_singleton, size]
  · rw [index?, hlog, List.getElem?_append_left hlt, index?]
  · rw [index?, hlog, hposition, List.getElem?_concat_length]

/-- An addition fails only because of the column, the bucket size or the number of indexes. -/
theorem isOk_addIndex_iff :
    (log.addIndex schema column s).isOk ↔
      ∃ c, schema.columns.find? (·.name == upperCase column) = some c ∧
        (∀ size, c.type ≠ .string size) ∧ c.index = none ∧
        (s.isFinite ∧ (Binary64.zero false).compare? s = some .lt) ∧ log.size < 2 ^ 32 := by
  simp only [← Key.isBucketSize_iff, ← DataType.isIndexable_iff_ne_string,
    ← IndexId.exists_ofPosition?_iff, Schema.find?_eq_some_iff]
  rw [isOk_iff_exists]
  constructor
  · rintro ⟨added, hadd⟩
    obtain ⟨n, c, hfield, hc, hindexable, hnone, hsize, hid, -, -⟩ := addIndex_eq_ok_iff.1 hadd
    exact ⟨c, ⟨n, hfield, hc⟩, hindexable, hnone, hsize, _, hid⟩
  · rintro ⟨c, ⟨n, hfield, hc⟩, hindexable, hnone, hsize, id, hid⟩
    let added : Added :=
      { id
        schema := schema.setColumn n { c with index := some ⟨id, s⟩ }
        log := ⟨log.indexes ++ [BucketIndex.empty s]⟩ }
    exact ⟨added,
      addIndex_eq_ok_iff.2 ⟨n, c, hfield, hc, hindexable, hnone, hsize, hid, rfl, rfl⟩⟩

/-- **Additions are made in whole.** Made in place, an addition that fails leaves schema and log as
they were, it succeeds exactly when column, bucket size and number of indexes allow it, and it changes
nothing else than that there is one index more. -/
theorem addIndex_in_whole (log : IndexLog) (schema : Schema) (column : String) (s : Binary64) :
    ((addIndexInPlace column s).run.run (schema, log) =
      match log.addIndex schema column s with
      | .error e => (.error e, schema, log)
      | .ok added => (.ok added.id, added.schema, added.log)) ∧
    ((log.addIndex schema column s).isOk ↔
      ∃ c, schema.columns.find? (·.name == upperCase column) = some c ∧
        (∀ size, c.type ≠ .string size) ∧ c.index = none ∧
        (s.isFinite ∧ (Binary64.zero false).compare? s = some .lt) ∧ log.size < 2 ^ 32) ∧
    ∀ added, log.addIndex schema column s = .ok added → added.IsWhole schema log column s :=
  ⟨run_addIndexInPlace .., isOk_addIndex_iff, fun _ => isWhole_of_addIndex⟩

end IndexLog

end BucketPlanner
