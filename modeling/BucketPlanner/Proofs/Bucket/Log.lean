import BucketPlanner.Bucket.Log
import BucketPlanner.Proofs.Bucket.KeyOrder

/-!
# Adding indexes and entering records

What adding an index changes (`IndexLog.addIndex_eq_ok`), and that entering a record leaves the
indexes and their bucket sizes in place (`IndexLog.bucketSizes_enter`).
-/

namespace BucketPlanner

theorem IndexId.position_of_ofPosition? {n : Nat} {id : IndexId} (h : ofPosition? n = some id) :
    id.position = n := by
  unfold ofPosition? at h
  split at h
  next hn =>
    rw [Option.some.injEq] at h
    rw [← h, position, UInt32.toNat_ofNat', Nat.mod_eq_of_lt hn]
  · simp at h

theorem IndexId.eq_of_position {i j : IndexId} (h : i.position = j.position) : i = j := by
  cases i
  cases j
  exact congrArg IndexId.mk (UInt32.toNat_inj.1 h)

instance : Std.TransOrd IndexId := inferInstanceAs (Std.TransCmp (compareOn IndexId.position))

instance : Std.LawfulEqOrd IndexId :=
  ⟨fun h => IndexId.eq_of_position (Std.LawfulEqOrd.eq_of_compare h)⟩

theorem Column.withIndex_eq_ok_iff {c c' : Column} {id : IndexId} {s : Binary64} :
    c.withIndex id s = .ok c' ↔
      c.type.isIndexable ∧ c.index = none ∧ Key.isBucketSize s ∧
        c' = { c with index := some ⟨id, s⟩ } := by
  unfold withIndex
  split
  next hindexable => simp_all
  next hindexable =>
    split
    next hindexed =>
      obtain ⟨state, hstate⟩ := Option.isSome_iff_exists.1 hindexed
      simp [hstate]
    next hnone =>
      split
      next hsize => simp_all
      next hsize =>
        rw [Except.ok.injEq]
        constructor
        · rintro rfl
          exact ⟨by simpa using hindexable, by simpa [isIndexed] using hnone, by simpa using hsize, rfl⟩
        · rintro ⟨-, -, -, rfl⟩
          rfl

/-- The column without what it knows of an index. -/
def Column.bare (c : Column) : Column := { c with index := none }

namespace Schema

variable {schema : Schema} {n m : Nat} {c c' : Column} {name : String}

theorem column?_setColumn_self (h : schema.column? n = some c) :
    (schema.setColumn n c').column? n = some c' := by
  obtain ⟨hn, -⟩ := List.getElem?_eq_some_iff.1 h
  rw [setColumn, column?, List.getElem?_set_self hn]

theorem column?_setColumn_of_ne (h : n ≠ m) :
    (schema.setColumn n c').column? m = schema.column? m := by
  rw [setColumn, column?, List.getElem?_set_ne h, column?]

/-- A property of columns that the new column shares with the old one is kept by all. -/
theorem map_setColumn {α : Type} {f : Column → α} (h : schema.column? n = some c)
    (hf : f c' = f c) : (schema.setColumn n c').columns.map f = schema.columns.map f := by
  obtain ⟨hn, hc⟩ := List.getElem?_eq_some_iff.1 h
  rw [setColumn, List.map_set, hf, ← hc, ← List.getElem_map f, List.set_getElem_self]
  simpa using hn

/-- Columns are found by their names, so another column of the same name is found as well. -/
theorem fieldIndex_setColumn (h : schema.column? n = some c) (hname : c'.name = c.name) :
    (schema.setColumn n c').fieldIndex name = schema.fieldIndex name := by
  have hfind : ∀ columns : List Column, columns.findIdx? (·.name == upperCase name) =
      (columns.map Column.name).findIdx? (· == upperCase name) := by
    intro columns
    rw [List.findIdx?_map]
    rfl
  rw [fieldIndex, fieldIndex, hfind, hfind, map_setColumn h hname]

end Schema

namespace IndexLog

variable {log : IndexLog} {schema : Schema} {column : String} {s : Binary64}

/-- The sizes of the buckets of the indexes, in the order of their identifiers. -/
def bucketSizes (log : IndexLog) : List Binary64 := log.indexes.map BucketIndex.bucketSize

theorem length_bucketSizes (log : IndexLog) : log.bucketSizes.length = log.size := List.length_map ..

/-- **Adding an index** marks a column that has none, and puts an empty index at the end. -/
theorem addIndex_eq_ok_iff {added : Added} :
    log.addIndex schema column s = .ok added ↔
      ∃ n c, schema.fieldIndex column = .ok n ∧ schema.column? n = some c ∧ c.type.isIndexable ∧
        c.index = none ∧ Key.isBucketSize s ∧ IndexId.ofPosition? log.size = some added.id ∧
        added.schema = schema.setColumn n { c with index := some ⟨added.id, s⟩ } ∧
        added.log.indexes = log.indexes ++ [BucketIndex.empty s] := by
  constructor
  · intro h
    unfold addIndex at h
    split at h
    · simp at h
    next n hfield =>
      split at h
      · simp at h
      next id hid =>
        split at h
        · simp at h
        next c hc =>
          split at h
          · simp at h
          next c' hindex =>
            obtain ⟨hindexable, hnone, hsize, rfl⟩ := Column.withIndex_eq_ok_iff.1 hindex
            rw [Except.ok.injEq] at h
            subst h
            exact ⟨n, c, hfield, hc, hindexable, hnone, hsize, hid, rfl, rfl⟩
  · obtain ⟨id, schema', ⟨indexes⟩⟩ := added
    rintro ⟨n, c, hfield, hc, hindexable, hnone, hsize, hid, hschema, hlog⟩
    dsimp only at hid hschema hlog
    subst hschema hlog
    have hindex : c.withIndex id s = .ok { c with index := some ⟨id, s⟩ } :=
      Column.withIndex_eq_ok_iff.2 ⟨hindexable, hnone, hsize, rfl⟩
    simp only [addIndex, hfield, hid, hc, hindex]

/-- An added index is marked at its column with the next identifier. -/
theorem addIndex_eq_ok {added : Added} (h : log.addIndex schema column s = .ok added) :
    ∃ n c, schema.fieldIndex column = .ok n ∧ schema.column? n = some c ∧ c.type.isIndexable ∧
      c.index = none ∧ Key.isBucketSize s ∧ added.id.position = log.size ∧
      added.schema = schema.setColumn n { c with index := some ⟨added.id, s⟩ } ∧
      added.log.bucketSizes = log.bucketSizes ++ [s] := by
  obtain ⟨n, c, hfield, hc, hindexable, hnone, hsize, hid, hschema, hlog⟩ := addIndex_eq_ok_iff.1 h
  exact ⟨n, c, hfield, hc, hindexable, hnone, hsize, IndexId.position_of_ofPosition? hid, hschema,
    by simp [bucketSizes, hlog, BucketIndex.empty]⟩

/-- An added index changes no name, so that columns are found where they were. -/
theorem fieldIndex_addIndex {added : Added} (h : log.addIndex schema column s = .ok added)
    (name : String) : added.schema.fieldIndex name = schema.fieldIndex name := by
  obtain ⟨n, c, -, hc, -, -, -, -, hschema, -⟩ := addIndex_eq_ok h
  rw [hschema]
  exact Schema.fieldIndex_setColumn hc rfl

theorem bucketSizes_enterFields (offset : Offset) (fields : List (Column × Value)) (log : IndexLog) :
    (enterFields offset fields log).log.bucketSizes = log.bucketSizes := by
  induction fields generalizing log with
  | nil => rfl
  | cons field rest ih =>
    obtain ⟨column, value⟩ := field
    unfold enterFields
    split
    · exact ih log
    next state hstate =>
      split
      · rfl
      next index hindex =>
        split
        · rfl
        next index' hinsert =>
          rw [ih, bucketSizes, List.map_set]
          obtain ⟨hlt, rfl⟩ := List.getElem?_eq_some_iff.1 hindex
          have hsize : index'.bucketSize = (log.indexes[state.id.position]).bucketSize := by
            obtain ⟨k, -, rfl⟩ := Option.map_eq_some_iff.1 hinsert
            rfl
          rw [hsize, ← List.getElem_map BucketIndex.bucketSize, List.set_getElem_self, bucketSizes]
          simpa using hlt

/-- **Entering a record** leaves the bucket sizes as they are, whether it succeeds or not. -/
theorem bucketSizes_enter (log : IndexLog) (schema : Schema) (record : Record) (offset : Offset) :
    (log.enter schema record offset).log.bucketSizes = log.bucketSizes := by
  unfold enter
  split
  · rfl
  · exact bucketSizes_enterFields ..

end IndexLog

end BucketPlanner
