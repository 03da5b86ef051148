import BucketPlanner.Proofs.Bucket.Run
import BucketPlanner.Proofs.Plan.Choice
import BucketPlanner.Proofs.Plan.RangeEnds

/-!
# Keys of records that satisfy a minterm

The key of a record on an indexed column (`Schema.keyOf?`) lies in the range of every predicate that
the record satisfies by its key (`Predicate.HoldsByKey`). So it does for the predicates of a minterm
that the record satisfies (`Minterm.exists_key_mem`), as long as the record is in the domain and keys
are fine enough for the predicates (`Minterm.IsSharp`).
-/

namespace BucketPlanner

/-- The key of a record on the column that an index is kept on. -/
def Schema.keyOf? (schema : Schema) (record : Record) (id : IndexId) : Option Key := do
  let c ← schema.columnOfIndex? id
  let state ← c.index
  let v ← record[c.position]?
  v.key? state.bucketSize

/-- The values of a record on indexed columns lie in the domains of the columns. -/
def Schema.Contains (schema : Schema) (record : Record) : Prop :=
  ∀ e ∈ schema.columns.zip record, e.1.isIndexed → e.1.Contains e.2

instance (schema : Schema) (record : Record) : Decidable (schema.Contains record) :=
  inferInstanceAs (Decidable (∀ e ∈ schema.columns.zip record, e.1.isIndexed → e.1.Contains e.2))

/-- A record satisfies a predicate by its key, if the predicate has a range of keys at all. -/
def Predicate.HoldsByKey (p : Predicate) (schema : Schema) (record : Record) : Prop :=
  ∀ c ∈ schema.column? p.field, ∀ state ∈ c.index, (p.keyRange c).isOk →
    ∃ v ∈ record[p.field]?, ∃ k ∈ v.key? state.bucketSize, p.RelatesKey c state.bucketSize k

instance (p : Predicate) (schema : Schema) (record : Record) :
    Decidable (p.HoldsByKey schema record) := by
  unfold Predicate.HoldsByKey
  infer_instance

/-- Keys are fine enough for the predicates of a minterm that give indexes ranges. -/
def Minterm.IsSharp (m : Minterm) (schema : Schema) (record : Record) : Prop :=
  ∀ p ∈ m, p.comparison.isRange → ∀ c ∈ schema.column? p.field, ∀ state ∈ c.index,
    ∀ v ∈ record[p.field]?, p.IsSharp c state.bucketSize v

instance (m : Minterm) (schema : Schema) (record : Record) : Decidable (m.IsSharp schema record) := by
  unfold Minterm.IsSharp
  infer_instance

theorem Schema.Contains.column {schema : Schema} {record : Record} (h : schema.Contains record)
    {n : Nat} {c : Column} {v : Value} (hc : schema.column? n = some c) (hindexed : c.isIndexed)
    (hv : record[n]? = some v) : c.Contains v :=
  h (c, v) (List.mem_of_getElem? (List.getElem?_zip_eq_some.2 ⟨hc, hv⟩)) hindexed

variable {s : Indexing} {schema : Schema} {record : Record} {m : Minterm} {p : Predicate}
  {id : IndexId} {range : KeyRange}

/-- A sharp predicate that holds also holds by the key of the record. -/
theorem Predicate.holdsByKey_of_isSharp (hdom : schema.Contains record) (hholds : p.holds record)
    (hsharp : p.comparison.isRange → ∀ c ∈ schema.column? p.field, ∀ state ∈ c.index,
      ∀ v ∈ record[p.field]?, p.IsSharp c state.bucketSize v) : p.HoldsByKey schema record := by
  intro c hc state hstate hok
  obtain ⟨range, hkey⟩ := isOk_iff_exists.1 hok
  obtain ⟨v, hv, hrel⟩ := holds_iff.1 hholds
  rw [Option.mem_def] at hc hstate
  have hcontains := hdom.column hc (by simp [Column.isIndexed, hstate]) hv
  have hrange := (keyRange_eq_ok hstate hkey).1
  obtain ⟨k, hk, hmem⟩ := exists_key_mem_keyRange hstate hkey hrel hcontains
    (hsharp hrange c hc state hstate v hv)
  exact ⟨v, hv, k, hk, (mem_keyRange_iff hstate hkey).1 hmem⟩

theorem Indexing.Consistent.keyOf? (h : s.Consistent) {n : Nat} {c : Column} {state : ColumnIndex}
    {v : Value} (hindex : s.HasIndex n c state) (hplaced : c.position = n)
    (hv : record[n]? = some v) : s.schema.keyOf? record state.id = v.key? state.bucketSize := by
  rw [Schema.keyOf?, h.columnOfIndex? hindex]
  simp only [bind, Option.bind_some, hindex.2, hplaced, hv]

/-- The key of a record is in the range of a predicate that it satisfies by its key. -/
theorem Predicate.HoldsByKey.exists_key_mem (hs : s.Reachable) (h : p.HoldsByKey s.schema record)
    (hgives : p.Gives s.schema id range) : ∃ k ∈ s.schema.keyOf? record id, k ∈ range := by
  obtain ⟨c, hc, hid, -, hkey⟩ := hgives
  -- The index belongs to the column that the predicate is on.
  obtain ⟨state, hstate, rfl⟩ := Option.map_eq_some_iff.1 hid
  obtain ⟨v, hv, k, hk, hrel⟩ := h c hc state hstate (isOk_iff_exists.2 ⟨range, hkey⟩)
  refine ⟨k, ?_, (mem_keyRange_iff hstate hkey).2 hrel⟩
  rw [hs.consistent.keyOf? ⟨hc, hstate⟩ (hs.isFormed hc).placed hv]
  exact hk

/-- **The ranges of a minterm's predicates** hold the keys of the records that satisfy it. -/
theorem Minterm.exists_key_mem (hs : s.Reachable) (hdom : s.schema.Contains record)
    (hsharp : m.IsSharp s.schema record) (hm : m.holds record) :
    ∀ p ∈ m, ∀ {id range}, p.Gives s.schema id range →
      ∃ k ∈ s.schema.keyOf? record id, k ∈ range := by
  intro p hp id range hgives
  have hholds : p.holds record := List.all_eq_true.1 hm p hp
  exact (Predicate.holdsByKey_of_isSharp hdom hholds (hsharp p hp)).exists_key_mem hs hgives

end BucketPlanner
