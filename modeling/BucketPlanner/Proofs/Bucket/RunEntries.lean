import BucketPlanner.Proofs.Bucket.Entering

/-!
# Entries after a run

An index has the entries of the records that were entered since the index was added:

* `Indexing.Meets`: the state that a call of a run finds;
* `Indexing.holds_step`: the entries that one call adds to an index;
* `Indexing.holds_run`: the entries that a run adds to an index;
* `Indexing.count_run`: so the counts of the index are the numbers of these entries.
-/

namespace BucketPlanner.Indexing

open IndexLog

/-- A call of the run finds the state `t`, the one after the calls in front of it. -/
def Meets (s : Indexing) (ops : List Operation) (t : Indexing) (op : Operation) : Prop :=
  ∃ before after, ops = before ++ op :: after ∧ t = s.run before

/-- Every record of the run is entered without an error. -/
def EntersAll (s : Indexing) (ops : List Operation) : Prop :=
  ∀ t record offset, s.Meets ops t (.enter record offset) →
    (t.log.enter t.schema record offset).error = none

/-- The run enters the record when the index is there. -/
def Enters (s : Indexing) (ops : List Operation) (id : IndexId) (record : Record)
    (offset : Offset) : Prop :=
  ∃ t, s.Meets ops t (.enter record offset) ∧ id.position < t.log.size

/-- The key of a record's value. -/
def keyAt? (n : Nat) (bucketSize : Binary64) (record : Record) : Option Key :=
  record[n]?.bind (·.key? bucketSize)

variable {s t : Indexing} {op op' : Operation} {ops : List Operation} {n : Nat} {c : Column}
  {state : ColumnIndex} {e : Key × Offset} {record : Record} {offset : Offset} {id : IndexId}

/-! ### The calls of a run -/

@[simp] theorem not_meets_nil : ¬ s.Meets [] t op := by
  rintro ⟨before, after, h, -⟩
  simp at h

theorem meets_cons :
    s.Meets (op' :: ops) t op ↔ t = s ∧ op = op' ∨ (s.step op').Meets ops t op := by
  constructor
  · rintro ⟨_ | ⟨first, before⟩, after, hops, rfl⟩
    · rw [List.nil_append, List.cons.injEq] at hops
      exact Or.inl ⟨rfl, hops.1.symm⟩
    · rw [List.cons_append, List.cons.injEq] at hops
      obtain ⟨rfl, rfl⟩ := hops
      exact Or.inr ⟨before, after, rfl, rfl⟩
  · rintro (⟨rfl, rfl⟩ | ⟨before, after, rfl, rfl⟩)
    · exact ⟨[], ops, rfl, rfl⟩
    · exact ⟨op' :: before, after, rfl, rfl⟩

/-- A run after a run. -/
theorem meets_append {ops' : List Operation} :
    s.Meets (ops ++ ops') t op ↔ s.Meets ops t op ∨ (s.run ops).Meets ops' t op := by
  induction ops generalizing s with
  | nil => simp [Indexing.run]
  | cons first ops ih => simp only [List.cons_append, meets_cons, ih, run_cons, or_assoc]

theorem Meets.mem (h : s.Meets ops t op) : op ∈ ops := by
  obtain ⟨before, after, rfl, -⟩ := h
  simp

@[simp] theorem entersAll_nil : s.EntersAll [] := fun _ _ _ h => absurd h not_meets_nil

theorem entersAll_cons :
    s.EntersAll (op :: ops) ↔
      (∀ record offset, op = .enter record offset →
        (s.log.enter s.schema record offset).error = none) ∧ (s.step op).EntersAll ops := by
  simp only [EntersAll, meets_cons]
  constructor
  · intro h
    exact ⟨fun record offset hop => h s record offset (Or.inl ⟨rfl, hop.symm⟩),
      fun t record offset hmeets => h t record offset (Or.inr hmeets)⟩
  · rintro ⟨hfirst, hrest⟩ t record offset (⟨rfl, rfl⟩ | hmeets)
    · exact hfirst record offset rfl
    · exact hrest t record offset hmeets

theorem entersAll_append {ops' : List Operation} :
    s.EntersAll (ops ++ ops') ↔ s.EntersAll ops ∧ (s.run ops).EntersAll ops' := by
  simp only [EntersAll, meets_append, or_imp, forall_and]

instance decidableEntersAll : (s : Indexing) → (ops : List Operation) → Decidable (s.EntersAll ops)
  | _, [] => isTrue entersAll_nil
  | s, .addIndex column bucketSize :: ops =>
    have := decidableEntersAll (s.step (.addIndex column bucketSize)) ops
    decidable_of_iff ((s.step (.addIndex column bucketSize)).EntersAll ops)
      (by simp [entersAll_cons])
  | s, .enter record offset :: ops =>
    have := decidableEntersAll (s.step (.enter record offset)) ops
    decidable_of_iff ((s.log.enter s.schema record offset).error.isNone ∧
      (s.step (.enter record offset)).EntersAll ops) (by simp [entersAll_cons])

@[simp] theorem not_enters_nil : ¬ s.Enters [] id record offset := by
  rintro ⟨t, h, -⟩
  exact not_meets_nil h

theorem enters_cons :
    s.Enters (op :: ops) id record offset ↔
      op = .enter record offset ∧ id.position < s.log.size ∨
        (s.step op).Enters ops id record offset := by
  simp only [Enters, meets_cons, or_and_right, exists_or]
  refine or_congr_left ⟨?_, ?_⟩
  · rintro ⟨t, ⟨rfl, rfl⟩, hlt⟩
    exact ⟨rfl, hlt⟩
  · rintro ⟨rfl, hlt⟩
    exact ⟨s, ⟨rfl, rfl⟩, hlt⟩

theorem enters_append {ops' : List Operation} :
    s.Enters (ops ++ ops') id record offset ↔
      s.Enters ops id record offset ∨ (s.run ops).Enters ops' id record offset := by
  simp only [Enters, meets_append, or_and_right, exists_or]

/-! ### Indexed columns in a run -/

/-- An identifier is that of one column. -/
theorem Consistent.hasIndex_unique (hs : s.Consistent) {n' : Nat} {c' : Column}
    {state' : ColumnIndex} (h : s.HasIndex n c state) (h' : s.HasIndex n' c' state')
    (hid : state.id = state'.id) : n = n' ∧ c = c' ∧ state = state' := by
  obtain ⟨m, -, hunique⟩ := hs.existsUnique _ (hs.id_lt h)
  obtain rfl : n = n' :=
    (hunique n ⟨c, state, h, rfl⟩).trans (hunique n' ⟨c', state', h', by rw [hid]⟩).symm
  obtain rfl := Option.mem_unique h.1 h'.1
  exact ⟨rfl, rfl, Option.mem_unique h.2 h'.2⟩

/-- A column that has an index after a run had it before, if the index was there. -/
theorem Recorded.hasIndex_of_run (hs : s.Recorded) (h : (s.run ops).HasIndex n c state)
    (hlt : state.id.position < s.log.size) : s.HasIndex n c state := by
  obtain ⟨m, ⟨c', state', h', hpos⟩, -⟩ := hs.consistent.existsUnique _ hlt
  obtain ⟨rfl, rfl, rfl⟩ := (hs.run ops).consistent.hasIndex_unique (h'.run ops) h
    (IndexId.eq_of_position hpos)
  exact h'

/-! ### Entries -/

/-- Of the fields of a record, that of the indexed column makes the entry. -/
theorem Recorded.exists_entryOf?_iff (hs : s.Recorded) (h : s.HasIndex n c state) {key : Key} :
    (∃ field ∈ s.schema.columns.zip record, s.log.entryOf? field = some (state.id, key)) ↔
      keyAt? n state.bucketSize record = some key := by
  obtain ⟨-, -, hsize⟩ := hs.ofIndex h
  rw [← map_bucketSize_index?] at hsize
  obtain ⟨index, hindex, hb⟩ := Option.map_eq_some_iff.1 hsize
  rw [keyAt?, Option.bind_eq_some_iff]
  constructor
  · rintro ⟨field, hfield, hentry⟩
    obtain ⟨m, hm⟩ := List.getElem?_of_mem hfield
    obtain ⟨hc', hv⟩ := List.getElem?_zip_eq_some.1 hm
    obtain ⟨state', hstate'⟩ : ∃ state', field.1.index = some state' := by
      cases hnone : field.1.index with
      | none => simp [entryOf?, hnone] at hentry
      | some state' => exact ⟨state', rfl⟩
    obtain ⟨hid, found, hfound, hkey⟩ := (entryOf?_eq_some_iff hstate').1 hentry
    obtain ⟨rfl, -, rfl⟩ := hs.consistent.hasIndex_unique h ⟨hc', hstate'⟩ hid
    obtain rfl := Option.mem_unique hfound hindex
    exact ⟨field.2, hv, by rwa [hb] at hkey⟩
  · rintro ⟨v, hv, hkey⟩
    exact ⟨(c, v), List.mem_of_getElem? (List.getElem?_zip_eq_some.2 ⟨h.1, hv⟩),
      (entryOf?_eq_some_iff h.2).2 ⟨rfl, index, hindex, by rwa [hb]⟩⟩

/-- **The entries that a call adds** to an index: that of the record that is entered, when the index
is there. -/
theorem holds_step (hs : s.Recorded) (hentered : s.EntersAll (op :: ops))
    (h : (s.run (op :: ops)).HasIndex n c state) :
    (s.step op).log.Holds state.id e ↔ s.log.Holds state.id e ∨
      ∃ record, op = .enter record e.2 ∧ state.id.position < s.log.size ∧
        keyAt? n state.bucketSize record = some e.1 := by
  cases op with
  | addIndex column bucketSize =>
    cases hadd : s.log.addIndex s.schema column bucketSize with
    | error error => simp [Indexing.step, hadd]
    | ok added => simp [Indexing.step, hadd, holds_addIndex hadd]
  | enter record offset =>
    rw [Indexing.step, holds_enter ((entersAll_cons.1 hentered).1 record offset rfl)]
    refine or_congr_right ⟨?_, ?_⟩
    -- The column that has the index at the end has it now, if the index is there now.
    · rintro ⟨rfl, field, hfield, hentry⟩
      have hlt := lt_size_of_entryOf? hentry
      exact ⟨record, rfl, hlt, (hs.exists_entryOf?_iff (hs.hasIndex_of_run h hlt)).1
        ⟨field, hfield, hentry⟩⟩
    · rintro ⟨record', hop, hlt, hkey⟩
      obtain ⟨rfl, rfl⟩ := Operation.enter.inj hop
      exact ⟨rfl, (hs.exists_entryOf?_iff (hs.hasIndex_of_run h hlt)).2 hkey⟩

/-- **The entries that a run adds** to an index: those of the records that are entered when the
index is there. -/
theorem holds_run (hs : s.Recorded) (hentered : s.EntersAll ops)
    (h : (s.run ops).HasIndex n c state) :
    (s.run ops).log.Holds state.id e ↔ s.log.Holds state.id e ∨
      ∃ record, s.Enters ops state.id record e.2 ∧
        keyAt? n state.bucketSize record = some e.1 := by
  induction ops generalizing s with
  | nil => simp [Indexing.run]
  | cons op ops ih =>
    rw [run_cons, ih (hs.step op) (entersAll_cons.1 hentered).2 h, holds_step hs hentered h]
    simp only [enters_cons, or_and_right, exists_or, or_assoc, and_assoc]

/-! ### Counts -/

/-- Every index is that of a column. -/
theorem Recorded.exists_hasIndex (hs : s.Recorded) {index : BucketIndex}
    (h : s.log.index? id = some index) : ∃ n c state, s.HasIndex n c state ∧ state.id = id := by
  obtain ⟨hlt, -⟩ := List.getElem?_eq_some_iff.1 h
  obtain ⟨n, ⟨c, state, hindex, hpos⟩, -⟩ := hs.consistent.existsUnique _ hlt
  exact ⟨n, c, state, hindex, IndexId.eq_of_position hpos⟩

/-- **The counts of an index** are the numbers of the entries of the records that a run, which
starts without indexes, enters when the index is there. -/
theorem count_run {schema : Schema} (hschema : ∀ column ∈ schema.columns, column.index = none)
    (hentered : (start schema).EntersAll ops) {index : BucketIndex}
    (hindex : ((start schema).run ops).log.index? state.id = some index)
    (h : ((start schema).run ops).HasIndex n c state) (range : KeyRange) :
    (index.count range : ℕ∞) = {e : Key × Offset | e.1 ∈ range ∧
      ∃ record, (start schema).Enters ops state.id record e.2 ∧
        keyAt? n state.bucketSize record = some e.1}.encard := by
  have hordered : ((start schema).run ops).log.IsOrdered := IsOrdered.empty.run ops
  rw [BucketIndex.count_eq_encard (hordered index (List.mem_of_getElem? hindex))]
  congr 1
  ext e
  have hmem : e ∈ index ↔ ((start schema).run ops).log.Holds state.id e := by
    simp [Holds, hindex]
  have hnone : ¬ (start schema).log.Holds state.id e := by
    simp [Holds, start, IndexLog.empty, index?]
  rw [Set.mem_ofPred_eq, Set.mem_ofPred_eq, hmem, holds_run (.ofUnindexed hschema) hentered h,
    or_iff_right hnone, and_comm]

end BucketPlanner.Indexing
