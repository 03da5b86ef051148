import BucketPlanner.Proofs.Bucket.Entries

/-!
# Indexes as sets of entries

An index that starts without entries goes through insertions, under keys and under the keys of values.
It is then known by the set of the entries that were made:

* `BucketIndex.offsets_insert_self`: an offset is put where a search of the ascending offsets ends;
* `BucketIndex.IsProper.step`, `BucketIndex.IsProper.run`: keys and offsets stay in ascending order,
  and no key is without offsets;
* `BucketIndex.mem_step`, `BucketIndex.mem_run`: the entries that a call adds, and a run;
* `BucketIndex.IsProper.eq_of_mem_iff`: indexes of that form with the same entries are equal;
* `BucketIndex.run_contents`: so the index is the set of its entries, whatever the order of the calls.
-/

namespace BucketPlanner.BucketIndex

/-- A call that enters an offset into an index, if it can. -/
inductive Call
  | insert (key : Key) (offset : Offset)
  | insertValue (value : Value) (offset : Offset)

/-- The entry that a call makes in buckets of a size; there is none for a value without a key. -/
def Call.entry? (bucketSize : Binary64) : Call → Option (Key × Offset)
  | insert key offset => some (key, offset)
  | insertValue value offset => (value.key? bucketSize).map (·, offset)

/-- The index after a call. A value without a key changes nothing. -/
def step (index : BucketIndex) : Call → BucketIndex
  | .insert key offset => index.insert key offset
  | .insertValue value offset => (index.insertValue? value offset).getD index

/-- The index after calls, one after the other. -/
def run (index : BucketIndex) (calls : List Call) : BucketIndex := calls.foldl step index

/-- The offsets under a key. -/
def offsets (index : BucketIndex) (key : Key) : List Offset :=
  (Ascending.find? key index.buckets).getD []

/-- Keys and offsets stand in ascending order, and no key is without offsets. -/
structure IsProper (index : BucketIndex) : Prop extends index.IsOrdered where
  nonempty : ∀ b ∈ index.buckets, b.2 ≠ []

variable {index index' : BucketIndex} {key : Key} {offset : Offset} {offsets : List Offset}
  {e : Key × Offset} {call : Call} {calls : List Call} {n : Nat}

/-! ### Where an offset is put -/

/-- An offset that is there stays the only one. -/
theorem insertOffset_of_mem (h : offsets.Pairwise (· < ·)) (hmem : offset ∈ offsets) :
    insertOffset offset offsets = offsets := by
  refine (pairwise_insertOffset h).eq_of_mem_iff h fun o => ?_
  rw [mem_insertOffset, or_iff_right_iff_imp]
  rintro rfl
  exact hmem

/-- An offset goes between the smaller and the greater ones. -/
theorem insertOffset_eq_insertIdx (hn : n ≤ offsets.length) (hlow : ∀ o ∈ offsets.take n, o < offset)
    (hhigh : ∀ o ∈ offsets.drop n, offset < o) :
    insertOffset offset offsets = offsets.insertIdx n offset := by
  induction offsets generalizing n with
  | nil =>
    obtain rfl : n = 0 := by simpa using hn
    rfl
  | cons first rest ih =>
    cases n with
    | zero =>
      have hlt : offset < first := hhigh first (by simp)
      rw [insertOffset, if_pos hlt, List.insertIdx_zero]
    | succ n =>
      have hlt : first < offset := hlow first (by simp)
      have hrest : insertOffset offset rest = rest.insertIdx n offset := by
        apply ih (by simpa using hn)
        · exact fun o ho => hlow o (by simp [ho])
        · exact fun o ho => hhigh o (by simpa using ho)
      rw [insertOffset, if_neg (UInt64.not_lt.2 (UInt64.le_of_lt hlt)),
        if_neg (UInt64.ne_of_lt hlt).symm, hrest, List.insertIdx_succ_cons]

theorem pairwise_offsets (h : index.IsOrdered) (key : Key) :
    (index.offsets key).Pairwise (· < ·) := by
  unfold BucketIndex.offsets
  cases hfind : Ascending.find? key index.buckets with
  | none => exact List.Pairwise.nil
  | some offsets => exact h.offsets _ ((Ascending.find?_eq_some_iff h.keys).1 hfind)

/-- **An insertion** leaves the offsets of its key alone when the offset is there, and puts it where
a search of them ends when it is not. -/
theorem offsets_insert_self (h : index.IsOrdered) (key : Key) (offset : Offset) :
    (offset ∈ index.offsets key →
      (index.insert key offset).offsets key = index.offsets key) ∧
    ∀ n ≤ (index.offsets key).length, (∀ o ∈ (index.offsets key).take n, o < offset) →
      (∀ o ∈ (index.offsets key).drop n, offset < o) →
        (index.insert key offset).offsets key = (index.offsets key).insertIdx n offset := by
  have hself : (index.insert key offset).offsets key = insertOffset offset (index.offsets key) := by
    simp [BucketIndex.offsets, insert]
  rw [hself]
  exact ⟨insertOffset_of_mem (pairwise_offsets h key),
    fun n hn hlow hhigh => insertOffset_eq_insertIdx hn hlow hhigh⟩

/-! ### One call -/

/-- A call inserts its entry, if it has one. -/
theorem step_eq (index : BucketIndex) (call : Call) :
    index.step call =
      (call.entry? index.bucketSize).elim index fun e => index.insert e.1 e.2 := by
  cases call with
  | insert key offset => rfl
  | insertValue value offset =>
    cases hkey : value.key? index.bucketSize <;> simp [step, Call.entry?, insertValue?, hkey]

@[simp] theorem bucketSize_step (index : BucketIndex) (call : Call) :
    (index.step call).bucketSize = index.bucketSize := by
  rw [step_eq]
  cases call.entry? index.bucketSize <;> rfl

/-- **The entries after a call** are those before and that of the call. -/
theorem mem_step : e ∈ index.step call ↔ call.entry? index.bucketSize = some e ∨ e ∈ index := by
  rw [step_eq]
  cases call.entry? index.bucketSize with
  | none => simp
  | some made => simp [eq_comm]

theorem IsProper.empty (bucketSize : Binary64) : (BucketIndex.empty bucketSize).IsProper where
  toIsOrdered := .empty bucketSize
  nonempty := by simp [BucketIndex.empty]

theorem IsProper.insert (h : index.IsProper) (key : Key) (offset : Offset) :
    (index.insert key offset).IsProper where
  toIsOrdered := h.toIsOrdered.insert key offset
  nonempty := by
    intro b hb
    rcases Ascending.eq_or_mem_of_mem_put hb with rfl | hmem
    · exact List.ne_nil_of_mem (mem_insertOffset.2 (Or.inl rfl))
    · exact h.nonempty b hmem

/-- **A call keeps the form of the index.** -/
theorem IsProper.step (h : index.IsProper) (call : Call) : (index.step call).IsProper := by
  rw [step_eq]
  cases call.entry? index.bucketSize with
  | none => exact h
  | some e => exact h.insert e.1 e.2

/-! ### Runs -/

theorem run_cons (index : BucketIndex) (call : Call) (calls : List Call) :
    index.run (call :: calls) = (index.step call).run calls := rfl

@[simp] theorem bucketSize_run (index : BucketIndex) (calls : List Call) :
    (index.run calls).bucketSize = index.bucketSize := by
  induction calls generalizing index with
  | nil => rfl
  | cons call calls ih => rw [run_cons, ih, bucketSize_step]

theorem IsProper.run (h : index.IsProper) (calls : List Call) : (index.run calls).IsProper := by
  induction calls generalizing index with
  | nil => exact h
  | cons call calls ih => exact ih (h.step call)

/-- **The entries after a run** are those before and those of the calls. -/
theorem mem_run :
    e ∈ index.run calls ↔ (∃ call ∈ calls, call.entry? index.bucketSize = some e) ∨ e ∈ index := by
  induction calls generalizing index with
  | nil => simp [BucketIndex.run]
  | cons call calls ih =>
    rw [run_cons, ih, mem_step, bucketSize_step, List.exists_mem_cons_iff, or_assoc, or_left_comm]

theorem mem_run_empty {s : Binary64} :
    e ∈ (empty s).run calls ↔ ∃ call ∈ calls, call.entry? s = some e := by
  rw [mem_run, or_iff_left (not_mem_empty s)]
  rfl

/-! ### Indexes with the same entries -/

/-- A key has a bucket when there are offsets under it. -/
theorem IsProper.find?_eq_some_iff (h : index.IsProper) :
    Ascending.find? key index.buckets = some offsets ↔
      offsets ≠ [] ∧ index.offsets key = offsets := by
  unfold BucketIndex.offsets
  cases hfind : Ascending.find? key index.buckets with
  | none => simp
  | some found =>
    have hne : found ≠ [] := h.nonempty _ ((Ascending.find?_eq_some_iff h.keys).1 hfind)
    constructor
    · rintro ⟨rfl⟩
      exact ⟨hne, rfl⟩
    · rintro ⟨-, rfl⟩
      rfl

/-- **An index is the set of its entries**: those with the same entries and bucket size are equal. -/
theorem IsProper.eq_of_mem_iff (h : index.IsProper) (h' : index'.IsProper)
    (hsize : index.bucketSize = index'.bucketSize) (hmem : ∀ e, e ∈ index ↔ e ∈ index') :
    index = index' := by
  have hoffsets : ∀ key, index.offsets key = index'.offsets key := by
    intro key
    exact (pairwise_offsets h.toIsOrdered key).eq_of_mem_iff (pairwise_offsets h'.toIsOrdered key)
      fun o => hmem (key, o)
  have hbuckets : ∀ b, b ∈ index.buckets ↔ b ∈ index'.buckets := by
    rintro ⟨key, offsets⟩
    rw [← Ascending.find?_eq_some_iff h.keys, ← Ascending.find?_eq_some_iff h'.keys,
      h.find?_eq_some_iff, h'.find?_eq_some_iff, hoffsets]
  have heq : index.buckets = index'.buckets := h.keys.eq_of_mem_iff h'.keys hbuckets
  cases index
  cases index'
  simp_all

/-- **The contents of an index** after insertions of offsets under keys and values. The keys, and the
offsets under each key, are ascending. An insertion leaves the offsets of its key as they are when the
offset is there, and puts it where a search of them ends when it is not. The index holds the entries of
the calls, each once. A value is entered under its key, and without one it changes nothing. Calls in
another order, or made more often, lead to the same index. The count of a range is the number of
entries in it, and zero when its ends are out of order. -/
theorem run_contents (s : Binary64) (calls : List Call) :
    let index := (empty s).run calls
    let made := {e | ∃ call ∈ calls, call.entry? s = some e}
    index.IsOrdered ∧
    (∀ key offset, (offset ∈ index.offsets key →
        (index.insert key offset).offsets key = index.offsets key) ∧
      ∀ n ≤ (index.offsets key).length, (∀ o ∈ (index.offsets key).take n, o < offset) →
        (∀ o ∈ (index.offsets key).drop n, offset < o) →
          (index.insert key offset).offsets key = (index.offsets key).insertIdx n offset) ∧
    (index.entries.Nodup ∧ ∀ e, e ∈ index.entries ↔ e ∈ made) ∧
    (∀ value offset, match value.key? s with
      | some key => index.insertValue? value offset = some (index.insert key offset)
      | none => index.insertValue? value offset = none ∧
          index.step (.insertValue value offset) = index) ∧
    (∀ calls' : List Call, (∀ call, call ∈ calls' ↔ call ∈ calls) → (empty s).run calls' = index) ∧
    ∀ range, (index.count range : ℕ∞) = {e | e ∈ made ∧ e.1 ∈ range}.encard ∧
      (range.high < range.low → index.count range = 0) := by
  intro index made
  have hproper : index.IsProper := (IsProper.empty s).run calls
  have hmem : ∀ e, e ∈ index ↔ e ∈ made := fun e => mem_run_empty
  refine ⟨hproper.toIsOrdered, fun key offset => offsets_insert_self hproper.toIsOrdered key offset,
    ⟨nodup_entries hproper.toIsOrdered, fun e => ?_⟩, fun value offset => ?_,
    fun calls' hcalls => ?_, fun range => ⟨?_, fun hrange => ?_⟩⟩
  · rw [mem_entries hproper.toIsOrdered, hmem]
  · have hsize : index.bucketSize = s := bucketSize_run ..
    cases hkey : value.key? s <;> simp [step, insertValue?, hsize, hkey]
  · refine IsProper.eq_of_mem_iff ((IsProper.empty s).run calls') hproper ?_ fun e => ?_
    · simp [index]
    · simp only [hmem, mem_run_empty, hcalls]
      rfl
  · simp only [count_eq_encard hproper.toIsOrdered, hmem]
  · rw [count_eq_length_filter, List.length_eq_zero_iff, List.filter_eq_nil_iff]
    intro e _ he
    rw [decide_eq_true_eq, KeyRange.mem_iff] at he
    rw [Key.lt_iff] at hrange
    omega

example :
    ((empty (.ofNat 10)).run [.insertValue (.uint 35) 8, .insert (.clamp 3) 2, .insert (.clamp 1) 8,
      .insertValue (.text "x") 5, .insert (.clamp 3) 8]).buckets =
      [(.clamp 1, [8]), (.clamp 3, [2, 8])] := by
  decide +kernel

end BucketPlanner.BucketIndex
