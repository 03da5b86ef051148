import BucketPlanner.Bucket.Index
import BucketPlanner.Proofs.Bucket.KeyOrder
import BucketPlanner.Proofs.Lists

/-!
# Entries of an index

An index is known through its entries, each of which is an offset under a key:

* `BucketIndex.mem_insert`: what an insertion adds;
* `BucketIndex.IsOrdered.insert`: keys and offsets stay in ascending order;
* `BucketIndex.count_eq_encard`: in an index of that order, the count of a range is the number of
  entries that have their key in the range.
-/

namespace BucketPlanner

instance : Std.TransOrd Key := inferInstanceAs (Std.TransCmp (compareOn Key.val))

instance : Std.LawfulEqOrd Key := ⟨fun h => Key.ext (Std.LawfulEqOrd.eq_of_compare h)⟩

namespace BucketIndex

/-- The entries of an index: an offset under a key. -/
instance : Membership (Key × Offset) BucketIndex :=
  ⟨fun index e => e.2 ∈ (Ascending.find? e.1 index.buckets).getD []⟩

instance (e : Key × Offset) (index : BucketIndex) : Decidable (e ∈ index) :=
  inferInstanceAs (Decidable (e.2 ∈ (Ascending.find? e.1 index.buckets).getD []))

/-- Keys, and the offsets under each key, stand in ascending order. -/
structure IsOrdered (index : BucketIndex) : Prop where
  keys : Ascending.IsAscending index.buckets
  offsets : ∀ b ∈ index.buckets, b.2.Pairwise (· < ·)

variable {index : BucketIndex} {key : Key} {offset o : Offset} {offsets : List Offset}
  {e : Key × Offset}

theorem mem_def : e ∈ index ↔ e.2 ∈ (Ascending.find? e.1 index.buckets).getD [] := Iff.rfl

/-! ### Insertions -/

@[simp] theorem mem_insertOffset : o ∈ insertOffset offset offsets ↔ o = offset ∨ o ∈ offsets := by
  induction offsets with
  | nil => simp [insertOffset]
  | cons first rest ih =>
    unfold insertOffset
    split
    · simp
    split
    next heq => simp [heq]
    · simp [ih, or_left_comm]

theorem pairwise_insertOffset (h : offsets.Pairwise (· < ·)) :
    (insertOffset offset offsets).Pairwise (· < ·) := by
  induction offsets with
  | nil => exact List.pairwise_singleton ..
  | cons first rest ih =>
    obtain ⟨hfirst, hrest⟩ := List.pairwise_cons.1 h
    unfold insertOffset
    split
    next hlt =>
      refine List.pairwise_cons.2 ⟨?_, h⟩
      rintro o (_ | ⟨_, ho⟩)
      · exact hlt
      · exact UInt64.lt_trans hlt (hfirst o ho)
    next hge =>
      split
      · exact h
      next hne =>
        refine List.pairwise_cons.2 ⟨?_, ih hrest⟩
        intro o ho
        rcases mem_insertOffset.1 ho with rfl | hmem
        · exact UInt64.lt_of_le_of_ne (UInt64.not_lt.1 hge) (Ne.symm hne)
        · exact hfirst o hmem

@[simp] theorem not_mem_empty (bucketSize : Binary64) : e ∉ empty bucketSize := by
  simp [mem_def, empty]

/-- **An insertion** adds one entry. -/
@[simp] theorem mem_insert : e ∈ index.insert key offset ↔ e = (key, offset) ∨ e ∈ index := by
  obtain ⟨k, o⟩ := e
  simp only [mem_def, insert, Prod.mk.injEq]
  by_cases hk : k = key
  · subst hk
    simp
  · rw [Ascending.find?_put_of_ne hk]
    simp [hk]

theorem IsOrdered.empty (bucketSize : Binary64) : (empty bucketSize).IsOrdered :=
  ⟨List.Pairwise.nil, by simp [BucketIndex.empty]⟩

/-- **Insertions keep the order.** -/
theorem IsOrdered.insert (h : index.IsOrdered) (key : Key) (offset : Offset) :
    (index.insert key offset).IsOrdered := by
  refine ⟨h.keys.put, ?_⟩
  intro b hb
  rcases Ascending.eq_or_mem_of_mem_put hb with rfl | hmem
  · apply pairwise_insertOffset
    cases hfind : Ascending.find? key index.buckets with
    | none => exact List.Pairwise.nil
    | some offsets => exact h.offsets _ ((Ascending.find?_eq_some_iff h.keys).1 hfind)
  · exact h.offsets b hmem

/-! ### Counting -/

/-- The entries in ascending order. -/
def entries (index : BucketIndex) : List (Key × Offset) :=
  index.buckets.flatMap fun b => b.2.map fun offset => (b.1, offset)

theorem mem_entries (h : index.IsOrdered) : e ∈ index.entries ↔ e ∈ index := by
  obtain ⟨k, o⟩ := e
  rw [mem_def]
  constructor
  · intro he
    obtain ⟨b, hb, ho⟩ := List.mem_flatMap.1 he
    obtain ⟨o', ho', heq⟩ := List.mem_map.1 ho
    rw [Prod.mk.injEq] at heq
    obtain ⟨rfl, rfl⟩ := heq
    rw [(Ascending.find?_eq_some_iff h.keys).2 hb]
    exact ho'
  · intro ho
    cases hfind : Ascending.find? k index.buckets with
    | none => simp [hfind] at ho
    | some offsets =>
      rw [hfind] at ho
      exact List.mem_flatMap.2 ⟨_, (Ascending.find?_eq_some_iff h.keys).1 hfind,
        List.mem_map.2 ⟨o, ho, rfl⟩⟩

theorem nodup_entries (h : index.IsOrdered) : index.entries.Nodup := by
  refine List.nodup_flatMap.2 ⟨?_, ?_⟩
  · intro b hb
    refine List.Nodup.map (fun o o' heq => (Prod.mk.inj heq).2) ?_
    exact (h.offsets b hb).imp fun hlt => UInt64.ne_of_lt hlt
  · -- Entries under different keys are different.
    refine h.keys.imp ?_
    intro a b hlt e ha hb
    obtain ⟨_, -, rfl⟩ := List.mem_map.1 ha
    obtain ⟨_, -, heq⟩ := List.mem_map.1 hb
    rw [(Prod.mk.inj heq).1] at hlt
    simp at hlt

theorem between_eq (index : BucketIndex) {range : KeyRange} (h : range.low ≤ range.high) :
    index.between range.low range.high h = index.buckets.filter (·.1 ∈ range) :=
  List.filter_congr fun _ _ => (Bool.decide_and ..).symm

theorem count_eq_length_filter (index : BucketIndex) (range : KeyRange) :
    index.count range = (index.entries.filter (·.1 ∈ range)).length := by
  obtain ⟨size, buckets⟩ := index
  unfold count
  split
  next hgt =>
    -- No key lies between ends that are out of order.
    rw [eq_comm, List.length_eq_zero_iff, List.filter_eq_nil_iff]
    intro e _ he
    obtain ⟨hlow, hhigh⟩ := of_decide_eq_true he
    exact Int.not_le.2 hgt (Int.le_trans hlow hhigh)
  next hle =>
    rw [between_eq]
    simp only [entries]
    induction buckets with
    | nil => rfl
    | cons b buckets ih =>
      rw [List.flatMap_cons, List.filter_append, List.length_append, ← ih, List.filter_cons]
      by_cases hb : b.1 ∈ range
      · simp [hb, List.filter_map, Function.comp_def]
      · simp [hb, List.filter_map, Function.comp_def]

/-- **A count is the number of entries in the range.** -/
theorem count_eq_encard (h : index.IsOrdered) (range : KeyRange) :
    (index.count range : ℕ∞) = {e | e ∈ index ∧ e.1 ∈ range}.encard := by
  have hset : {e | e ∈ index ∧ e.1 ∈ range} = {e | e ∈ index.entries.filter (·.1 ∈ range)} := by
    ext e
    simp [mem_entries h]
  rw [hset, encard_setOf_mem ((nodup_entries h).filter _), count_eq_length_filter]

/-- **An index with more entries** counts more in some range. -/
theorem count_eq_iff {index' : BucketIndex} (h : index.IsOrdered) (h' : index'.IsOrdered)
    (hsub : ∀ e ∈ index, e ∈ index') : index'.count = index.count ↔ ∀ e ∈ index', e ∈ index := by
  constructor
  · intro hcount e he
    -- The key of the entry alone has as many entries in both.
    let range := KeyRange.point e.1
    have hle : {e | e ∈ index' ∧ e.1 ∈ range}.encard ≤ {e | e ∈ index ∧ e.1 ∈ range}.encard := by
      rw [← count_eq_encard h, ← count_eq_encard h', hcount]
    have hfinite : {e | e ∈ index ∧ e.1 ∈ range}.Finite :=
      Set.finite_of_encard_eq_coe (count_eq_encard h range).symm
    have hsubset : {e | e ∈ index ∧ e.1 ∈ range} ⊆ {e | e ∈ index' ∧ e.1 ∈ range} :=
      fun e he => ⟨hsub e he.1, he.2⟩
    have hmem : e ∈ {e | e ∈ index' ∧ e.1 ∈ range} := ⟨he, Int.le_refl _, Int.le_refl _⟩
    rw [← hfinite.eq_of_subset_of_encard_le hsubset hle] at hmem
    exact hmem.1
  · intro hback
    funext range
    have hset : {e | e ∈ index' ∧ e.1 ∈ range} = {e | e ∈ index ∧ e.1 ∈ range} := by
      ext e
      exact and_congr_left' ⟨hback e, hsub e⟩
    have hcard : (index'.count range : ℕ∞) = index.count range := by
      rw [count_eq_encard h, count_eq_encard h', hset]
    exact_mod_cast hcard

end BucketIndex

end BucketPlanner
