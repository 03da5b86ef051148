import BucketPlanner.Proofs.Bucket.Range
import BucketPlanner.Proofs.Plan.PredicateCover

/-!
# What the ranges of predicates hold

The ranges of predicates are known exactly, and not only to hold the keys of matching values:

* `Column.exists_mem_rangeFrom_iff`: a key is in the range of a relation to a literal when it is in
  that relation to the literal's key, with the end of the domain on the other side;
* `Predicate.mem_keyRange_iff`: so it is in the range of a predicate, whose literal is a whole one on
  an integer column;
* `KeyRange.keys_foldl_intersect`: the keys that are left of several ranges.
-/

namespace BucketPlanner

namespace Key

variable {k l m : Key}

/-- The keys after a key are those from the next one on. -/
theorem le_iff_of_next? (h : k.next? = some l) : l ≤ m ↔ k < m := by
  rw [next?, ofInt?] at h
  split at h
  · rw [Option.some.injEq] at h
    rw [← h, le_iff, lt_iff]
    exact Int.add_one_le_iff
  · simp at h

theorem not_lt_of_next? (h : k.next? = none) : ¬ k < m := by
  intro hlt
  obtain ⟨l, hl, -⟩ := exists_next?_of_lt hlt
  simp [h] at hl

/-- The keys before a key are those up to the one before. -/
theorem le_iff_of_prev? (h : k.prev? = some l) : m ≤ l ↔ m < k := by
  rw [prev?, ofInt?] at h
  split at h
  · rw [Option.some.injEq] at h
    rw [← h, le_iff, lt_iff]
    exact Int.le_sub_one_iff
  · simp at h

theorem not_lt_of_prev? (h : k.prev? = none) : ¬ m < k := by
  intro hlt
  obtain ⟨l, hl, -⟩ := exists_prev?_of_lt hlt
  simp [h] at hl

end Key

namespace KeyRange

theorem not_mem_empty (k : Key) : k ∉ empty := by
  intro h
  have hle := Key.le_trans h.1 h.2
  exact absurd hle (by decide)

/-- The keys of an intersection of several ranges are the keys that all of them hold. -/
theorem keys_foldl_intersect (r : KeyRange) (rs : List KeyRange) :
    (rs.foldl intersect r).keys = {k | ∀ s ∈ r :: rs, k ∈ s} := by
  induction rs generalizing r with
  | nil => simp [keys]
  | cons s rs ih =>
    rw [List.foldl_cons, ih]
    ext k
    have hinter : k ∈ r.intersect s ↔ k ∈ r ∧ k ∈ s := Set.ext_iff.1 (keys_intersect r s) k
    simp [hinter, and_assoc]

end KeyRange

variable {column : Column} {s : Binary64} {c : Comparison} {k m : Key}

namespace Column

theorem boundKey_eq_ok_iff {bound : Value} :
    column.boundKey bound s = .ok k ↔ bound.key? s = some k :=
  ⟨boundKey_eq_ok, fun h => by simp [boundKey, h]⟩

/-- The keys of a range that ends with the domain. -/
theorem exists_mem_to_max_iff :
    (∃ r, (column.boundKey column.max s).map (fun high => KeyRange.mk k high) = .ok r ∧ m ∈ r) ↔
      k ≤ m ∧ ∃ high ∈ column.max.key? s, m ≤ high := by
  constructor
  · rintro ⟨r, hr, hm⟩
    obtain ⟨high, hhigh, rfl⟩ := exists_boundKey hr
    exact ⟨hm.1, high, hhigh, hm.2⟩
  · rintro ⟨hlow, high, hhigh, hle⟩
    exact ⟨⟨k, high⟩, by rw [boundKey_eq_ok_iff.2 hhigh, Except.map], hlow, hle⟩

/-- The keys of a range that begins with the domain. -/
theorem exists_mem_from_min_iff :
    (∃ r, (column.boundKey column.min s).map (fun low => KeyRange.mk low k) = .ok r ∧ m ∈ r) ↔
      m ≤ k ∧ ∃ low ∈ column.min.key? s, low ≤ m := by
  constructor
  · rintro ⟨r, hr, hm⟩
    obtain ⟨low, hlow, rfl⟩ := exists_boundKey hr
    exact ⟨hm.2, low, hlow, hm.1⟩
  · rintro ⟨hhigh, low, hlow, hle⟩
    exact ⟨⟨low, k⟩, by rw [boundKey_eq_ok_iff.2 hlow, Except.map], hle, hhigh⟩

/-- **A key is in the range of a relation** to a literal with key `k` when it is in that relation
to `k`, and the domain does not end before it. -/
theorem exists_mem_rangeFrom_iff :
    (∃ r, column.rangeFrom s c k = .ok r ∧ m ∈ r) ↔
      match c with
      | .eq => m = k
      | .neq => False
      | .ge => k ≤ m ∧ ∃ high ∈ column.max.key? s, m ≤ high
      | .le => m ≤ k ∧ ∃ low ∈ column.min.key? s, low ≤ m
      | .gt => k < m ∧ ∃ high ∈ column.max.key? s, m ≤ high
      | .lt => m < k ∧ ∃ low ∈ column.min.key? s, low ≤ m := by
  cases c with
  | eq =>
    simp only [rangeFrom, Except.ok.injEq, exists_eq_left']
    exact ⟨fun h => Key.le_antisymm h.2 h.1, fun h => h ▸ ⟨Int.le_refl _, Int.le_refl _⟩⟩
  | neq => simp [rangeFrom]
  | ge => exact exists_mem_to_max_iff
  | le => exact exists_mem_from_min_iff
  | gt =>
    cases hnext : k.next? with
    | none => simp [rangeFrom, hnext, KeyRange.not_mem_empty, Key.not_lt_of_next? hnext]
    | some l =>
      simp only [rangeFrom, hnext, ← Key.le_iff_of_next? hnext]
      exact exists_mem_to_max_iff
  | lt =>
    cases hprev : k.prev? with
    | none => simp [rangeFrom, hprev, KeyRange.not_mem_empty, Key.not_lt_of_prev? hprev]
    | some l =>
      simp only [rangeFrom, hprev, ← Key.le_iff_of_prev? hprev]
      exact exists_mem_from_min_iff

end Column

/-- Integer types accept all numbers. -/
theorem DataType.accepts_of_number? {t : DataType} {v : Value} (ht : t.isInteger)
    (hv : v.number?.isSome) : t.accepts v := by
  cases t <;> cases v <;> simp_all [isInteger, Value.number?, accepts, isNumeric]

/-! ### Predicates of keys -/

/-- A relation between keys. -/
def Comparison.relatesKeys : Comparison → Key → Key → Prop
  | eq, k, l => k = l
  | neq, k, l => k ≠ l
  | ge, k, l => l ≤ k
  | le, k, l => k ≤ l
  | gt, k, l => l < k
  | lt, k, l => k < l

instance (c : Comparison) (k l : Key) : Decidable (c.relatesKeys k l) := by
  cases c <;> unfold Comparison.relatesKeys <;> infer_instance

/-- The keys of the domain do not end before a key, on the side that a relation leaves open. -/
def Column.Reaches (column : Column) (s : Binary64) (c : Comparison) (k : Key) : Prop :=
  match c with
  | .ge | .gt => ∃ high ∈ column.max.key? s, k ≤ high
  | .le | .lt => ∃ low ∈ column.min.key? s, low ≤ k
  | .eq | .neq => True

instance (column : Column) (s : Binary64) (c : Comparison) (k : Key) :
    Decidable (column.Reaches s c k) := by
  cases c <;> unfold Column.Reaches <;> infer_instance

/-- The keys in the range of a relation to a literal. -/
theorem Column.mem_rangeFrom_iff {r : KeyRange} (h : column.rangeFrom s c k = .ok r) :
    m ∈ r ↔ c.relatesKeys m k ∧ column.Reaches s c m := by
  have hmem : m ∈ r ↔ ∃ r', column.rangeFrom s c k = .ok r' ∧ m ∈ r' := by simp [h]
  rw [hmem, exists_mem_rangeFrom_iff]
  cases c with
  | neq => simp [rangeFrom] at h
  | eq => simp [Comparison.relatesKeys, Reaches]
  | ge | le | gt | lt => rfl

namespace Predicate

variable {p : Predicate} {id : IndexId} {l : Value} {r : KeyRange}

/-- A key is in the relation of a predicate to the key of the literal, and within the keys of the
domain. -/
def RelatesKey (p : Predicate) (column : Column) (s : Binary64) (k : Key) : Prop :=
  (∃ e ∈ p.keyComparison? column, ∃ l ∈ e.2.key? s, e.1.relatesKeys k l) ∧
    column.Reaches s p.comparison k

instance (p : Predicate) (column : Column) (s : Binary64) (k : Key) :
    Decidable (p.RelatesKey column s k) :=
  inferInstanceAs (Decidable (_ ∧ _))

/-- Moving a literal to a whole one leaves the same side open. -/
theorem reaches_iff_of_keyComparison? (h : p.keyComparison? column = some (c, l)) :
    column.Reaches s c k ↔ column.Reaches s p.comparison k := by
  by_cases hfrac : column.type.isInteger ∧ p.value.isFraction
  · obtain ⟨hint, hlit⟩ := hfrac
    obtain ⟨x, hx, hcond⟩ := Value.exists_float_of_isFraction hlit
    rw [keyComparison?, if_pos hint, hx] at h
    -- An inequality stays one in the same direction.
    cases hc : p.comparison <;> rw [hc, wholeComparison?, if_pos hcond] at h <;> cases h <;> rfl
  · rw [keyComparison?_of_not_isFraction hfrac, Option.some.injEq, Prod.mk.injEq] at h
    rw [h.1]

/-- **The keys in the range of a predicate** are in its relation to the key of the literal. -/
theorem mem_keyRange_iff (hindex : column.index = some ⟨id, s⟩) (h : p.keyRange column = .ok r) :
    k ∈ r ↔ p.RelatesKey column s k := by
  obtain ⟨-, -, -, ⟨hnone, rfl⟩ | ⟨c, l, kl, hsome, hkl, hr⟩⟩ := keyRange_eq_ok hindex h
  · simp [RelatesKey, hnone, KeyRange.not_mem_empty]
  · rw [Column.mem_rangeFrom_iff hr, reaches_iff_of_keyComparison? hsome]
    simp [RelatesKey, hsome, hkl]

end Predicate

end BucketPlanner
