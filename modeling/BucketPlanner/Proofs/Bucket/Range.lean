import BucketPlanner.Bucket.Range
import BucketPlanner.Proofs.Bucket.KeyOrder
import Mathlib.Data.Set.Basic

/-!
# Key ranges as sets of keys

A key range is known through the keys that it holds:

* `KeyRange.isValid_iff`: its ends are in order exactly when it holds a key;
* `KeyRange.keys_intersect`: intersecting ranges intersects their keys;
* `KeyRange.eq_of_keys_eq`: a range that holds a key is given by its keys.
-/

namespace BucketPlanner

@[simp] theorem Key.val_max (a b : Key) : (max a b).val = max a.val b.val := by
  show (if a.val ≤ b.val then b else a).val = _
  split <;> omega

@[simp] theorem Key.val_min (a b : Key) : (min a b).val = min a.val b.val := by
  show (if a.val ≤ b.val then a else b).val = _
  split <;> omega

namespace KeyRange

/-- The keys that a range holds. -/
def keys (r : KeyRange) : Set Key := {k | k ∈ r}

variable {k : Key} {r s : KeyRange}

@[simp] theorem mem_keys : k ∈ r.keys ↔ k ∈ r := Iff.rfl

theorem isValid_iff_le : r.isValid ↔ r.low ≤ r.high := by simp [isValid]

theorem low_mem (h : r.isValid) : r.low ∈ r := ⟨Int.le_refl _, isValid_iff_le.1 h⟩

theorem high_mem (h : r.isValid) : r.high ∈ r := ⟨isValid_iff_le.1 h, Int.le_refl _⟩

/-- **The ends of a range are in order** exactly when it holds a key. -/
theorem isValid_iff : r.isValid ↔ r.keys.Nonempty := by
  constructor
  · intro h
    exact ⟨r.low, low_mem h⟩
  · rintro ⟨k, hk⟩
    exact isValid_iff_le.2 (Key.le_trans hk.1 hk.2)

/-- **Intersecting ranges** intersects their keys. -/
@[simp] theorem keys_intersect (r s : KeyRange) : (r.intersect s).keys = r.keys ∩ s.keys := by
  ext k
  simp only [mem_keys, Set.mem_inter_iff, mem_iff, intersect, Key.val_max, Key.val_min]
  omega

theorem eq_of_ends (hlow : r.low = s.low) (hhigh : r.high = s.high) : r = s := by
  show (⟨r.low, r.high⟩ : KeyRange) = ⟨s.low, s.high⟩
  rw [hlow, hhigh]

/-- **A range that holds a key is given by its keys.** -/
theorem eq_of_keys_eq (hr : r.isValid) (h : r.keys = s.keys) : r = s := by
  have hs : s.isValid := by rwa [isValid_iff, ← h, ← isValid_iff]
  have hmem : ∀ k, k ∈ r ↔ k ∈ s := Set.ext_iff.1 h
  -- The ends are the least and the greatest of the same keys.
  have hlow : r.low = s.low :=
    Key.le_antisymm ((hmem _).2 (low_mem hs)).1 ((hmem _).1 (low_mem hr)).1
  have hhigh : r.high = s.high :=
    Key.le_antisymm ((hmem _).1 (high_mem hr)).2 ((hmem _).2 (high_mem hs)).2
  exact eq_of_ends hlow hhigh

end KeyRange

end BucketPlanner
