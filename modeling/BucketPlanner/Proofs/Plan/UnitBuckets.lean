import BucketPlanner.Proofs.Bucket.WholeSize
import BucketPlanner.Proofs.Plan.Outcome
import BucketPlanner.Proofs.Plan.RangeEnds
import Mathlib.Data.Set.List

/-!
# Ranges in buckets of one

In buckets of one an integer is its own key, so on an integer column the range of a comparison with
an integer holds exactly the integers of the domain that satisfy it (`Predicate.exists_keyRange_unit`),
and the ranges of several such comparisons meet in the integers that satisfy all of them
(`Minterm.holds_iff_mem_ranges`). Literals may lie anywhere, also where the type of the column does
not reach.
-/

namespace BucketPlanner

/-- The column is of integers from `low` to `high`, with an index in buckets of one. -/
structure Column.HasUnitIndex (column : Column) (id : IndexId) (low high : Int) : Prop where
  isInteger : column.type.isInteger
  index : column.index = some ⟨id, .ofNat 1⟩
  min : column.min.integer? = some low
  max : column.max.integer? = some high

/-- The predicates compare the column at a place with integers, and not by `!=`. -/
def Minterm.ComparesIntegers (m : Minterm) (field : Nat) : Prop :=
  ∀ p ∈ m, p.field = field ∧ p.comparison.isRange ∧ p.value.integer?.isSome

instance (m : Minterm) (field : Nat) : Decidable (m.ComparesIntegers field) :=
  inferInstanceAs (Decidable (∀ p ∈ m, _))

variable {column : Column} {id : IndexId} {low high i j : Int} {field : Nat} {record : Record}
  {v : Value}

/-- **The range of a comparison with an integer** holds exactly the integers of the domain that
satisfy it. -/
theorem Predicate.exists_keyRange_unit {p : Predicate} (h : column.HasUnitIndex id low high)
    (hrange : p.comparison.isRange) (hj : p.value.integer? = some j) :
    ∃ r, p.keyRange column = .ok r ∧ ∀ k : Key, low ≤ k.val → k.val ≤ high →
      (k ∈ r ↔ p.comparison.holds (compare k.val j)) := by
  have hs : Key.isBucketSize (.ofNat 1) := by decide +kernel
  obtain ⟨l, hl, hlj⟩ := Value.exists_key?_unit hj
  obtain ⟨first, hfirst, hlow⟩ := Value.exists_key?_unit h.min
  obtain ⟨last, hlast, hhigh⟩ := Value.exists_key?_unit h.max
  have haccepts := DataType.accepts_of_number? h.isInteger (Value.isSome_number? hj)
  have hwhole := Value.not_isFraction_of_integer? hj
  obtain ⟨r, hr⟩ := exists_keyRange hrange h.index hs haccepts (fun _ => hwhole)
    (by simp [hl, hfirst, hlast])
  have hfrom : column.rangeFrom (.ofNat 1) p.comparison l = .ok r := by
    rw [keyRange_eq h.index hs hrange haccepts,
      keyComparison?_of_not_isFraction fun hfrac => hwhole hfrac.2] at hr
    simpa only [hl] using hr
  refine ⟨r, hr, fun k hk hk' => ?_⟩
  have hmem : k ∈ r ↔ ∃ r', column.rangeFrom (.ofNat 1) p.comparison l = .ok r' ∧ k ∈ r' := by
    simp [hfrom]
  -- The domain does not end before the key, so only the relation to the literal counts.
  have hmax : ∃ b ∈ column.max.key? (.ofNat 1), k ≤ b :=
    ⟨last, hlast, Key.le_iff.2 (by omega)⟩
  have hmin : ∃ b ∈ column.min.key? (.ofNat 1), b ≤ k :=
    ⟨first, hfirst, Key.le_iff.2 (by omega)⟩
  rw [hmem, Column.exists_mem_rangeFrom_iff, ← hlj]
  cases hc : p.comparison with
  | neq => simp [hc, Comparison.isRange] at hrange
  | eq => simpa [Comparison.holds] using ⟨congrArg Key.val, Key.ext⟩
  | ge => exact (and_iff_left hmax).trans (by simp [Comparison.holds, Int.compare_eq_lt, Key.le_iff])
  | le => exact (and_iff_left hmin).trans (by simp [Comparison.holds, Int.compare_eq_gt, Key.le_iff])
  | gt => exact (and_iff_left hmax).trans (by simp [Comparison.holds, Int.compare_eq_gt, Key.lt_iff])
  | lt => exact (and_iff_left hmin).trans (by simp [Comparison.holds, Int.compare_eq_lt, Key.lt_iff])

namespace Minterm

variable {schema : Schema} {m : Minterm} {r : KeyRange} {rs : List KeyRange} {k : Key}

/-- A record satisfies comparisons of an integer with integers when they hold of the numbers. -/
theorem holds_iff_of_integers (hm : m.ComparesIntegers field) (hv : record[field]? = some v)
    (hi : v.integer? = some i) :
    m.holds record ↔ ∀ p ∈ m, ∀ j ∈ p.value.integer?, p.comparison.holds (compare i j) := by
  rw [holds, List.all_eq_true]
  refine forall₂_congr fun p hp => ?_
  obtain ⟨hfield, -, hinteger⟩ := hm p hp
  obtain ⟨j, hj⟩ := Option.isSome_iff_exists.1 hinteger
  simp [Predicate.holds, hfield, hv, hj, Value.compare?_of_integer? hi hj]

/-- A record with an integer of the domain satisfies comparisons with integers when the ranges of all
of them hold its key. -/
theorem holds_iff_forall_mem (hunit : column.HasUnitIndex id low high)
    (hm : m.ComparesIntegers field) (hv : record[field]? = some v) (hk : v.integer? = some k.val)
    (hlow : low ≤ k.val) (hhigh : k.val ≤ high) :
    m.holds record ↔ ∀ p ∈ m, ∀ r, p.keyRange column = .ok r → k ∈ r := by
  rw [holds_iff_of_integers hm hv hk]
  refine forall₂_congr fun p hp => ?_
  obtain ⟨-, hrange, hinteger⟩ := hm p hp
  obtain ⟨j, hj⟩ := Option.isSome_iff_exists.1 hinteger
  obtain ⟨r, hr, hmem⟩ := Predicate.exists_keyRange_unit hunit hrange hj
  simp [hr, hj, hmem k hlow hhigh]

/-- Predicates that have ranges have a list of ranges. -/
theorem exists_map_keyRange (h : ∀ p ∈ m, ∃ r, p.keyRange column = .ok r) :
    ∃ ranges : List KeyRange, m.map (·.keyRange column) = ranges.map .ok := by
  have hmem : m.map (·.keyRange column) ∈ Set.range (List.map Except.ok) := by
    rw [Set.range_list_map]
    intro x hx
    obtain ⟨p, hp, rfl⟩ := List.mem_map.1 hx
    obtain ⟨r, hr⟩ := h p hp
    exact ⟨r, hr.symm⟩
  obtain ⟨ranges, hranges⟩ := hmem
  exact ⟨ranges, hranges.symm⟩

theorem mem_foldl_intersect_iff (h : m.map (·.keyRange column) = (r :: rs).map .ok) :
    k ∈ rs.foldl .intersect r ↔ ∀ p ∈ m, ∀ r, p.keyRange column = .ok r → k ∈ r := by
  have hmem : ∀ s, s ∈ r :: rs ↔ ∃ p ∈ m, p.keyRange column = .ok s := by
    intro s
    rw [← List.mem_map, h]
    simp
  rw [← KeyRange.mem_keys, KeyRange.keys_foldl_intersect]
  simp only [Set.mem_ofPred_eq, hmem]
  exact ⟨fun h p hp s hs => h s ⟨p, hp, hs⟩, fun h s ⟨p, hp, hs⟩ => h p hp s hs⟩

/-- A key that all ranges hold keeps comparisons of one column from contradicting each other. -/
theorem outcome_ne_unsatisfiable (hcolumn : schema.column? field = some column)
    (hm : m.ComparesIntegers field) (h : ∀ p ∈ m, ∀ r, p.keyRange column = .ok r → k ∈ r)
    (costs : IndexCosts) : outcome schema costs m ≠ .ok .unsatisfiable := by
  intro hunsat
  obtain ⟨id, -, hempty⟩ := (outcome_eq_unsatisfiable_iff hunsat).1 rfl
  have hkey : k ∈ (m.given schema).keys id := by
    rintro r ⟨p, hp, c, hc, -, -, hr⟩
    rw [(hm p hp).1] at hc
    obtain rfl := Option.mem_unique hc hcolumn
    exact h p hp r hr
  simp [hempty] at hkey

/-- **In buckets of one the ranges of an integer column are exact.** Comparisons with integers have
ranges, and an integer of the domain satisfies all of them exactly when its key is in the intersection
of the ranges. Comparisons that such an integer satisfies are not taken for a contradiction. -/
theorem holds_iff_mem_ranges (hcolumn : schema.column? field = some column)
    (hunit : column.HasUnitIndex id low high) (hm : m.ComparesIntegers field) (hne : m ≠ []) :
    ∃ r rs, m.map (·.keyRange column) = (r :: rs).map .ok ∧
      ∀ record v i, record[field]? = some v → v.integer? = some i → low ≤ i → i ≤ high →
        (∃ k, v.key? (.ofNat 1) = some k ∧ (m.holds record ↔ k ∈ rs.foldl .intersect r)) ∧
        (m.holds record → ∀ costs, outcome schema costs m ≠ .ok .unsatisfiable) := by
  obtain ⟨ranges, hranges⟩ : ∃ ranges : List KeyRange, m.map (·.keyRange column) = ranges.map .ok := by
    apply exists_map_keyRange
    intro p hp
    obtain ⟨-, hrange, hinteger⟩ := hm p hp
    obtain ⟨j, hj⟩ := Option.isSome_iff_exists.1 hinteger
    obtain ⟨r, hr, -⟩ := Predicate.exists_keyRange_unit hunit hrange hj
    exact ⟨r, hr⟩
  cases ranges with
  | nil => exact absurd (List.map_eq_nil_iff.1 hranges) hne
  | cons r rs =>
    refine ⟨r, rs, hranges, fun record v i hv hi hlow hhigh => ?_⟩
    obtain ⟨k, hk, rfl⟩ := Value.exists_key?_unit hi
    have hholds := holds_iff_forall_mem hunit hm hv hi hlow hhigh
    refine ⟨⟨k, hk, hholds.trans (mem_foldl_intersect_iff hranges).symm⟩, fun h costs => ?_⟩
    exact outcome_ne_unsatisfiable hcolumn hm (hholds.1 h) costs

/-- The greatest unsigned integer, against a signed literal below all time stamps and an unsigned
one that is the greatest itself. -/
theorem holds_iff_mem_ranges_greatest :
    let column : Column :=
      { position := 0, offset := 0, name := "TIMESTAMP", type := .ulong,
        min := DataType.ulong.least, max := DataType.ulong.greatest,
        index := some ⟨⟨0⟩, .ofNat 1⟩ }
    let schema : Schema := ⟨[column], 8⟩
    let m : Minterm := [⟨0, .gt, .int (-1)⟩, ⟨0, .ge, .uint 18446744073709551615⟩]
    let record : Record := [.uint 18446744073709551615]
    schema.column? 0 = some column ∧ column.HasUnitIndex ⟨0⟩ 0 18446744073709551615 ∧
      m.ComparesIntegers 0 ∧ m ≠ [] ∧ m.holds record ∧
      ∃ r rs, m.map (·.keyRange column) = (r :: rs).map .ok ∧
        ∃ k, (Value.uint 18446744073709551615).key? (.ofNat 1) = some k ∧
          k ∈ rs.foldl .intersect r := by
  intro column schema m record
  have hunit : column.HasUnitIndex ⟨0⟩ 0 18446744073709551615 := ⟨rfl, rfl, rfl, rfl⟩
  have hm : m.ComparesIntegers 0 := by decide +kernel
  have hholds : m.holds record := by decide +kernel
  have hcolumn : schema.column? 0 = some column := rfl
  obtain ⟨r, rs, hranges, hexact⟩ := holds_iff_mem_ranges hcolumn hunit hm (by simp [m])
  obtain ⟨⟨k, hk, hmem⟩, -⟩ := hexact record _ _ rfl rfl (by decide) (by decide)
  exact ⟨hcolumn, hunit, hm, by simp [m], hholds, r, rs, hranges, k, hk, hmem.1 hholds⟩

end Minterm

end BucketPlanner
