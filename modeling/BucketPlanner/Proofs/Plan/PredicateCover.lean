import BucketPlanner.Proofs.Plan.WholeComparison

/-!
# Key ranges of predicates hold the keys of matching values

A predicate on an indexed column has a range of keys, and the values of the column that satisfy the
predicate have their keys in it (`Predicate.exists_key_mem_keyRange`), as long as keys are fine enough
for the comparison (`Predicate.IsSharp`).
-/

namespace BucketPlanner

/-- The value lies in the domain of the column. -/
def Column.Contains (column : Column) (v : Value) : Prop :=
  column.min.isAtMost v ∧ v.isAtMost column.max

instance (column : Column) (v : Value) : Decidable (column.Contains v) :=
  inferInstanceAs (Decidable (_ ∧ _))

/-- Keys are fine enough to compare a value of a column with the literal of a predicate: comparing
the value with the literal and with the end of the range that the column's domain gives loses
nothing, an integer column has no fraction where the literal has one, and a strict comparison is
one of values in different buckets. -/
structure Predicate.IsSharp (p : Predicate) (column : Column) (bucketSize : Binary64) (v : Value) :
    Prop where
  literal : v.IsClearOf p.value
  upper : p.comparison = .ge ∨ p.comparison = .gt → v.IsClearOf column.max
  lower : p.comparison = .le ∨ p.comparison = .lt → v.IsClearOf column.min
  whole : column.type.isInteger → p.value.isFraction → ¬ v.isFraction
  strict : p.comparison = .gt ∨ p.comparison = .lt →
    ¬ (column.type.isInteger ∧ p.value.isFraction) →
      (v.key? bucketSize).isSome ∧ v.key? bucketSize ≠ p.value.key? bucketSize

instance (p : Predicate) (column : Column) (bucketSize : Binary64) (v : Value) :
    Decidable (p.IsSharp column bucketSize v) :=
  decidable_of_iff
    (v.IsClearOf p.value ∧
      (p.comparison = .ge ∨ p.comparison = .gt → v.IsClearOf column.max) ∧
      (p.comparison = .le ∨ p.comparison = .lt → v.IsClearOf column.min) ∧
      (column.type.isInteger → p.value.isFraction → ¬ v.isFraction) ∧
      (p.comparison = .gt ∨ p.comparison = .lt →
        ¬ (column.type.isInteger ∧ p.value.isFraction) →
          (v.key? bucketSize).isSome ∧ v.key? bucketSize ≠ p.value.key? bucketSize))
    ⟨fun ⟨h1, h2, h3, h4, h5⟩ => ⟨h1, h2, h3, h4, h5⟩, fun ⟨h1, h2, h3, h4, h5⟩ => ⟨h1, h2, h3, h4, h5⟩⟩

variable {column : Column} {s : Binary64} {c : Comparison} {v l : Value} {k : Key} {r : KeyRange}

namespace Column

theorem boundKey_eq_ok {bound : Value} (h : column.boundKey bound s = .ok k) :
    bound.key? s = some k := by
  unfold boundKey at h
  split at h
  next hk =>
    rw [Except.ok.injEq] at h
    rw [hk, h]
  · simp at h

/-- A range that takes one end from the domain. -/
theorem exists_boundKey {bound : Value} {f : Key → KeyRange}
    (h : (column.boundKey bound s).map f = .ok r) : ∃ k, bound.key? s = some k ∧ r = f k := by
  cases hb : column.boundKey bound s with
  | error e => simp [hb, Except.map] at h
  | ok k =>
    rw [hb, Except.map, Except.ok.injEq] at h
    exact ⟨k, boundKey_eq_ok hb, h.symm⟩

/-- The range of a relation to a literal holds the keys of the values in that relation. -/
theorem exists_key_mem_rangeFrom (h : column.rangeFrom s c k = .ok r) (hl : l.key? s = some k)
    (hrel : c.relates v l) (hdom : column.Contains v) (hclear : v.IsClearOf l)
    (hupper : c = .ge ∨ c = .gt → v.IsClearOf column.max)
    (hlower : c = .le ∨ c = .lt → v.IsClearOf column.min)
    (hstrict : c = .gt ∨ c = .lt → ∃ m, v.key? s = some m ∧ m ≠ k) :
    ∃ m, v.key? s = some m ∧ m ∈ r := by
  cases c with
  | eq =>
    have hlv := Comparison.literal_isAtMost_of_relates hrel (by simp)
    have hvl := Comparison.isAtMost_literal_of_relates hrel (by simp)
    obtain ⟨m, hm⟩ := Value.exists_key_of_between hlv hvl hl hl
    simp only [rangeFrom, Except.ok.injEq] at h
    rw [← h]
    exact ⟨m, hm, Value.key?_mono hclear.symm hlv hl hm, Value.key?_mono hclear hvl hm hl⟩
  | neq => simp [rangeFrom] at h
  | ge =>
    have hlv := Comparison.literal_isAtMost_of_relates hrel (by simp)
    obtain ⟨high, hhigh, rfl⟩ := exists_boundKey h
    obtain ⟨m, hm⟩ := Value.exists_key_of_between hlv hdom.2 hl hhigh
    exact ⟨m, hm, Value.key?_mono hclear.symm hlv hl hm,
      Value.key?_mono (hupper (by simp)) hdom.2 hm hhigh⟩
  | le =>
    have hvl := Comparison.isAtMost_literal_of_relates hrel (by simp)
    obtain ⟨low, hlow, rfl⟩ := exists_boundKey h
    obtain ⟨m, hm⟩ := Value.exists_key_of_between hdom.1 hvl hlow hl
    exact ⟨m, hm, Value.key?_mono (hlower (by simp)).symm hdom.1 hlow hm,
      Value.key?_mono hclear hvl hm hl⟩
  | gt =>
    -- The record is in another bucket than the literal, so a next key exists.
    have hlv := Comparison.literal_isAtMost_of_relates hrel (by simp)
    obtain ⟨m, hm, hne⟩ := hstrict (by simp)
    have hlt := Key.lt_of_le_of_ne (Value.key?_mono hclear.symm hlv hl hm) hne.symm
    obtain ⟨low, hnext, hle⟩ := Key.exists_next?_of_lt hlt
    simp only [rangeFrom, hnext] at h
    obtain ⟨high, hhigh, rfl⟩ := exists_boundKey h
    exact ⟨m, hm, hle, Value.key?_mono (hupper (by simp)) hdom.2 hm hhigh⟩
  | lt =>
    have hvl := Comparison.isAtMost_literal_of_relates hrel (by simp)
    obtain ⟨m, hm, hne⟩ := hstrict (by simp)
    have hlt := Key.lt_of_le_of_ne (Value.key?_mono hclear hvl hm hl) hne
    obtain ⟨high, hprev, hle⟩ := Key.exists_prev?_of_lt hlt
    simp only [rangeFrom, hprev] at h
    obtain ⟨low, hlow, rfl⟩ := exists_boundKey h
    exact ⟨m, hm, Value.key?_mono (hlower (by simp)).symm hdom.1 hlow hm, hle⟩

end Column

namespace Predicate

variable {p : Predicate} {id : IndexId}

/-- The comparison that keys decide for a predicate. On an integer column its literal is whole, and
there is none when no integer satisfies the predicate. -/
def keyComparison? (p : Predicate) (column : Column) : Option (Comparison × Value) :=
  if column.type.isInteger then wholeComparison? p.comparison p.value
  else some (p.comparison, p.value)

theorem keyComparison?_of_not_isFraction (h : ¬ (column.type.isInteger ∧ p.value.isFraction)) :
    p.keyComparison? column = some (p.comparison, p.value) := by
  unfold keyComparison?
  split
  next hint => exact wholeComparison?_of_not_isFraction fun hfrac => h ⟨hint, hfrac⟩
  · rfl

/-- The range of a predicate is that of the comparison that keys decide. -/
theorem keyRange_eq (hindex : column.index = some ⟨id, s⟩) (hs : Key.isBucketSize s)
    (hrange : p.comparison.isRange) (haccepts : column.type.accepts p.value) :
    p.keyRange column =
      match p.keyComparison? column with
      | none => .ok .empty
      | some (c, l) =>
        match l.key? s with
        | none => .error (.literalMismatch p.field column.name (.noKey l))
        | some k => column.rangeFrom s c k := by
  simp only [keyRange, hrange, hindex, hs, haccepts]
  rfl

/-- What there is when a predicate has a range. -/
theorem keyRange_eq_ok (hindex : column.index = some ⟨id, s⟩) (h : p.keyRange column = .ok r) :
    p.comparison.isRange ∧ Key.isBucketSize s ∧ column.type.accepts p.value ∧
      (p.keyComparison? column = none ∧ r = .empty ∨
        ∃ c l k, p.keyComparison? column = some (c, l) ∧ l.key? s = some k ∧
          column.rangeFrom s c k = .ok r) := by
  obtain ⟨hrange, hs, haccepts⟩ :
      p.comparison.isRange ∧ Key.isBucketSize s ∧ column.type.accepts p.value := by
    unfold keyRange at h
    split at h
    · simp at h
    next hrange =>
      rw [hindex] at h
      simp only at h
      split at h
      · simp at h
      next hs =>
        split at h
        · simp at h
        next haccepts =>
          exact ⟨by simpa using hrange, by simpa using hs, by simpa using haccepts⟩
  refine ⟨hrange, hs, haccepts, ?_⟩
  rw [keyRange_eq hindex hs hrange haccepts] at h
  split at h
  next hnone => exact Or.inl ⟨hnone, (Except.ok.inj h).symm⟩
  next c l hsome =>
    split at h
    · simp at h
    next k hk => exact Or.inr ⟨c, l, k, hsome, hk, h⟩

/-- **The range of a predicate holds the keys of the values that satisfy it.** -/
theorem exists_key_mem_keyRange (hindex : column.index = some ⟨id, s⟩)
    (h : p.keyRange column = .ok r) (hrel : p.comparison.relates v p.value)
    (hdom : column.Contains v) (hsharp : p.IsSharp column s v) :
    ∃ k, v.key? s = some k ∧ k ∈ r := by
  obtain ⟨hrange, -, -, hcases⟩ := keyRange_eq_ok hindex h
  by_cases hfrac : column.type.isInteger ∧ p.value.isFraction
  · -- The literal gives way to a whole one, and the comparison is not strict any more.
    obtain ⟨hint, hlit⟩ := hfrac
    obtain ⟨c, l, hwhole, hrel', hclear, hc⟩ :=
      exists_wholeComparison? hlit (hsharp.whole hint hlit) hrange hrel
    rw [keyComparison?, if_pos hint, hwhole] at hcases
    obtain ⟨hnone, -⟩ | ⟨c', l', k, hsome, hk, hr⟩ := hcases
    · simp at hnone
    · rw [Option.some.injEq, Prod.mk.injEq] at hsome
      obtain ⟨rfl, rfl⟩ := hsome
      refine Column.exists_key_mem_rangeFrom hr hk hrel' hdom hclear ?_ ?_ ?_ <;>
        rcases hc with ⟨rfl, hc⟩ | ⟨rfl, hc⟩ <;> simp
      · exact hsharp.upper hc
      · exact hsharp.lower hc
  · rw [keyComparison?_of_not_isFraction hfrac] at hcases
    obtain ⟨hnone, -⟩ | ⟨c, l, k, hsome, hk, hr⟩ := hcases
    · simp at hnone
    rw [Option.some.injEq, Prod.mk.injEq] at hsome
    obtain ⟨rfl, rfl⟩ := hsome
    refine Column.exists_key_mem_rangeFrom hr hk hrel hdom hsharp.literal hsharp.upper hsharp.lower
      fun hc => ?_
    obtain ⟨hkey, hne⟩ := hsharp.strict hc hfrac
    obtain ⟨m, hm⟩ := Option.isSome_iff_exists.1 hkey
    rw [hm, hk, ne_eq, Option.some.injEq] at hne
    exact ⟨m, hm, hne⟩

/-- A predicate has a range when its literal and the ends of the domain have keys. -/
theorem exists_keyRange (hrange : p.comparison.isRange) (hindex : column.index = some ⟨id, s⟩)
    (hs : Key.isBucketSize s) (haccepts : column.type.accepts p.value)
    (hwhole : column.type.isInteger → ¬ p.value.isFraction)
    (hkeys : ∀ v ∈ [p.value, column.min, column.max], ∃ k, v.key? s = some k) :
    ∃ r, p.keyRange column = .ok r := by
  obtain ⟨k, hk⟩ := hkeys p.value (by simp)
  obtain ⟨low, hlow⟩ := hkeys column.min (by simp)
  obtain ⟨high, hhigh⟩ := hkeys column.max (by simp)
  rw [keyRange_eq hindex hs hrange haccepts,
    keyComparison?_of_not_isFraction fun ⟨hint, hfrac⟩ => hwhole hint hfrac]
  simp only [hk]
  cases hc : p.comparison with
  | neq => simp [hc, Comparison.isRange] at hrange
  | eq => exact ⟨_, rfl⟩
  | ge => exact ⟨⟨k, high⟩, by simp [Column.rangeFrom, Column.boundKey, hhigh, Except.map]⟩
  | le => exact ⟨⟨low, k⟩, by simp [Column.rangeFrom, Column.boundKey, hlow, Except.map]⟩
  | gt =>
    cases hnext : k.next? with
    | none => exact ⟨.empty, by simp [Column.rangeFrom, hnext]⟩
    | some l => exact ⟨⟨l, high⟩, by simp [Column.rangeFrom, hnext, Column.boundKey, hhigh, Except.map]⟩
  | lt =>
    cases hprev : k.prev? with
    | none => exact ⟨.empty, by simp [Column.rangeFrom, hprev]⟩
    | some l => exact ⟨⟨low, l⟩, by simp [Column.rangeFrom, hprev, Column.boundKey, hlow, Except.map]⟩

end Predicate

end BucketPlanner
