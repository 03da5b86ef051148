import BucketPlanner.Proofs.Bucket.KeyOrder

/-!
# The order of values

Comparing two values is comparing booleans, strings, integers or places of binary64 numbers
(`Value.Compared`). The keys of values follow their order:

* `Value.key?_mono`: a value that is not above another one has no greater key, unless the
  comparison rounds an integer too coarsely (`Value.IsClearOf`);
* `Value.exists_key_of_between`: a value between two values with keys has a key.
-/

namespace BucketPlanner.Value

/-- The values are compared, and the first is not above the second. -/
def isAtMost (a b : Value) : Bool := (a.compare? b).any Ordering.isLE

/-- The place of a number on the line of units; integers are rounded to binary64. -/
def place? (v : Value) : Option Int := v.number?.bind Binary64.place?

/-- A comparison of the two values does not lose what tells their keys apart: they are not an
integer of more than 53 bits and a binary64 number of the same magnitude. -/
def IsClearOf (a b : Value) : Prop :=
  match a.integer?, b.integer? with
  | some i, none => ∀ q ∈ b.place?, Key.IsClear i q
  | none, some j => ∀ p ∈ a.place?, Key.IsClear j p
  | _, _ => True

instance (a b : Value) : Decidable (a.IsClearOf b) := by
  unfold IsClearOf
  split <;> infer_instance

/-- The order of two values, and what makes it so. -/
inductive Compared : Value → Value → Ordering → Prop
  | bools (a b : Bool) : Compared (.bool a) (.bool b) (compare a b)
  | texts (a b : String) : Compared (.text a) (.text b) (compare a b)
  | integers {a b : Value} {i j : Int} (ha : a.integer? = some i) (hb : b.integer? = some j) :
      Compared a b (compare i j)
  | places {a b : Value} {p q : Int} (hab : a.integer? = none ∨ b.integer? = none)
      (ha : a.place? = some p) (hb : b.place? = some q) : Compared a b (compare p q)

variable {a b v : Value} {o : Ordering} {s : Binary64} {k l : Key}

/-! ### Comparisons -/

theorem compare?_of_integer? {i j : Int} (ha : a.integer? = some i) (hb : b.integer? = some j) :
    a.compare? b = some (compare i j) := by
  cases a <;> cases b <;> simp_all [integer?, compare?]

theorem place?_eq_some_iff {p : Int} :
    v.place? = some p ↔ ∃ x, v.number? = some x ∧ x.place? = some p := Option.bind_eq_some_iff

theorem compare?_of_place? {p q : Int} (hab : a.integer? = none ∨ b.integer? = none)
    (ha : a.place? = some p) (hb : b.place? = some q) : a.compare? b = some (compare p q) := by
  obtain ⟨x, hx, hp⟩ := place?_eq_some_iff.1 ha
  obtain ⟨y, hy, hq⟩ := place?_eq_some_iff.1 hb
  unfold compare?
  split
  · simp [number?] at hx
  · simp [number?] at hx
  · split
    · simp_all
    · rw [hx, hy]
      exact Binary64.compare?_of_place? hp hq

theorem compare?_eq_some_iff : a.compare? b = some o ↔ Compared a b o := by
  constructor
  · intro h
    unfold compare? at h
    split at h
    · rw [← Option.some.inj h]
      exact .bools ..
    · rw [← Option.some.inj h]
      exact .texts ..
    · split at h
      next i j ha hb =>
        rw [← Option.some.inj h]
        exact .integers ha hb
      next hint =>
        have hab : a.integer? = none ∨ b.integer? = none := by
          by_contra hn
          simp only [not_or, ← ne_eq, Option.ne_none_iff_exists'] at hn
          obtain ⟨⟨i, ha⟩, j, hb⟩ := hn
          exact hint i j ha hb
        split at h
        next x y hx hy =>
          rw [Binary64.compare?] at h
          split at h
          next p q hp hq =>
            rw [← Option.some.inj h]
            exact .places hab (place?_eq_some_iff.2 ⟨x, hx, hp⟩) (place?_eq_some_iff.2 ⟨y, hy, hq⟩)
          · simp at h
        · simp at h
  · rintro (⟨x, y⟩ | ⟨x, y⟩ | ⟨ha, hb⟩ | ⟨hab, ha, hb⟩)
    · rfl
    · rfl
    · exact compare?_of_integer? ha hb
    · exact compare?_of_place? hab ha hb

theorem compare?_swap (h : a.compare? b = some o) : b.compare? a = some o.swap := by
  rw [compare?_eq_some_iff] at h ⊢
  rcases h with ⟨x, y⟩ | ⟨x, y⟩ | ⟨ha, hb⟩ | ⟨hab, ha, hb⟩
  · rw [← Std.OrientedCmp.eq_swap]
    exact .bools ..
  · rw [← Std.OrientedCmp.eq_swap]
    exact .texts ..
  · rw [← Std.OrientedCmp.eq_swap]
    exact .integers hb ha
  · rw [← Std.OrientedCmp.eq_swap]
    exact .places hab.symm hb ha

theorem isAtMost_iff : a.isAtMost b ↔ ∃ o, a.compare? b = some o ∧ o.isLE := by
  simp [isAtMost, Option.any_eq_true]

theorem isAtMost_iff_swap : a.isAtMost b ↔ ∃ o, b.compare? a = some o ∧ o.isGE := by
  rw [isAtMost_iff]
  constructor
  · rintro ⟨o, h, hle⟩
    exact ⟨o.swap, compare?_swap h, by simpa using hle⟩
  · rintro ⟨o, h, hge⟩
    exact ⟨o.swap, compare?_swap h, by simpa using hge⟩

theorem isAtMost_of_integer? {i j : Int} (ha : a.integer? = some i) (hb : b.integer? = some j)
    (h : i ≤ j) : a.isAtMost b :=
  isAtMost_iff.2 ⟨_, compare?_of_integer? ha hb, Std.isLE_compare.2 h⟩

theorem isAtMost_of_place? {p q : Int} (hab : a.integer? = none ∨ b.integer? = none)
    (ha : a.place? = some p) (hb : b.place? = some q) (h : p ≤ q) : a.isAtMost b :=
  isAtMost_iff.2 ⟨_, compare?_of_place? hab ha hb, Std.isLE_compare.2 h⟩

theorem IsClearOf.symm (h : a.IsClearOf b) : b.IsClearOf a := by
  unfold IsClearOf at h ⊢
  cases ha : a.integer? <;> cases hb : b.integer? <;> simp_all

/-! ### Numbers -/

/-- The integers of values have 64 bits, with or without sign. -/
theorem natAbs_le_of_integer? {i : Int} (h : v.integer? = some i) : i.natAbs ≤ 2 ^ 64 := by
  cases v with
  | int n =>
    have hlow := n.le_toInt
    have hhigh := n.toInt_lt
    simp only [integer?, Option.some.injEq] at h
    omega
  | uint n =>
    have hhigh := n.toNat_lt
    simp only [integer?, Option.some.injEq] at h
    omega
  | bool | float | text => simp [integer?] at h

/-- A number is an integer, whose place is rounded, or a binary64 number. -/
theorem number_cases {p : Int} (h : v.place? = some p) :
    (∃ i, v.integer? = some i ∧ p = roundedPlace (i * unitsPerOne) 1) ∨
    ∃ x, v = .float x ∧ x.place? = some p := by
  obtain ⟨x, hx, hp⟩ := place?_eq_some_iff.1 h
  cases v with
  | int i =>
    rw [number?, Option.some.injEq] at hx
    rw [← hx, Binary64.place?_ofInt, Option.some.injEq] at hp
    exact Or.inl ⟨_, rfl, hp.symm⟩
  | uint n =>
    rw [number?, Option.some.injEq] at hx
    rw [← hx, Binary64.ofNat_eq_ofInt, Binary64.place?_ofInt, Option.some.injEq] at hp
    exact Or.inl ⟨_, rfl, hp.symm⟩
  | float y =>
    rw [number?, Option.some.injEq] at hx
    exact Or.inr ⟨x, by rw [hx], hp⟩
  | bool | text => simp [number?] at hx

theorem isSome_number? {i : Int} (h : v.integer? = some i) : v.number?.isSome := by
  cases v <;> simp_all [integer?, number?]

theorem integer?_float (x : Binary64) : (float x).integer? = none := rfl

/-! ### Keys -/

/-- Values have keys only for sizes of buckets. -/
theorem isBucketSize_of_key? (h : v.key? s = some k) : Key.isBucketSize s := by
  unfold key? at h
  split at h
  · assumption
  · simp at h

theorem key?_of_integer? {i : Int} (h : v.integer? = some i) (hs : Key.isBucketSize s) :
    v.key? s = some (Key.ofInteger i s) := by
  cases v <;> simp_all [integer?, key?]

theorem key?_bool (x : Bool) (hs : Key.isBucketSize s) :
    (bool x).key? s = some (Key.clamp (if x then 1 else 0)) := by
  rw [key?, if_pos hs]

theorem key?_float {x : Binary64} (hs : Key.isBucketSize s) :
    (float x).key? s = if x.isFinite then some (Key.ofFloor (x.div s)) else none := by
  rw [key?, if_pos hs]

theorem key?_text (t : String) : (text t).key? s = none := by
  unfold key?
  split <;> rfl

/-- The key of a binary64 number is that of its place. -/
theorem key_float {x : Binary64} {p : Int} {n : Nat} {hn : Representable n}
    (hp : x.place? = some p) (hpos : 0 < n) (h : (float x).key? (.finite false n hn) = some k) :
    k = Key.atPlace n p := by
  rw [key?_float (isBucketSize_of_key? h)] at h
  split at h
  next hx =>
    rw [Option.some.injEq] at h
    rw [← h, Key.ofFloor_div hx hp hpos]
  · simp at h

/-- **Keys follow the order of values**: a value that is not above another has no greater key. -/
theorem key?_mono (hclear : a.IsClearOf b) (h : a.isAtMost b) (hk : a.key? s = some k)
    (hl : b.key? s = some l) : k ≤ l := by
  have hs := isBucketSize_of_key? hk
  obtain ⟨n, hn, rfl, hpos⟩ := Key.exists_units_of_isBucketSize hs
  obtain ⟨o, hcmp, hle⟩ := isAtMost_iff.1 h
  rw [compare?_eq_some_iff] at hcmp
  rcases hcmp with ⟨x, y⟩ | ⟨x, y⟩ | ⟨ha, hb⟩ | ⟨hab, hp, hq⟩
  · rw [key?_bool _ hs, Option.some.injEq] at hk hl
    rw [← hk, ← hl]
    exact Key.clamp_mono (by revert hle; cases x <;> cases y <;> decide)
  · simp [key?_text] at hk
  · rw [key?_of_integer? ha hs, Option.some.injEq] at hk
    rw [key?_of_integer? hb hs, Option.some.injEq] at hl
    rw [← hk, ← hl]
    exact Key.ofInteger_mono (Std.isLE_compare.1 hle) (natAbs_le_of_integer? ha)
      (natAbs_le_of_integer? hb) hpos
  · have hpq := Std.isLE_compare.1 hle
    -- Two integers are not compared by places; an integer is compared by its rounded place.
    rcases number_cases hp with ⟨i, hi, rfl⟩ | ⟨x, rfl, hx⟩ <;>
      rcases number_cases hq with ⟨j, hj, rfl⟩ | ⟨y, rfl, hy⟩
    · simp [hi, hj] at hab
    · rw [key?_of_integer? hi hs, Option.some.injEq] at hk
      rw [← hk, key_float hy hpos hl]
      simp only [IsClearOf, hi, integer?_float] at hclear
      exact Key.ofInteger_le_atPlace (natAbs_le_of_integer? hi) (hclear _ hq) hpq hpos
    · rw [key?_of_integer? hj hs, Option.some.injEq] at hl
      rw [← hl, key_float hx hpos hk]
      simp only [IsClearOf, hj, integer?_float] at hclear
      exact Key.atPlace_le_ofInteger (natAbs_le_of_integer? hj) (hclear _ hp) hpq hpos
    · rw [key_float hx hpos hk, key_float hy hpos hl]
      exact Key.atPlace_mono hpq hpos

/-- Numbers with keys lie within the finite numbers. -/
theorem natAbs_place_lt_of_key? {p : Int} (hp : v.place? = some p) (hk : v.key? s = some k) :
    p.natAbs < unitsLimit := by
  rcases number_cases hp with ⟨i, hi, rfl⟩ | ⟨x, rfl, hx⟩
  · have hround := Key.natAbs_roundedPlace_le (natAbs_le_of_integer? hi)
    have hlimit : 2 ^ 64 * unitsPerOne < unitsLimit := by decide +kernel
    omega
  · rw [key?_float (isBucketSize_of_key? hk)] at hk
    split at hk
    next hfin =>
      obtain ⟨q, hq, hlt⟩ := (Binary64.isFinite_iff_place? x).1 hfin
      rw [hx, Option.some.injEq] at hq
      rwa [hq]
    · simp at hk

/-- **A value between two values with keys has a key.** -/
theorem exists_key_of_between (hav : a.isAtMost v) (hvb : v.isAtMost b) (hk : a.key? s = some k)
    (hl : b.key? s = some l) : ∃ m, v.key? s = some m := by
  have hs := isBucketSize_of_key? hk
  obtain ⟨o, hcmp, hle⟩ := isAtMost_iff.1 hav
  obtain ⟨o', hcmp', hle'⟩ := isAtMost_iff.1 hvb
  rw [compare?_eq_some_iff] at hcmp hcmp'
  rcases hcmp with ⟨x, y⟩ | ⟨x, y⟩ | ⟨ha, hv⟩ | ⟨-, hp, hv⟩
  · exact ⟨_, key?_bool _ hs⟩
  · simp [key?_text] at hk
  · exact ⟨_, key?_of_integer? hv hs⟩
  · rcases number_cases hv with ⟨i, hi, rfl⟩ | ⟨x, rfl, hx⟩
    · exact ⟨_, key?_of_integer? hi hs⟩
    · rcases hcmp' with _ | _ | ⟨hv', -⟩ | ⟨-, hv', hq⟩
      · simp [integer?] at hv'
      · -- The number lies between two finite ones.
        rw [hv, Option.some.injEq] at hv'
        subst hv'
        have hlow := natAbs_place_lt_of_key? hp hk
        have hhigh := natAbs_place_lt_of_key? hq hl
        have hpx := Std.isLE_compare.1 hle
        have hxq := Std.isLE_compare.1 hle'
        have hfin := (Binary64.isFinite_iff_place? x).2 ⟨_, hx, by omega⟩
        exact ⟨_, by rw [key?_float hs, if_pos hfin]⟩

end BucketPlanner.Value
