import BucketPlanner.Proofs.Bucket.WholeSize
import BucketPlanner.Proofs.Plan.RangeEnds
import Mathlib.Data.Int.LeastGreatest

/-!
# Binary64 literals on integer columns

The integers of a column have their keys from exact division, a binary64 literal has its key from a
rounded quotient. The range of a comparison with such a literal therefore keeps all matching integers
only when the keys of its ends do not pass the first and the last of them
(`Predicate.keeps_matching_iff`). That is so where the ends have at most 53 bits in front of the point
or are not divided; beyond that, a matching integer may be lost (`Predicate.exists_not_keeps`).
-/

namespace BucketPlanner

/-- An index in buckets of a whole size on an integer column. -/
structure Column.HasWholeIndex (column : Column) (id : IndexId) (bucketSize : Binary64) (b : Nat) :
    Prop where
  isInteger : column.type.isInteger
  index : column.index = some ⟨id, bucketSize⟩
  whole : Key.IsWholeSize bucketSize b

namespace Predicate

/-- The value is an integer of the column's domain that satisfies the predicate as a real number. A
strict comparison is with a fraction, or in buckets of one. -/
structure IsMatch (p : Predicate) (column : Column) (b : Nat) (v : Value) (i : Int) : Prop where
  integer : v.integer? = some i
  lower : ∃ q ∈ column.min.exactPlace?, q ≤ i * unitsPerOne
  upper : ∃ q ∈ column.max.exactPlace?, i * unitsPerOne ≤ q
  relates : ∃ q ∈ p.value.exactPlace?, p.comparison.holds (compare (i * unitsPerOne) q)
  strict : p.comparison = .gt ∨ p.comparison = .lt → b = 1 ∨ p.value.isFraction

/-- The integers of the column's domain that satisfy the predicate. -/
def matching (p : Predicate) (column : Column) (b : Nat) : Set Int := {i | ∃ v, p.IsMatch column b v i}

/-- The predicate has a range, and it holds the key of the value. -/
def keeps (p : Predicate) (column : Column) (bucketSize : Binary64) (v : Value) : Bool :=
  (p.keyRange column).toOption.any fun r => (v.key? bucketSize).any fun k => k ∈ r

/-- The value whose key begins the range; none for the neighbour of the literal's key. -/
def lowerEnd? (p : Predicate) (column : Column) : Option Value :=
  match p.comparison with
  | .eq | .ge => some p.value
  | .le | .lt => some column.min
  | .gt | .neq => none

/-- The value whose key ends the range; none for the neighbour of the literal's key. -/
def upperEnd? (p : Predicate) (column : Column) : Option Value :=
  match p.comparison with
  | .eq | .le => some p.value
  | .ge | .gt => some column.max
  | .lt | .neq => none

/-- The range does not begin after the key of an integer. -/
def BeginsBy (p : Predicate) (column : Column) (bucketSize : Binary64) (b : Nat) (i : Int) : Prop :=
  ∀ w ∈ p.lowerEnd? column, ∃ k ∈ w.key? bucketSize, k.val ≤ i / b

/-- The range does not end before the key of an integer. -/
def EndsFrom (p : Predicate) (column : Column) (bucketSize : Binary64) (b : Nat) (i : Int) : Prop :=
  ∀ w ∈ p.upperEnd? column, ∃ k ∈ w.key? bucketSize, i / b ≤ k.val

end Predicate

variable {column : Column} {id : IndexId} {s x : Binary64} {b : Nat} {v w : Value} {i j q : Int}

/-! ### Keys of fractions -/

namespace Value

section Whole

variable (hs : Key.IsWholeSize s b) (hx : x.isFinite) (hp : x.place? = some q)
  (hq : q.natAbs ≤ 2 ^ 53 * unitsPerOne) (hi : i.natAbs ≤ 2 ^ 64)

include hs hx hp hq hi

/-- Rounded up to a whole number, a number is keyed below the integers that it is not above. -/
theorem exists_key?_ceil_le (h : q ≤ i * unitsPerOne) :
    ∃ k ∈ (float x.ceil).key? s, k.val ≤ i / b := by
  have hceil := Binary64.place?_ceil hx hp
  refine exists_key?_le hs (isKeyedExactly_of_place? hceil ?_) hceil hi
    (ceil_le_of_dvd (Int.dvd_mul_left ..) h)
  have hj := Key.natAbs_ediv_unitsPerOne_le (p := -q) (by rwa [Int.natAbs_neg])
  rw [Int.natAbs_mul, Int.natAbs_neg, Int.natAbs_natCast]
  exact Nat.mul_le_mul_right _ hj

/-- Rounded down to a whole number, a number is keyed above the integers that it is not below. -/
theorem exists_le_key?_floor (h : i * unitsPerOne ≤ q) :
    ∃ k ∈ (float x.floor).key? s, i / b ≤ k.val := by
  have hfloor := Binary64.place?_floor hx hp
  refine exists_le_key? hs (isKeyedExactly_of_place? hfloor ?_) hfloor hi
    (le_floor_of_dvd (Int.dvd_mul_left ..) h)
  rw [Int.natAbs_mul, Int.natAbs_natCast]
  exact Nat.mul_le_mul_right _ (Key.natAbs_ediv_unitsPerOne_le hq)

end Whole

end Value

/-! ### Matching integers and ranges -/

namespace Predicate

variable {p : Predicate} {c : Comparison} {l : Value} {k m : Key}

theorem keeps_iff (hm : v.key? s = some m) :
    p.keeps column s v ↔ ∃ r, p.keyRange column = .ok r ∧ m ∈ r := by
  cases hr : p.keyRange column <;> simp [keeps, hr, hm, Except.toOption]

/-- What a predicate keeps, in terms of the comparison with a whole literal. -/
theorem keeps_iff_of_wholeComparison? (hcolumn : column.HasWholeIndex id s b)
    (hrange : p.comparison.isRange) (hvalue : p.value = .float x)
    (hwhole : wholeComparison? p.comparison p.value = some (c, l)) (hk : l.key? s = some k)
    (hm : v.key? s = some m) :
    p.keeps column s v ↔ ∃ r, column.rangeFrom s c k = .ok r ∧ m ∈ r := by
  have haccepts : column.type.accepts p.value := by
    rw [hvalue]
    exact DataType.accepts_of_number? hcolumn.isInteger rfl
  rw [keeps_iff hm, keyRange_eq hcolumn.index hcolumn.whole.1 hrange haccepts, keyComparison?,
    if_pos hcolumn.isInteger, hwhole]
  simp only [hk]

/-- The relation of a matching integer to the literal, as one of places. -/
theorem IsMatch.holds_compare (h : p.IsMatch column b v i) (hvalue : p.value = .float x)
    (hp : x.place? = some q) : p.comparison.holds (compare (i * unitsPerOne) q) := by
  obtain ⟨q', hq', hholds⟩ := h.relates
  rw [hvalue] at hq'
  obtain rfl := Option.mem_unique hq' hp
  exact hholds

/-- A range does not begin after a matching integer when it begins with an exact key. -/
theorem IsMatch.beginsBy (h : p.IsMatch column b v i) (hs : Key.IsWholeSize s b)
    (hexact : ∀ w ∈ p.lowerEnd? column, w.IsKeyedExactly b) : p.BeginsBy column s b i := by
  intro w hw
  have hplace : ∃ q ∈ w.exactPlace?, q ≤ i * unitsPerOne := by
    obtain ⟨q, hq, hrel⟩ := h.relates
    cases hc : p.comparison with
    | eq | ge =>
      obtain rfl : p.value = w := by simpa [lowerEnd?, hc] using hw
      refine ⟨q, hq, ?_⟩
      simp [hc, Comparison.holds, Int.compare_eq_lt] at hrel
      omega
    | le | lt =>
      obtain rfl : column.min = w := by simpa [lowerEnd?, hc] using hw
      exact h.lower
    | gt | neq => simp [lowerEnd?, hc] at hw
  obtain ⟨q, hq, hle⟩ := hplace
  exact Value.exists_key?_le hs (hexact w hw) hq (Value.natAbs_le_of_integer? h.integer) hle

/-- A range does not end before a matching integer when it ends with an exact key. -/
theorem IsMatch.endsFrom (h : p.IsMatch column b v i) (hs : Key.IsWholeSize s b)
    (hexact : ∀ w ∈ p.upperEnd? column, w.IsKeyedExactly b) : p.EndsFrom column s b i := by
  intro w hw
  have hplace : ∃ q ∈ w.exactPlace?, i * unitsPerOne ≤ q := by
    obtain ⟨q, hq, hrel⟩ := h.relates
    cases hc : p.comparison with
    | eq | le =>
      obtain rfl : p.value = w := by simpa [upperEnd?, hc] using hw
      refine ⟨q, hq, ?_⟩
      simp [hc, Comparison.holds, Int.compare_eq_gt] at hrel
      omega
    | ge | gt =>
      obtain rfl : column.max = w := by simpa [upperEnd?, hc] using hw
      exact h.upper
    | lt | neq => simp [upperEnd?, hc] at hw
  obtain ⟨q, hq, hle⟩ := hplace
  exact Value.exists_le_key? hs (hexact w hw) hq (Value.natAbs_le_of_integer? h.integer) hle

section Keeps

variable (hcolumn : column.HasWholeIndex id s b) (hrange : p.comparison.isRange)
  (hvalue : p.value = .float x) (hx : x.isFinite)

include hcolumn hrange hvalue hx

/-- The case of a literal without a fraction, which is keyed as it is. -/
theorem IsMatch.keeps_iff_of_whole (h : p.IsMatch column b v i) (hfrac : ¬ p.value.isFraction) :
    p.keeps column s v ↔ p.BeginsBy column s b i ∧ p.EndsFrom column s b i := by
  obtain ⟨q, hp, -⟩ := (Binary64.isFinite_iff_place? x).1 hx
  obtain ⟨m, hm, hmi⟩ := Value.exists_key?_of_integer? hcolumn.whole h.integer
  have hk : p.value.key? s = some (Key.atPlace (b * unitsPerOne) q) := by
    rw [hvalue, Value.key?_float_whole hcolumn.whole hx hp]
  rw [keeps_iff_of_wholeComparison? hcolumn hrange hvalue
    (wholeComparison?_of_not_isFraction hfrac) hk hm, Column.exists_mem_rangeFrom_iff]
  have hrel := h.holds_compare hvalue hp
  have hi := Value.natAbs_le_of_integer? h.integer
  have hrep := Binary64.representable_of_place? hx hp
  simp only [Key.le_iff, Key.lt_iff, hmi]
  cases hc : p.comparison with
  | neq => simp [hc, Comparison.isRange] at hrange
  | eq =>
    simp only [BeginsBy, EndsFrom, lowerEnd?, upperEnd?, hc, hk, Option.mem_def, Option.some.injEq,
      forall_eq', exists_eq_left', ← hmi]
    constructor
    · intro hmk
      simp [hmk]
    · rintro ⟨hkm, hmk⟩
      exact Key.ext (Int.le_antisymm hmk hkm)
  | ge => simp [BeginsBy, EndsFrom, lowerEnd?, upperEnd?, hc, hk]
  | le => simp [BeginsBy, EndsFrom, lowerEnd?, upperEnd?, hc, hk, and_comm]
  | gt =>
    have hkey : (Key.atPlace (b * unitsPerOne) q).val < i / b := by
      obtain rfl := (h.strict (Or.inl hc)).resolve_right hfrac
      have hlt : q < i * unitsPerOne := by
        simpa [hc, Comparison.holds, Int.compare_eq_gt] using hrel
      simpa using Key.atPlace_one_lt_of_lt hrep hi hlt
    simp [BeginsBy, EndsFrom, lowerEnd?, upperEnd?, hc, hkey]
  | lt =>
    have hkey : i / b < (Key.atPlace (b * unitsPerOne) q).val := by
      obtain rfl := (h.strict (Or.inr hc)).resolve_right hfrac
      have hlt : i * unitsPerOne < q := by
        simpa [hc, Comparison.holds, Int.compare_eq_lt] using hrel
      have hdvd : (unitsPerOne : Int) ∣ q := by
        rw [hvalue] at hfrac
        exact unitsPerOne_dvd_of_not_isFraction hfrac (Value.place?_eq_some_iff.2 ⟨x, rfl, hp⟩)
      simpa using Key.lt_atPlace_one_of_lt hrep hdvd hi hlt
    simp [BeginsBy, EndsFrom, lowerEnd?, upperEnd?, hc, hkey]

/-- The case of a literal with a fraction, which gives way to a whole one. -/
theorem IsMatch.keeps_iff_of_isFraction (h : p.IsMatch column b v i) (hfrac : p.value.isFraction) :
    p.keeps column s v ↔ p.BeginsBy column s b i ∧ p.EndsFrom column s b i := by
  rw [hvalue] at hfrac
  obtain ⟨q, -, hp, hndvd, hlt⟩ := exists_place_of_isFraction hfrac
  have hsmall : q.natAbs ≤ 2 ^ 53 * unitsPerOne := by omega
  have hcond : x.isFinite && !x.isWhole := hfrac
  have hexact : (Value.float x).IsKeyedExactly b := Value.isKeyedExactly_of_place? hp hsmall
  obtain ⟨m, hm, hmi⟩ := Value.exists_key?_of_integer? hcolumn.whole h.integer
  have hrel := h.holds_compare hvalue hp
  have hi := Value.natAbs_le_of_integer? h.integer
  cases hc : p.comparison with
  | neq => simp [hc, Comparison.isRange] at hrange
  | eq =>
    have heq : i * unitsPerOne = q := by simpa [hc, Comparison.holds] using hrel
    exact absurd ⟨i, by rw [← heq, Int.mul_comm]⟩ hndvd
  | ge | gt =>
    have hle : q ≤ i * unitsPerOne := by
      simp [hc, Comparison.holds, Int.compare_eq_lt, Int.compare_eq_gt] at hrel
      omega
    have hwhole : wholeComparison? p.comparison p.value = some (.ge, .float x.ceil) := by
      rw [hvalue, hc, wholeComparison?, if_pos hcond]
    obtain ⟨k, hk, hki⟩ := Value.exists_key?_ceil_le hcolumn.whole hx hp hsmall hi hle
    have hbegins : p.BeginsBy column s b i := by
      have hlower : ∀ w ∈ p.lowerEnd? column, w = .float x := by
        simp [lowerEnd?, hc, hvalue, eq_comm]
      exact h.beginsBy hcolumn.whole fun w hw => hlower w hw ▸ hexact
    rw [keeps_iff_of_wholeComparison? hcolumn hrange hvalue hwhole hk hm,
      Column.exists_mem_rangeFrom_iff, and_iff_right hbegins]
    simp [EndsFrom, upperEnd?, hc, Key.le_iff, hmi, hki]
  | le | lt =>
    have hle : i * unitsPerOne ≤ q := by
      simp [hc, Comparison.holds, Int.compare_eq_lt, Int.compare_eq_gt] at hrel
      omega
    have hwhole : wholeComparison? p.comparison p.value = some (.le, .float x.floor) := by
      rw [hvalue, hc, wholeComparison?, if_pos hcond]
    obtain ⟨k, hk, hik⟩ := Value.exists_le_key?_floor hcolumn.whole hx hp hsmall hi hle
    have hends : p.EndsFrom column s b i := by
      have hupper : ∀ w ∈ p.upperEnd? column, w = .float x := by
        simp [upperEnd?, hc, hvalue, eq_comm]
      exact h.endsFrom hcolumn.whole fun w hw => hupper w hw ▸ hexact
    rw [keeps_iff_of_wholeComparison? hcolumn hrange hvalue hwhole hk hm,
      Column.exists_mem_rangeFrom_iff, and_iff_left hends]
    simp [BeginsBy, lowerEnd?, hc, Key.le_iff, hmi, hik]

/-- **A range keeps a matching integer** exactly when its ends do not pass the integer's key. -/
theorem IsMatch.keeps_iff (h : p.IsMatch column b v i) :
    p.keeps column s v ↔ p.BeginsBy column s b i ∧ p.EndsFrom column s b i := by
  by_cases hfrac : p.value.isFraction
  · exact IsMatch.keeps_iff_of_isFraction hcolumn hrange hvalue hx h hfrac
  · exact IsMatch.keeps_iff_of_whole hcolumn hrange hvalue hx h hfrac

end Keeps

/-! ### The first and the last match -/

theorem BeginsBy.mono (h : p.BeginsBy column s b i) (hs : Key.IsWholeSize s b) (hij : i ≤ j) :
    p.BeginsBy column s b j := by
  intro w hw
  obtain ⟨k, hk, hki⟩ := h w hw
  exact ⟨k, hk, Int.le_trans hki (hs.ediv_le_ediv hij)⟩

theorem EndsFrom.mono (h : p.EndsFrom column s b i) (hs : Key.IsWholeSize s b) (hji : j ≤ i) :
    p.EndsFrom column s b j := by
  intro w hw
  obtain ⟨k, hk, hik⟩ := h w hw
  exact ⟨k, hk, Int.le_trans (hs.ediv_le_ediv hji) hik⟩

theorem natAbs_le_of_mem_matching (h : i ∈ p.matching column b) : i.natAbs ≤ 2 ^ 64 := by
  obtain ⟨v, hv⟩ := h
  exact Value.natAbs_le_of_integer? hv.integer

/-- Matching integers have a first one. -/
theorem exists_isLeast_matching (h : i ∈ p.matching column b) :
    ∃ first ≤ i, IsLeast (p.matching column b) first := by
  have hbound : ∃ low, ∀ j, j ∈ p.matching column b → low ≤ j :=
    ⟨-2 ^ 64, fun j hj => by have := natAbs_le_of_mem_matching hj; omega⟩
  obtain ⟨first, hmem, hleast⟩ := Int.exists_least_of_bdd hbound ⟨i, h⟩
  exact ⟨first, hleast i h, hmem, fun j hj => hleast j hj⟩

/-- Matching integers have a last one. -/
theorem exists_isGreatest_matching (h : i ∈ p.matching column b) :
    ∃ last, i ≤ last ∧ IsGreatest (p.matching column b) last := by
  have hbound : ∃ high, ∀ j, j ∈ p.matching column b → j ≤ high :=
    ⟨2 ^ 64, fun j hj => by have := natAbs_le_of_mem_matching hj; omega⟩
  obtain ⟨last, hmem, hgreatest⟩ := Int.exists_greatest_of_bdd hbound ⟨i, h⟩
  exact ⟨last, hgreatest i h, hmem, fun j hj => hgreatest j hj⟩

/-- **A range keeps all matching integers** exactly when it does not begin after the first of them and
does not end before the last. So it is when the keys of its ends are exact. -/
theorem keeps_matching_iff (hcolumn : column.HasWholeIndex id s b) (hrange : p.comparison.isRange)
    (hvalue : p.value = .float x) (hx : x.isFinite) :
    ((∀ v i, p.IsMatch column b v i → p.keeps column s v) ↔
      (∀ first, IsLeast (p.matching column b) first → p.BeginsBy column s b first) ∧
      ∀ last, IsGreatest (p.matching column b) last → p.EndsFrom column s b last) ∧
    ((∀ w, w ∈ p.lowerEnd? column ∨ w ∈ p.upperEnd? column → w.IsKeyedExactly b) →
      ∀ v i, p.IsMatch column b v i → p.keeps column s v) := by
  have hkeeps : ∀ {v i}, p.IsMatch column b v i →
      (p.keeps column s v ↔ p.BeginsBy column s b i ∧ p.EndsFrom column s b i) :=
    fun h => h.keeps_iff hcolumn hrange hvalue hx
  refine ⟨⟨fun hall => ⟨?_, ?_⟩, fun ⟨hfirst, hlast⟩ v i h => ?_⟩, fun hexact v i h => ?_⟩
  · rintro first ⟨⟨v, h⟩, -⟩
    exact ((hkeeps h).1 (hall v first h)).1
  · rintro last ⟨⟨v, h⟩, -⟩
    exact ((hkeeps h).1 (hall v last h)).2
  · obtain ⟨first, hle, hleast⟩ := exists_isLeast_matching ⟨v, h⟩
    obtain ⟨last, hle', hgreatest⟩ := exists_isGreatest_matching ⟨v, h⟩
    exact (hkeeps h).2 ⟨(hfirst first hleast).mono hcolumn.whole hle,
      (hlast last hgreatest).mono hcolumn.whole hle'⟩
  · exact (hkeeps h).2 ⟨h.beginsBy hcolumn.whole fun w hw => hexact w (Or.inl hw),
      h.endsFrom hcolumn.whole fun w hw => hexact w (Or.inr hw)⟩

/-- Time stamps from 34.5, in buckets of ten: the literal and the ends of the domain are exact. -/
theorem keeps_matching_iff_tens :
    let column : Column :=
      { position := 0, offset := 0, name := "TIMESTAMP", type := .ulong,
        min := DataType.ulong.least, max := DataType.ulong.greatest,
        index := some ⟨⟨0⟩, .ofNat 10⟩ }
    let x : Binary64 := .ofQuotient false 69 2
    let p : Predicate := ⟨0, .ge, .float x⟩
    column.HasWholeIndex ⟨0⟩ (.ofNat 10) 10 ∧ p.comparison.isRange ∧ p.value = .float x ∧
      x.isFinite ∧
      (∀ w, w ∈ p.lowerEnd? column ∨ w ∈ p.upperEnd? column → w.IsKeyedExactly 10) ∧
      p.IsMatch column 10 (.uint 35) 35 ∧ p.keeps column (.ofNat 10) (.uint 35) ∧
      (∀ first, IsLeast (p.matching column 10) first → p.BeginsBy column (.ofNat 10) 10 first) ∧
      ∀ last, IsGreatest (p.matching column 10) last → p.EndsFrom column (.ofNat 10) 10 last := by
  intro column x p
  have hcolumn : column.HasWholeIndex ⟨0⟩ (.ofNat 10) 10 := ⟨rfl, rfl, by decide +kernel⟩
  have hx : x.isFinite := by decide +kernel
  have hexact : ∀ w, w ∈ p.lowerEnd? column ∨ w ∈ p.upperEnd? column → w.IsKeyedExactly 10 := by
    have hlower : (Value.float x).IsKeyedExactly 10 := by decide +kernel
    rintro w (hw | hw)
    · obtain rfl := Option.some.inj hw
      exact hlower
    · obtain rfl := Option.some.inj hw
      trivial
  have hmatch : p.IsMatch column 10 (.uint 35) 35 :=
    ⟨rfl, by decide +kernel, by decide +kernel, by decide +kernel, by decide⟩
  obtain ⟨hiff, hall⟩ := keeps_matching_iff (p := p) hcolumn rfl rfl hx
  have hkeeps := hall hexact
  exact ⟨hcolumn, rfl, rfl, hx, hexact, hmatch, hkeeps _ _ hmatch, hiff.1 hkeeps⟩

/-- In buckets of three a number of 54 bits is divided with rounding: the range of the comparison for
equality holds the next key only, and the equal integer is lost. -/
theorem exists_not_keeps :
    let column : Column :=
      { position := 0, offset := 0, name := "TIMESTAMP", type := .ulong,
        min := DataType.ulong.least, max := DataType.ulong.greatest,
        index := some ⟨⟨0⟩, .ofNat 3⟩ }
    let p : Predicate := ⟨0, .eq, .float (.ofNat 13510798882111490)⟩
    column.HasWholeIndex ⟨0⟩ (.ofNat 3) 3 ∧
      p.IsMatch column 3 (.uint 13510798882111490) 13510798882111490 ∧
      (Value.uint 13510798882111490).key? (.ofNat 3) = some (.clamp 4503599627370496) ∧
      (p.keyRange column).toOption = some (.point (.clamp 4503599627370497)) ∧
      ¬ p.keeps column (.ofNat 3) (.uint 13510798882111490) := by
  intro column p
  refine ⟨⟨rfl, rfl, by decide +kernel⟩, ⟨rfl, ?_, ?_, ?_, ?_⟩, ?_, ?_, ?_⟩
  · decide +kernel
  · decide +kernel
  · decide +kernel
  · decide
  · decide +kernel
  · decide +kernel
  · decide +kernel

end Predicate

end BucketPlanner
