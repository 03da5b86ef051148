import BucketPlanner.Value.DataType
import BucketPlanner.Proofs.Plan.WholeComparison

/-!
# Values of data types

A JSON value stands for a literal of a type when it denotes a value of the type
(`DataType.valueOfJson?_eq_some_iff`). So a literal of a type is read in one form
(`DataType.admits_valueOfJson?`), in which the ends of the type's domain are as well. Values of one type
are compared without rounding and have keys (`DataType.isClearOf`, `DataType.exists_key`), and a literal
of a type other than the floating-point one of 32 bits lies in the type's domain
(`DataType.covers_of_valueOfJson?`).
-/

namespace BucketPlanner

namespace JsonNumber

/-- JSON numbers have finite binary64 numbers. -/
theorem isFinite_toBinary64 (n : JsonNumber) : n.toBinary64.isFinite := by
  cases n with
  | natural n =>
    have := n.toNat_lt
    rw [toBinary64, Binary64.ofNat_eq_ofInt]
    exact Key.isFinite_ofInt (by omega)
  | negative i =>
    have := i.le_toInt
    have := i.toInt_lt
    exact Key.isFinite_ofInt (by omega)
  | real x h => exact h

end JsonNumber

/-- A JSON value denotes a value: a number does so as an integer with sign, as one without, and as the
nearest floating-point number. -/
def Json.Denotes : Json → Value → Prop
  | .bool b, .bool b' => b' = b
  | .number n, .int i => n.toInt64? = some i
  | .number n, .uint m => n.toUInt64? = some m
  | .number n, .float x => x = n.toBinary64
  | .text s, .text s' => s' = s
  | _, _ => False

namespace DataType

/-- The values of a type: integers in its range, finite numbers, texts that fit its width. -/
def IsValue : DataType → Value → Prop
  | bool, .bool _ => True
  | char, .int i => -2 ^ 7 ≤ i.toInt ∧ i.toInt < 2 ^ 7
  | short, .int i => -2 ^ 15 ≤ i.toInt ∧ i.toInt < 2 ^ 15
  | int, .int i => -2 ^ 31 ≤ i.toInt ∧ i.toInt < 2 ^ 31
  | long, .int _ => True
  | ulong, .uint _ => True
  | float, .float x | double, .float x => x.isFinite
  | string size, .text s => s.utf8ByteSize ≤ size.toNat
  | _, _ => False

/-- The values in whose form literals of the type are read. -/
def admits : DataType → Value → Bool
  | bool, .bool _ => true
  | char, .int _ | short, .int _ | int, .int _ | long, .int _ => true
  | ulong, .uint _ => true
  | float, .float x | double, .float x => x.isFinite
  | string _, .text _ => true
  | _, _ => false

variable {t : DataType} {json : Json} {v w : Value} {s : Binary64} {low high i : Int64}

/-! ### Literals -/

/-- The values of a signed type are the integers between its ends. -/
theorem isValue_int_iff (hlow : t.least = .int low) (hhigh : t.greatest = .int high) :
    t.IsValue (.int i) ↔ low ≤ i ∧ i ≤ high := by
  cases t with
  | char | short | int =>
    rw [least, Value.int.injEq] at hlow
    rw [greatest, Value.int.injEq] at hhigh
    subst hlow hhigh
    simp only [IsValue, Int64.le_iff_toInt_le, Int64.reduceToInt]
    omega
  | long =>
    rw [least, Value.int.injEq] at hlow
    rw [greatest, Value.int.injEq] at hhigh
    subst hlow hhigh
    exact iff_of_true trivial ⟨Int64.minValue_le i, Int64.le_maxValue i⟩
  | _ => simp [least] at hlow

theorem valueOfJson?_number (hlow : t.least = .int low) (hhigh : t.greatest = .int high)
    (n : JsonNumber) :
    t.valueOfJson? (.number n) =
      n.toInt64?.bind fun i => if low ≤ i ∧ i ≤ high then some (.int i) else none := by
  cases t with
  | char | short | int | long =>
    simp only [valueOfJson?]
    rw [hlow, hhigh]
    cases n.toInt64? <;> rfl
  | _ => simp [least] at hlow

/-- A signed type takes the integers that are denoted, between its ends. -/
theorem valueOfJson?_eq_some_iff_of_signed (hlow : t.least = .int low)
    (hhigh : t.greatest = .int high) :
    t.valueOfJson? json = some v ↔ json.Denotes v ∧ t.IsValue v := by
  cases json with
  | number n =>
    simp only [valueOfJson?_number hlow hhigh, Option.bind_eq_some_iff, Option.ite_none_right_eq_some,
      Option.some.injEq]
    constructor
    · rintro ⟨i, hi, hrange, rfl⟩
      exact ⟨hi, (isValue_int_iff hlow hhigh).2 hrange⟩
    · rintro ⟨hdenotes, hvalue⟩
      cases v with
      | int i => exact ⟨i, hdenotes, (isValue_int_iff hlow hhigh).1 hvalue, rfl⟩
      | _ => cases t <;> simp_all [IsValue, least]
  | _ => cases t <;> cases v <;> simp_all [valueOfJson?, Json.Denotes, IsValue, least]

/-- **A literal of a type** is a value of the type that the JSON value denotes. -/
theorem valueOfJson?_eq_some_iff : t.valueOfJson? json = some v ↔ json.Denotes v ∧ t.IsValue v := by
  cases t with
  | char | short | int | long => exact valueOfJson?_eq_some_iff_of_signed rfl rfl
  | bool => cases json <;> cases v <;> simp [valueOfJson?, Json.Denotes, IsValue, least, eq_comm]
  | ulong => cases json <;> cases v <;> simp [valueOfJson?, Json.Denotes, IsValue]
  | float | double =>
    cases json with
    | number n =>
      cases v with
      | float x =>
        rw [valueOfJson?, Option.some.injEq, Value.float.injEq, eq_comm]
        exact ⟨fun h => ⟨h, h ▸ n.isFinite_toBinary64⟩, And.left⟩
      | _ => simp [valueOfJson?, Json.Denotes, IsValue]
    | _ => cases v <;> simp [valueOfJson?, Json.Denotes, IsValue]
  | string size =>
    cases json with
    | text s =>
      cases v with
      | text s' =>
        rw [valueOfJson?, Option.ite_none_right_eq_some, Option.some.injEq, Value.text.injEq]
        constructor
        · rintro ⟨hsize, rfl⟩
          exact ⟨rfl, hsize⟩
        · rintro ⟨rfl, hsize⟩
          exact ⟨hsize, rfl⟩
      | _ => simp [valueOfJson?, Json.Denotes, IsValue]
    | _ => cases v <;> simp [valueOfJson?, Json.Denotes, IsValue, least]

theorem admits_of_isValue (h : t.IsValue v) : t.admits v := by
  cases t <;> cases v <;> simp_all [IsValue, admits]

theorem admits_valueOfJson? (h : t.valueOfJson? json = some v) : t.admits v :=
  admits_of_isValue (valueOfJson?_eq_some_iff.1 h).2

theorem accepts_of_admits (h : t.admits v) : t.accepts v := by
  cases t <;> cases v <;> simp_all [admits, accepts, isNumeric]

theorem integer?_of_admits (ht : t.isInteger) (h : t.admits v) : ∃ i, v.integer? = some i := by
  cases t <;> cases v <;> simp_all [admits, isInteger, Value.integer?]

theorem integer?_eq_none_of_admits (ht : ¬ t.isInteger) (h : t.admits v) : v.integer? = none := by
  cases t <;> cases v <;> simp_all [admits, isInteger, Value.integer?]

theorem not_isFraction_of_admits (ht : t.isInteger) (h : t.admits v) : ¬ v.isFraction := by
  obtain ⟨i, hi⟩ := integer?_of_admits ht h
  exact Value.not_isFraction_of_integer? hi

/-- **Values of one type** are compared without rounding. -/
theorem isClearOf (hv : t.admits v) (hw : t.admits w) : v.IsClearOf w := by
  unfold Value.IsClearOf
  by_cases ht : t.isInteger
  · obtain ⟨i, hi⟩ := integer?_of_admits ht hv
    obtain ⟨j, hj⟩ := integer?_of_admits ht hw
    simp [hi, hj]
  · simp [integer?_eq_none_of_admits ht hv, integer?_eq_none_of_admits ht hw]

/-- A value that a type with keys accepts has a key, unless it is an infinity or not a number. -/
theorem exists_key_of_accepts (ht : t.isIndexable) (h : t.accepts v)
    (hfinite : ∀ x, v = .float x → x.isFinite) (hs : Key.isBucketSize s) :
    ∃ k, v.key? s = some k := by
  cases v with
  | bool b => exact ⟨_, Value.key?_bool b hs⟩
  | int i => exact ⟨_, Value.key?_of_integer? rfl hs⟩
  | uint n => exact ⟨_, Value.key?_of_integer? rfl hs⟩
  | float x => exact ⟨_, by rw [Value.key?_float hs, if_pos (hfinite x rfl)]⟩
  | text _ => cases t <;> simp_all [accepts, isIndexable]

theorem exists_key (ht : t.isIndexable) (h : t.admits v) (hs : Key.isBucketSize s) :
    ∃ k, v.key? s = some k := by
  refine exists_key_of_accepts ht (accepts_of_admits h) ?_ hs
  rintro x rfl
  cases t <;> simp_all [admits]

theorem admits_least (t : DataType) : t.admits t.least := by
  cases t with
  | float | double => decide +kernel
  | _ => rfl

theorem admits_greatest (t : DataType) : t.admits t.greatest := by
  cases t with
  | float | double => decide +kernel
  | _ => rfl

/-! ### Domains -/

/-- A literal of an integer type with signs lies in the domain. -/
theorem exists_int_of_valueOfJson? (hlow : t.least = .int low) (hhigh : t.greatest = .int high)
    (h : t.valueOfJson? json = some v) : ∃ i, v = .int i ∧ low ≤ i ∧ i ≤ high := by
  have hvalue := (valueOfJson?_eq_some_iff.1 h).2
  cases v with
  | int i => exact ⟨i, rfl, (isValue_int_iff hlow hhigh).1 hvalue⟩
  | _ => cases t <;> simp_all [IsValue, least]

/-- The value lies in the domain of the type. -/
def Covers (t : DataType) (v : Value) : Prop := t.least.isAtMost v ∧ v.isAtMost t.greatest

instance (t : DataType) (v : Value) : Decidable (t.Covers v) := inferInstanceAs (Decidable (_ ∧ _))

theorem covers_of_signed (hlow : t.least = .int low) (hhigh : t.greatest = .int high)
    (h : t.valueOfJson? json = some v) : t.Covers v := by
  obtain ⟨i, rfl, hle, hle'⟩ := exists_int_of_valueOfJson? hlow hhigh h
  rw [Covers, hlow, hhigh]
  exact ⟨Value.isAtMost_of_integer? rfl rfl (Int64.le_iff_toInt_le.1 hle),
    Value.isAtMost_of_integer? rfl rfl (Int64.le_iff_toInt_le.1 hle')⟩

theorem covers_uint (n : UInt64) : ulong.Covers (.uint n) := by
  have hlt := n.toNat_lt
  refine ⟨Value.isAtMost_of_integer? (i := 0) rfl rfl (by omega), ?_⟩
  refine Value.isAtMost_of_integer? (j := 18446744073709551615) rfl rfl ?_
  omega

theorem covers_double {x : Binary64} (hx : x.isFinite) : double.Covers (.float x) := by
  cases x with
  | nan => simp [Binary64.isFinite] at hx
  | infinite negative => simp [Binary64.isFinite] at hx
  | finite negative n hn =>
    obtain ⟨g, hgreatest, hle⟩ := Binary64.exists_place?_greatest
    have := hle n hn
    have hplace : (Value.float (.finite negative n hn)).place? = some (signed negative n) :=
      Value.place?_eq_some_iff.2 ⟨_, rfl, Binary64.place?_finite ..⟩
    refine ⟨Value.isAtMost_of_place? (p := -g) (Or.inl rfl)
        (Value.place?_eq_some_iff.2 ⟨_, rfl, Binary64.place?_neg hgreatest⟩) hplace ?_,
      Value.isAtMost_of_place? (q := g) (Or.inl rfl) hplace
        (Value.place?_eq_some_iff.2 ⟨_, rfl, hgreatest⟩) ?_⟩ <;>
      cases negative <;> simp [signed] <;> omega

/-- **A literal lies in the domain of its type**, unless this is the floating-point type of 32 bits,
whose literals are read in 64 bits. -/
theorem covers_of_valueOfJson? (ht : t.isIndexable) (hfloat : t ≠ .float)
    (h : t.valueOfJson? json = some v) : t.Covers v := by
  have hadmits := admits_valueOfJson? h
  cases t with
  | bool =>
    cases v with
    | bool b => cases b <;> decide
    | _ => simp [admits] at hadmits
  | char | short | int | long => exact covers_of_signed rfl rfl h
  | ulong =>
    cases v with
    | uint n => exact covers_uint n
    | _ => simp [admits] at hadmits
  | float => exact absurd rfl hfloat
  | double =>
    cases v with
    | float x => exact covers_double hadmits
    | _ => simp [admits] at hadmits
  | string => simp [isIndexable] at ht

end DataType

end BucketPlanner
