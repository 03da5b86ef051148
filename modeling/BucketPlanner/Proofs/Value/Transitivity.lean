import BucketPlanner.Proofs.Value.Order

/-!
# Comparisons that follow from each other

Numbers are compared by their places, integers at one place by themselves (`Value.compare?_of_places`).
So comparing the other way round reverses the order, and comparisons with a value in between carry
over, unless that value or one of the others is a floating-point number that two different integers are
rounded to (`Value.compare?_swap_and_trans_iff`).
-/

namespace BucketPlanner

/-- Comparisons with a value in between carry over, and are strict if one of the two is. -/
theorem isLE_and_lt_of_between {α : Type} [Ord α] [Std.TransOrd α] {x y z : α}
    (hxy : (compare x y).isLE) (hyz : (compare y z).isLE) :
    (compare x z).isLE ∧ (compare x y = .lt ∨ compare y z = .lt → compare x z = .lt) := by
  refine ⟨Std.TransCmp.isLE_trans hxy hyz, ?_⟩
  rintro (hlt | hlt)
  · exact Std.TransCmp.lt_of_lt_of_isLE hlt hyz
  · exact Std.TransCmp.lt_of_isLE_of_lt hxy hlt

namespace Value

/-- Two different integers that are compared as equal with a value, a floating-point number that both
are rounded to. -/
def Blurs (x a b : Value) : Prop :=
  ∃ i ∈ a.integer?, ∃ j ∈ b.integer?, i ≠ j ∧ a.compare? x = some .eq ∧ b.compare? x = some .eq

instance (x a b : Value) : Decidable (x.Blurs a b) := by
  unfold Blurs
  infer_instance

/-- The order of integers. Other numbers have no order but that of their places. -/
def orderAtPlace (a b : Value) : Ordering :=
  match a.integer?, b.integer? with
  | some i, some j => compare i j
  | _, _ => .eq

variable {a b c x : Value} {p q r : Int}

/-! ### Numbers -/

theorem place?_of_integer? {i : Int} (h : a.integer? = some i) :
    a.place? = some (roundedPlace (i * unitsPerOne) 1) := by
  rw [place?_eq_some_iff, ← Binary64.place?_ofInt]
  cases a with
  | int n => exact ⟨_, rfl, by rw [← Option.some.inj h]⟩
  | uint n => exact ⟨_, rfl, by rw [← Option.some.inj h, Binary64.ofNat_eq_ofInt]⟩
  | bool | float | text => simp [integer?] at h

/-- **Numbers are compared by their places**, and integers at one place by themselves. -/
theorem compare?_of_places (ha : a.place? = some p) (hb : b.place? = some q) :
    a.compare? b = some ((compare p q).then (orderAtPlace a b)) := by
  cases hia : a.integer? with
  | none => simp [compare?_of_place? (Or.inl hia) ha hb, orderAtPlace, hia]
  | some i =>
    cases hib : b.integer? with
    | none => simp [compare?_of_place? (Or.inr hib) ha hb, orderAtPlace, hia, hib]
    | some j =>
      rw [place?_of_integer? hia, Option.some.injEq] at ha
      rw [place?_of_integer? hib, Option.some.injEq] at hb
      have horder : orderAtPlace a b = compare i j := by simp only [orderAtPlace, hia, hib]
      -- Rounding keeps the order, so that places never contradict the integers.
      have hround : ∀ {i j : Int}, i < j →
          roundedPlace (i * unitsPerOne) 1 ≤ roundedPlace (j * unitsPerOne) 1 := fun h =>
        roundedPlace_mono (Int.mul_le_mul_of_nonneg_right (Int.le_of_lt h) (by omega)) Nat.one_pos
      rw [compare?_of_integer? hia hib, horder, ← ha, ← hb, Option.some.injEq]
      rcases Int.lt_trichotomy i j with h | rfl | h
      · rw [Int.compare_eq_lt.2 h]
        rcases Int.lt_or_eq_of_le (hround h) with hlt | heq
        · rw [Int.compare_eq_lt.2 hlt, Ordering.lt_then]
        · rw [heq, Std.compare_self, Ordering.eq_then]
      · rw [Std.compare_self, Std.compare_self, Ordering.eq_then]
      · rw [Int.compare_eq_gt.2 h]
        rcases Int.lt_or_eq_of_le (hround h) with hlt | heq
        · rw [Int.compare_eq_gt.2 hlt, Ordering.gt_then]
        · rw [heq, Std.compare_self, Ordering.eq_then]

theorem compare?_of_same_place (ha : a.place? = some p) (hb : b.place? = some p) :
    a.compare? b = some (orderAtPlace a b) := by
  rw [compare?_of_places ha hb, Std.compare_self, Ordering.eq_then]

theorem place_le_of_isAtMost (ha : a.place? = some p) (hb : b.place? = some q)
    (h : a.isAtMost b) : p ≤ q := by
  obtain ⟨o, ho, hle⟩ := isAtMost_iff.1 h
  rw [compare?_of_places ha hb, Option.some.injEq] at ho
  by_contra hlt
  rw [← ho, Int.compare_eq_gt.2 (by omega), Ordering.gt_then] at hle
  simp at hle

theorem compare?_eq_lt_of_place_lt (ha : a.place? = some p) (hb : b.place? = some q) (h : p < q) :
    a.compare? b = some .lt := by
  rw [compare?_of_places ha hb, Int.compare_eq_lt.2 h, Ordering.lt_then]

theorem place_eq_of_compare?_eq (ha : a.place? = some p) (hb : b.place? = some q)
    (h : a.compare? b = some .eq) : p = q := by
  rw [compare?_of_places ha hb, Option.some.injEq, Ordering.then_eq_eq] at h
  exact Int.compare_eq_eq.1 h.1

/-- Comparisons of numbers at one place carry over, unless two integers are compared as equal with a
number that is none. -/
theorem trans_iff_of_same_place (ha : a.place? = some p) (hb : b.place? = some p)
    (hc : c.place? = some p) (hab : a.isAtMost b) (hbc : b.isAtMost c) :
    (a.isAtMost c ∧ (a.compare? b = some .lt ∨ b.compare? c = some .lt → a.compare? c = some .lt)) ↔
      ¬ (c.Blurs a b ∨ a.Blurs b c ∨ b.Blurs a c ∧ c.compare? a = some .lt) := by
  simp only [isAtMost, Blurs, compare?_of_same_place ha hb, compare?_of_same_place hb ha,
    compare?_of_same_place hb hc, compare?_of_same_place hc hb, compare?_of_same_place ha hc,
    compare?_of_same_place hc ha] at hab hbc ⊢
  -- With one integer or none, all comparisons are between equal places.
  rcases hia : a.integer? with _ | i <;> rcases hib : b.integer? with _ | j <;>
    rcases hic : c.integer? with _ | k <;>
    simp [orderAtPlace, hia, hib, hic, Std.isLE_compare, Int.compare_eq_lt] at hab hbc ⊢
  case none.some.some => omega
  case some.none.some => omega
  case some.some.none => omega
  case some.some.some => omega

/-- A number that blurs two integers is at the place of both. -/
theorem Blurs.places_eq (h : x.Blurs a b) (hx : x.place? = some r) (ha : a.place? = some p)
    (hb : b.place? = some q) : p = r ∧ q = r := by
  obtain ⟨-, -, -, -, -, hax, hbx⟩ := h
  exact ⟨place_eq_of_compare?_eq ha hx hax, place_eq_of_compare?_eq hb hx hbx⟩

theorem trans_iff_of_places (ha : a.place? = some p) (hb : b.place? = some q)
    (hc : c.place? = some r) (hab : a.isAtMost b) (hbc : b.isAtMost c) :
    (a.isAtMost c ∧ (a.compare? b = some .lt ∨ b.compare? c = some .lt → a.compare? c = some .lt)) ↔
      ¬ (c.Blurs a b ∨ a.Blurs b c ∨ b.Blurs a c ∧ c.compare? a = some .lt) := by
  have hpq := place_le_of_isAtMost ha hb hab
  have hqr := place_le_of_isAtMost hb hc hbc
  by_cases hpr : p < r
  · have hlt := compare?_eq_lt_of_place_lt ha hc hpr
    refine iff_of_true ⟨isAtMost_iff.2 ⟨_, hlt, rfl⟩, fun _ => hlt⟩ ?_
    rintro (h | h | ⟨h, -⟩)
    · have := h.places_eq hc ha hb
      omega
    · have := h.places_eq ha hb hc
      omega
    · have := h.places_eq hb ha hc
      omega
  · obtain rfl : p = q := by omega
    obtain rfl : p = r := by omega
    exact trans_iff_of_same_place ha hb hc hab hbc

/-! ### Values of all kinds -/

theorem compare?_eq_map_swap (a b : Value) : b.compare? a = (a.compare? b).map Ordering.swap := by
  cases h : a.compare? b with
  | some o => exact compare?_swap h
  | none =>
    cases h' : b.compare? a with
    | none => rfl
    | some o => simp [compare?_swap h'] at h

/-- Values that are compared are booleans, texts or numbers. -/
theorem kinds_of_compare? {o : Ordering} (h : a.compare? b = some o) :
    (∃ x y, a = bool x ∧ b = bool y) ∨ (∃ x y, a = text x ∧ b = text y) ∨
      ∃ p q, a.place? = some p ∧ b.place? = some q := by
  rcases compare?_eq_some_iff.1 h with ⟨x, y⟩ | ⟨x, y⟩ | ⟨ha, hb⟩ | ⟨-, ha, hb⟩
  · exact Or.inl ⟨x, y, rfl, rfl⟩
  · exact Or.inr (Or.inl ⟨x, y, rfl, rfl⟩)
  · exact Or.inr (Or.inr ⟨_, _, place?_of_integer? ha, place?_of_integer? hb⟩)
  · exact Or.inr (Or.inr ⟨_, _, ha, hb⟩)

/-- **The order of values.** Comparing two values the other way round reverses their order, or there is
none either way. If a value is not above a second one, and this not above a third, then the first is not
above the third, and is below it if one of the comparisons is strict, exactly unless the first or the
last value blurs the other two, or the one in between blurs two integers that are in the wrong order. -/
theorem compare?_swap_and_trans_iff (a b c : Value) :
    b.compare? a = (a.compare? b).map Ordering.swap ∧
    (a.isAtMost b → b.isAtMost c →
      (a.isAtMost c ∧
          (a.compare? b = some .lt ∨ b.compare? c = some .lt → a.compare? c = some .lt) ↔
        ¬ (c.Blurs a b ∨ a.Blurs b c ∨ b.Blurs a c ∧ c.compare? a = some .lt))) := by
  refine ⟨compare?_eq_map_swap a b, fun hab hbc => ?_⟩
  obtain ⟨o, ho, hle⟩ := isAtMost_iff.1 hab
  obtain ⟨o', ho', hle'⟩ := isAtMost_iff.1 hbc
  rcases kinds_of_compare? ho with ⟨x, y, rfl, rfl⟩ | ⟨x, y, rfl, rfl⟩ | ⟨p, q, ha, hb⟩
  · obtain ⟨z, rfl⟩ : ∃ z, c = bool z := by
      cases c <;> simp [compare?, integer?, number?] at ho' ⊢
    rw [compare?, Option.some.injEq] at ho ho'
    subst ho ho'
    simpa [isAtMost, compare?, Blurs, integer?] using isLE_and_lt_of_between hle hle'
  · obtain ⟨z, rfl⟩ : ∃ z, c = text z := by
      cases c <;> simp [compare?, integer?, number?] at ho' ⊢
    rw [compare?, Option.some.injEq] at ho ho'
    subst ho ho'
    simpa [isAtMost, compare?, Blurs, integer?] using isLE_and_lt_of_between hle hle'
  · rcases kinds_of_compare? ho' with ⟨y, z, rfl, -⟩ | ⟨y, z, rfl, -⟩ | ⟨q', r, hb', hc⟩
    · simp [place?, number?] at hb
    · simp [place?, number?] at hb
    · obtain rfl := Option.mem_unique hb hb'
      exact trans_iff_of_places ha hb hc hab hbc

/-- Two integers that are rounded to the same place below the floating-point number. -/
theorem compare?_swap_and_trans_iff_rounded :
    let a := int 9007199254740992
    let b := uint 9007199254740993
    let c := float (.ofNat 9007199254740994)
    a.isAtMost b ∧ b.isAtMost c ∧ a.compare? b = some .lt ∧ a.isAtMost c ∧ a.compare? c = some .lt ∧
      c.compare? a = some .gt := by
  intro a b c
  have hab : a.compare? b = some .lt := by decide +kernel
  have hbc : b.isAtMost c := by decide +kernel
  have hno : ¬ (c.Blurs a b ∨ a.Blurs b c ∨ b.Blurs a c ∧ c.compare? a = some .lt) := by
    decide +kernel
  have habLE : a.isAtMost b := isAtMost_iff.2 ⟨_, hab, rfl⟩
  obtain ⟨hac, hlt⟩ := ((compare?_swap_and_trans_iff a b c).2 habLE hbc).2 hno
  refine ⟨habLE, hbc, hab, hac, hlt (Or.inl hab), ?_⟩
  rw [(compare?_swap_and_trans_iff a c c).1, hlt (Or.inl hab)]
  rfl

/-- Comparisons that do not carry over: an integer is equal to a floating-point number, which is equal to
the integer below; and a smaller integer is equal to the number that the greater one is equal to. -/
theorem not_trans_of_rounded :
    let low := int 9007199254740992
    let high := int 9007199254740993
    let x := float (.ofNat 9007199254740992)
    (high.compare? x = some .eq ∧ x.compare? low = some .eq ∧ ¬ high.isAtMost low) ∧
      low.compare? high = some .lt ∧ high.compare? x = some .eq ∧ low.compare? x = some .eq := by
  decide +kernel

end Value

end BucketPlanner
