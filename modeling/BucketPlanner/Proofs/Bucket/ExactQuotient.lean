import BucketPlanner.Proofs.Bucket.WholeSize

/-!
# Keys of integers as exact quotients

Buckets whose size is a whole number up to 2⁶⁴ divide the integers of 64 bits among them, below zero
as well as above:

* `Key.IsExactQuotient`: a key is the floor of an exact quotient, and no integer on the way to it
  leaves the 128 bits of keys;
* `Key.exists_isExactQuotient`: there is such a key for every integer of 64 bits;
* `Value.key?_isExactQuotient`: it is the key of the value, so that keys keep the order of integers
  with and without sign.
-/

namespace BucketPlanner

open Binary64

namespace Key

variable {s : Binary64} {b : Nat} {i : Int}

/-- A key is the number of the bucket that holds an integer, in buckets of a whole size. The integer,
the size and the quotient are integers of 128 bits, and so are the neighbours of the quotient. -/
structure IsExactQuotient (k : Key) (i : Int) (s : Binary64) (b : Nat) : Prop where
  /-- The bucket of the integer begins at the key's multiple of the size, and no other does so. -/
  holds_iff : ∀ q : Int, q * b ≤ i ∧ i < (q + 1) * b ↔ q = k.val
  isSome_integer : (ofInt? i).isSome
  size_eq : s.toIntWithin least.val greatest.val = b
  quotient_eq : ofInt? (i / b) = some k
  isSome_next : k.next?.isSome
  isSome_prev : k.prev?.isSome

theorem ofInt?_val (k : Key) : ofInt? k.val = some k := dif_pos ⟨k.lower, k.upper⟩

theorem isSome_ofInt?_iff : (ofInt? i).isSome ↔ -2 ^ 127 ≤ i ∧ i < 2 ^ 127 := by
  unfold ofInt?
  split
  next h => exact iff_of_true rfl h
  next h => exact iff_of_false Bool.false_ne_true h

/-- Whole sizes up to 2⁶⁴ divide integers exactly. -/
theorem IsWholeSize.dividesExactly (hs : IsWholeSize s b) (hb : b ≤ 2 ^ 64) :
    dividesExactly s := by
  obtain ⟨h, rfl, -⟩ := hs.exists_units
  by_contra hdiv
  exact absurd (lt_of_not_dividesExactly hdiv) (Nat.not_lt.2 hb)

/-- Whole sizes up to 2⁶⁴ are integers of 128 bits. -/
theorem IsWholeSize.toIntWithin_eq (hs : IsWholeSize s b) (hb : b ≤ 2 ^ 64) :
    s.toIntWithin least.val greatest.val = b := by
  have hplace : s.place? = some ((b : Int) * unitsPerOne) := by rw [hs.2, Nat.cast_mul]
  have hlow := two_pow_mul_le_unitsLimit (i := 2 ^ 127) (Int.le_refl _)
  have hhigh := two_pow_mul_le_unitsLimit (i := 2 ^ 127 - 1) (by omega)
  simp only [least, greatest]
  rw [toIntWithin_whole hplace (by decide) (by linarith) hhigh]
  omega

/-- The floor of a quotient is the only multiple of the divisor that begins a bucket of the number. -/
theorem mul_le_and_lt_iff (hb : 0 < b) (q : Int) : q * b ≤ i ∧ i < (q + 1) * b ↔ q = i / b := by
  rw [eq_comm, Int.ediv_eq_iff_of_pos (Int.natCast_pos.2 hb), Int.add_mul, Int.one_mul]

/-- **An integer of 64 bits has an exact quotient** among the keys. -/
theorem exists_isExactQuotient (hs : IsWholeSize s b) (hb : b ≤ 2 ^ 64) (hi : i.natAbs ≤ 2 ^ 64) :
    ∃ k : Key, ofInteger i s = k ∧ k.IsExactQuotient i s b := by
  obtain ⟨-, -, hpos⟩ := hs.exists_units
  have hval := val_clamp_ediv hi b
  have hquot := Int.natAbs_ediv_le_natAbs i b
  refine ⟨clamp (i / b), ofInteger_whole hs hi, ?_, isSome_ofInt?_iff.2 (by omega),
    hs.toIntWithin_eq hb, ?_, isSome_ofInt?_iff.2 (by omega), isSome_ofInt?_iff.2 (by omega)⟩
  · intro q
    rw [mul_le_and_lt_iff hpos, hval]
  · rw [← hval, ofInt?_val, hval]

/-- Exact quotients are in the order of the integers. -/
theorem IsExactQuotient.mono {k k' : Key} {j : Int} (hs : IsWholeSize s b)
    (hk : k.IsExactQuotient i s b) (hk' : k'.IsExactQuotient j s b) (h : i ≤ j) : k ≤ k' := by
  obtain ⟨-, -, hpos⟩ := hs.exists_units
  rw [le_iff, ← (hk.holds_iff _).1 ((mul_le_and_lt_iff hpos _).2 rfl),
    ← (hk'.holds_iff _).1 ((mul_le_and_lt_iff hpos _).2 rfl)]
  exact hs.ediv_le_ediv h

end Key

namespace Value

variable {s : Binary64} {b : Nat}

/-- **The key of an integer** is the floor of its exact quotient by a whole bucket size up to 2⁶⁴, with
every integer on the way inside 128 bits and a key on either side. So keys are in the order of the
integers, and equal integers have one key, with or without sign. -/
theorem key?_isExactQuotient (hs : Key.IsWholeSize s b) (hb : b ≤ 2 ^ 64) :
    (∀ v i, integer? v = some i → ∃ k, v.key? s = some k ∧ k.IsExactQuotient i s b) ∧
    (∀ v w i j, integer? v = some i → integer? w = some j → i ≤ j →
      ∃ k ∈ v.key? s, ∃ k' ∈ w.key? s, k ≤ k') ∧
    ∀ v w i, integer? v = some i → integer? w = some i → v.key? s = w.key? s := by
  have hkey : ∀ v i, integer? v = some i → ∃ k, v.key? s = some k ∧ k.IsExactQuotient i s b := by
    intro v i hi
    obtain ⟨k, hk, hquot⟩ := Key.exists_isExactQuotient hs hb (natAbs_le_of_integer? hi)
    exact ⟨k, by rw [key?_of_integer? hi hs.1, hk], hquot⟩
  refine ⟨hkey, fun v w i j hi hj h => ?_, fun v w i hi hi' => ?_⟩
  · obtain ⟨k, hk, hquot⟩ := hkey v i hi
    obtain ⟨k', hk', hquot'⟩ := hkey w j hj
    exact ⟨k, hk, k', hk', hquot.mono hs hquot' h⟩
  · rw [key?_of_integer? hi hs.1, key?_of_integer? hi' hs.1]

/-- In buckets of 2⁶⁴ the integer minus one is in the bucket below zero. -/
theorem key?_isExactQuotient_widest :
    Key.IsWholeSize (.ofNat (2 ^ 64)) (2 ^ 64) ∧
      ∃ k, (Value.int (-1)).key? (.ofNat (2 ^ 64)) = some k ∧ k.val = -1 := by
  have hs : Key.IsWholeSize (.ofNat (2 ^ 64)) (2 ^ 64) := by decide +kernel
  obtain ⟨k, hk, hquot⟩ := (key?_isExactQuotient hs (Nat.le_refl _)).1 (.int (-1)) (-1) rfl
  exact ⟨hs, k, hk, ((hquot.holds_iff (-1)).1 (by decide)).symm⟩

end Value

end BucketPlanner
