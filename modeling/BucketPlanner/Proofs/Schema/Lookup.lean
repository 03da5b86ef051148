import BucketPlanner.Schema.Basic
import BucketPlanner.Proofs.Lists

/-!
# Columns by name

When the columns of a schema have different names, a name leads to the one column that has it in upper
case (`Schema.fieldIndex_eq_ok_iff`). It is the same to look the name up in a map from the names to the
places that the columns say (`Schema.find?_nameMap`).
-/

namespace BucketPlanner.Schema

variable {s : Schema} {name : String} {n : Nat}

/-- The places of the columns under their names, as the columns say. -/
def nameMap (s : Schema) : List (String × Nat) :=
  Ascending.putAll (s.columns.map fun c => (c.name, c.position))

theorem fieldIndex_cases (s : Schema) (name : String) :
    (∃ n, s.columns.findIdx? (·.name == upperCase name) = some n ∧ s.fieldIndex name = .ok n) ∨
      s.columns.findIdx? (·.name == upperCase name) = none ∧
        s.fieldIndex name = .error (.unknownColumn name) := by
  unfold fieldIndex
  split
  next n hn => exact Or.inl ⟨n, hn, rfl⟩
  next hn => exact Or.inr ⟨hn, rfl⟩

/-- A name that no column has is unknown, and that is the only error. -/
theorem fieldIndex_eq_error_iff {e : SchemaError} :
    s.fieldIndex name = .error e ↔
      (∀ c ∈ s.columns, c.name ≠ upperCase name) ∧ e = .unknownColumn name := by
  rcases fieldIndex_cases s name with ⟨n, hn, hfield⟩ | ⟨hnone, hfield⟩
  · obtain ⟨hlt, hname, -⟩ := List.findIdx?_eq_some_iff_getElem.1 hn
    rw [beq_iff_eq] at hname
    simp only [hfield, reduceCtorEq, false_iff, not_and]
    exact fun hall => absurd hname (hall _ (List.getElem_mem hlt))
  · rw [List.findIdx?_eq_none_iff] at hnone
    simp only [beq_eq_false_iff_ne] at hnone
    rw [hfield, Except.error.injEq, eq_comm]
    exact ⟨fun he => ⟨hnone, he⟩, fun h => h.2⟩

theorem exists_column_of_fieldIndex (h : s.fieldIndex name = .ok n) :
    ∃ c, s.column? n = some c ∧ c.name = upperCase name := by
  rcases fieldIndex_cases s name with ⟨m, hm, hfield⟩ | ⟨-, hfield⟩
  · rw [hfield, Except.ok.injEq] at h
    obtain ⟨hlt, hname, -⟩ := List.findIdx?_eq_some_iff_getElem.1 hm
    rw [beq_iff_eq] at hname
    subst h
    exact ⟨_, List.getElem?_eq_getElem hlt, hname⟩
  · simp [hfield] at h

/-- **A name leads to the column that has it**, when no two columns share one. -/
theorem fieldIndex_eq_ok_iff (hnodup : (s.columns.map Column.name).Nodup) :
    s.fieldIndex name = .ok n ↔ ∃ c, s.column? n = some c ∧ c.name = upperCase name := by
  refine ⟨exists_column_of_fieldIndex, ?_⟩
  rintro ⟨c, hc, hname⟩
  cases hfield : s.fieldIndex name with
  | error e =>
    exact absurd hname ((fieldIndex_eq_error_iff.1 hfield).1 c (List.mem_of_getElem? hc))
  | ok m =>
    obtain ⟨c', hc', hname'⟩ := exists_column_of_fieldIndex hfield
    have hat : ∀ {i d}, s.column? i = some d → d.name = upperCase name →
        (s.columns.map Column.name)[i]? = some (upperCase name) := by
      intro i d hd hdname
      rw [List.getElem?_map, show s.columns[i]? = some d from hd, Option.map_some, hdname]
    have hm := hat hc' hname'
    obtain ⟨hlt, -⟩ := List.getElem?_eq_some_iff.1 hm
    rw [(List.getElem?_inj hlt hnodup).1 (hm.trans (hat hc hname).symm)]

/-- **Looking a name up in the map of names** finds the column that is found among the columns. -/
theorem find?_nameMap (hnodup : (s.columns.map Column.name).Nodup)
    (hplaced : ∀ {n c}, s.column? n = some c → c.position = n) (name : String) :
    Ascending.find? (upperCase name) s.nameMap = (s.fieldIndex name).toOption := by
  have hkeys : ((s.columns.map fun c => (c.name, c.position)).map Prod.fst).Nodup := by
    rwa [List.map_map]
  ext n
  rw [nameMap, Ascending.find?_putAll_eq_some_iff hkeys, List.mem_map]
  have hok : (s.fieldIndex name).toOption = some n ↔ s.fieldIndex name = .ok n := by
    cases s.fieldIndex name <;> simp [Except.toOption]
  rw [hok, fieldIndex_eq_ok_iff hnodup]
  constructor
  · rintro ⟨c, hmem, hc⟩
    rw [Prod.mk.injEq] at hc
    obtain ⟨m, hm⟩ := List.getElem?_of_mem hmem
    rw [← hc.2, hplaced hm]
    exact ⟨c, hm, hc.1⟩
  · rintro ⟨c, hc, hname⟩
    exact ⟨c, List.mem_of_getElem? hc, by rw [hname, hplaced hc]⟩

end BucketPlanner.Schema
