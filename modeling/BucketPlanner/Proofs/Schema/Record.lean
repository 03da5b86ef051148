import BucketPlanner.Schema.Record
import BucketPlanner.Proofs.Lists
import BucketPlanner.Proofs.Schema.Definition

/-!
# Values of records

A record is read from an object whose members are all declared, and it has for every column the literal
that the object gives for the column, or for the time stamp the present time
(`Schema.readRecord_eq_ok_iff`, `Schema.readField_eq_ok_iff`).
-/

namespace BucketPlanner.Schema

variable {schema : Schema} {now : UInt64} {json : Json} {record : Record} {c : Column} {v : Value}
  {members : List (String × Json)}

/-- The value of a column is a literal of its type, or the present time. -/
theorem readField_eq_ok_iff :
    readField now members c = .ok v ↔
      (∃ json, memberFor? members c = some json ∧ c.type.valueOfJson? json = some v) ∨
        memberFor? members c = none ∧ c.name = timestampName ∧ v = .uint now := by
  unfold readField
  split
  next json hjson =>
    split
    next w hw => simp [hjson, hw]
    next hnone => simp [hjson, hnone]
  next hnone =>
    split
    next hname => simp [hnone, hname, eq_comm]
    next hname => simp [hnone, hname]

theorem checkDeclared_eq_ok_iff :
    schema.checkDeclared members = .ok () ↔ ∀ m ∈ members, ∃ n, schema.fieldIndex m.1 = .ok n := by
  rw [checkDeclared, forM_eq_ok_iff]
  refine forall₂_congr fun m _ => ?_
  cases schema.fieldIndex m.1 <;> simp

/-- **A record is read** from an object whose members are declared, column by column. -/
theorem readRecord_eq_ok_iff :
    schema.readRecord now json = .ok record ↔
      ∃ members, json = .object members ∧
        (∀ m ∈ members, ∃ n, schema.fieldIndex m.1 = .ok n) ∧
        List.Forall₂ (fun c v => readField now members c = .ok v) schema.columns record := by
  unfold readRecord
  split
  next members =>
    simp only [bind_eq_ok, Json.object.injEq, exists_eq_left', ← checkDeclared_eq_ok_iff,
      mapM_eq_ok_iff]
    exact ⟨fun ⟨_, hdeclared, hfields⟩ => ⟨hdeclared, hfields⟩,
      fun ⟨hdeclared, hfields⟩ => ⟨(), hdeclared, hfields⟩⟩
  next hobject =>
    simp only [reduceCtorEq, false_iff, not_exists, not_and]
    exact fun members hjson => absurd hjson (hobject members)

/-- Values of a column are in the form of its type; the time stamp has unsigned integers. -/
theorem admits_of_readField (hc : c.name = timestampName → c.type = .ulong)
    (h : readField now members c = .ok v) : c.type.admits v := by
  rcases readField_eq_ok_iff.1 h with ⟨json, -, hv⟩ | ⟨-, hname, rfl⟩
  · exact DataType.admits_valueOfJson? hv
  · rw [hc hname]
    rfl

end BucketPlanner.Schema
