import BucketPlanner.Proofs.Schema.Acceptance

/-!
# Spellings of a column

Members of an object whose names differ in the case of letters only name one column. The column is read
from the first of them; of the others nothing is looked at but the name. A record that is read has the
values of all members exactly when the members for one column agree (`Schema.readRecord_uses_iff`).
-/

namespace BucketPlanner.Schema

/-- A record has the literal that a member stands for in the column that the member names. -/
def Uses (schema : Schema) (record : Record) (m : String × Json) : Prop :=
  ∃ n c v, schema.fieldIndex m.1 = .ok n ∧ schema.column? n = some c ∧
    c.type.valueOfJson? m.2 = some v ∧ record[n]? = some v

/-- Members that name one column stand for the same literal of its type. -/
def SpellingsAgree (schema : Schema) (members : List (String × Json)) : Prop :=
  ∀ c ∈ schema.columns, ∀ m ∈ members, ∀ m' ∈ members,
    equalIgnoringCase m.1 c.name → equalIgnoringCase m'.1 c.name →
      c.type.valueOfJson? m.2 = c.type.valueOfJson? m'.2

instance (schema : Schema) (members : List (String × Json)) :
    Decidable (schema.SpellingsAgree members) :=
  inferInstanceAs (Decidable (∀ c ∈ schema.columns, ∀ m ∈ members, ∀ m' ∈ members,
    equalIgnoringCase m.1 c.name → equalIgnoringCase m'.1 c.name →
      c.type.valueOfJson? m.2 = c.type.valueOfJson? m'.2))

variable {s : Indexing} {members : List (String × Json)} {record : Record} {now : UInt64}
  {n : Nat} {c : Column} {m : String × Json}

/-- A member of a column that is used stands for what the record has there. -/
theorem Uses.valueOfJson?_eq (hs : s.Reachable) (h : s.schema.Uses record m)
    (hc : s.schema.column? n = some c) (hname : equalIgnoringCase m.1 c.name) :
    c.type.valueOfJson? m.2 = record[n]? := by
  obtain ⟨n', c', v, hfield, hc', hv, hrecord⟩ := h
  rw [hs.fieldIndex_eq_ok_iff.2 ⟨c, hc, hname⟩, Except.ok.injEq] at hfield
  subst hfield
  rw [hc, Option.some.injEq] at hc'
  rw [hc', hv, hrecord]

/-- A column that a member names is read from one of the members that name it. -/
theorem exists_mem_of_readField {v : Value} (h : readField now members c = .ok v) (hm : m ∈ members)
    (hname : equalIgnoringCase m.1 c.name) :
    ∃ m' ∈ members, equalIgnoringCase m'.1 c.name ∧ c.type.valueOfJson? m'.2 = some v := by
  rcases readField_eq_ok_iff.1 h with ⟨json, hjson, hv⟩ | ⟨hnone, -⟩
  · obtain ⟨m', hfind, rfl⟩ := Option.map_eq_some_iff.1 hjson
    exact ⟨m', List.mem_of_find?_eq_some hfind, by simpa using List.find?_some hfind, hv⟩
  · exact absurd hname (memberFor?_eq_none_iff.1 hnone m hm)

/-- **All members of a record that is read are used** exactly when those for one column agree. -/
theorem readRecord_uses_iff (hs : s.Reachable)
    (hread : s.schema.readRecord now (.object members) = .ok record) :
    (∀ m ∈ members, s.schema.Uses record m) ↔ s.schema.SpellingsAgree members := by
  obtain ⟨members', hmembers, hdeclared, hfields⟩ := readRecord_eq_ok_iff.1 hread
  obtain rfl := Json.object.inj hmembers
  constructor
  · intro huses c hc m hm m' hm' hname hname'
    obtain ⟨n, hn⟩ := List.getElem?_of_mem hc
    rw [(huses m hm).valueOfJson?_eq hs hn hname, (huses m' hm').valueOfJson?_eq hs hn hname']
  · intro hagree m hm
    obtain ⟨n, hfield⟩ := hdeclared m hm
    obtain ⟨c, hc, hname⟩ := hs.fieldIndex_eq_ok_iff.1 hfield
    obtain ⟨v, hv, hread⟩ := exists_getElem?_of_forall₂ hfields hc
    obtain ⟨m', hm', hname', hliteral⟩ := exists_mem_of_readField hread hm hname
    refine ⟨n, c, v, hfield, hc, ?_, hv⟩
    rw [hagree c (List.mem_of_getElem? hc) m hm m' hm' hname hname', hliteral]

/-- An integer and a fraction for one column, which are the same number. -/
theorem readRecord_uses_iff_heights :
    let schema : Schema :=
      ⟨[⟨0, 0, "TIMESTAMP", .ulong, .uint 0, .uint 18446744073709551615, none⟩,
        ⟨1, 8, "H", .double, DataType.double.least, DataType.double.greatest, none⟩], 16⟩
    let members := [("H", Json.number (.natural 2)),
      ("h", Json.number (.real (.ofNat 2) (by decide +kernel)))]
    ∃ b record, SchemaBuilder.ofCalls [.addColumn .double "h"] = .ok b ∧ b.build = schema ∧
      schema.readRecord 9 (.object members) = .ok record ∧ schema.SpellingsAgree members ∧
      ∀ m ∈ members, schema.Uses record m := by
  intro schema members
  have hbuilt : (SchemaBuilder.ofCalls [.addColumn .double "h"]).toOption.any
      (·.build = schema) := by
    decide +kernel
  have hread : (schema.readRecord 9 (.object members)).isOk := by decide +kernel
  have hagree : schema.SpellingsAgree members := by decide +kernel
  obtain ⟨b, hb, hschema⟩ := exists_ok_of_any hbuilt
  obtain ⟨record, hrecord⟩ := isOk_iff_exists.1 hread
  have hs : (Indexing.start schema).Reachable :=
    of_decide_eq_true hschema ▸ .start (SchemaBuilder.Built.ofCalls hb)
  exact ⟨b, record, hb, of_decide_eq_true hschema, hrecord, hagree,
    (readRecord_uses_iff hs hrecord).2 hagree⟩

/-- A string for a column of integers is let through behind an integer for the same column. -/
theorem exists_not_uses :
    let schema : Schema :=
      ⟨[⟨0, 0, "TIMESTAMP", .ulong, .uint 0, .uint 18446744073709551615, none⟩,
        ⟨1, 8, "AGE", .int, .int (-2147483648), .int 2147483647, none⟩], 12⟩
    let members := [("AGE", Json.number (.natural 31)), ("age", Json.text "old"),
      ("timestamp", Json.number (.natural 7))]
    ∃ b record, SchemaBuilder.ofCalls [.addColumn .int "age"] = .ok b ∧ b.build = schema ∧
      (Json.object members).IsOrdered ∧ schema.readRecord 9 (.object members) = .ok record ∧
      ¬ ∀ m ∈ members, schema.Uses record m := by
  intro schema members
  have hbuilt : (SchemaBuilder.ofCalls [.addColumn .int "age"]).toOption.any
      (·.build = schema) := by
    decide +kernel
  have hread : (schema.readRecord 9 (.object members)).isOk := by decide +kernel
  have hfield : (schema.fieldIndex "age").toOption = some 1 := by decide +kernel
  obtain ⟨b, hb, hschema⟩ := exists_ok_of_any hbuilt
  obtain ⟨record, hrecord⟩ := isOk_iff_exists.1 hread
  refine ⟨b, record, hb, of_decide_eq_true hschema, by decide +kernel, hrecord, fun huses => ?_⟩
  obtain ⟨n, c, v, hn, hc, hv, -⟩ := huses ("age", .text "old") (by simp [members])
  rw [hn, Except.toOption, Option.some.injEq] at hfield
  subst hfield
  obtain rfl := Option.some.inj hc
  simp [DataType.valueOfJson?] at hv

end BucketPlanner.Schema
