import BucketPlanner.Proofs.Bucket.Run
import BucketPlanner.Proofs.Json.ReadBack
import BucketPlanner.Proofs.Schema.Calls
import BucketPlanner.Proofs.Schema.Record
import BucketPlanner.Proofs.Text.Bytes

/-!
# Accepted records

Members of an object are checked by looking up a column for their name, and columns are read by looking
up a member. Names of columns have no small letters, so both look-ups follow one relation
(`Indexing.Reachable.fieldIndex_eq_ok_iff`), and a record is read from an object exactly when

* every member names a column,
* every column but the time stamp is named by a member, and
* the first member that names a column stands for a literal of its type

(`Schema.readRecord_accepts_iff`).
-/

namespace BucketPlanner

namespace Schema

/-- A member of an object names a column in letters of any case, and of all that do its name is first
in the order of bytes. -/
structure IsMemberFor (members : List (String × Json)) (c : Column) (m : String × Json) : Prop where
  mem : m ∈ members
  named : equalIgnoringCase m.1 c.name
  first : ∀ m' ∈ members, equalIgnoringCase m'.1 c.name → bytes m.1 ≤ bytes m'.1

/-- The members of an object make a record of the schema. -/
structure IsDescribedBy (schema : Schema) (members : List (String × Json)) : Prop where
  /-- Every member names a column. -/
  declared : ∀ m ∈ members, ∃ c ∈ schema.columns, equalIgnoringCase m.1 c.name
  /-- Every column but the time stamp has a member. -/
  given : ∀ c ∈ schema.columns, c.name ≠ timestampName →
    ∃ m ∈ members, equalIgnoringCase m.1 c.name
  /-- The member for a column is a literal of its type. -/
  literal : ∀ c ∈ schema.columns, ∀ m, IsMemberFor members c m →
    ∃ v, c.type.valueOfJson? m.2 = some v

/-- The record has the values that the members of an object give at the time `now`. -/
structure IsRecordOf (schema : Schema) (now : UInt64) (members : List (String × Json))
    (record : Record) : Prop where
  length : record.length = schema.size
  /-- A value is the literal that the member for its column stands for. The time stamp may be without a
  member, and then it is the present time. -/
  value : ∀ {n c v}, schema.column? n = some c → record[n]? = some v →
    (∃ m, IsMemberFor members c m ∧ c.type.valueOfJson? m.2 = some v) ∨
      (∀ m ∈ members, ¬ equalIgnoringCase m.1 c.name) ∧ c.name = timestampName ∧ v = .uint now
  /-- A value is one of the type of its column. -/
  isValue : ∀ {n c v}, schema.column? n = some c → record[n]? = some v → c.type.IsValue v

variable {members : List (String × Json)} {c : Column} {now : UInt64} {v : Value} {json : Json}

/-! ### Looking up the member for a column -/

theorem memberFor?_eq_none_iff :
    memberFor? members c = none ↔ ∀ m ∈ members, ¬ equalIgnoringCase m.1 c.name := by
  rw [memberFor?, Option.map_eq_none_iff, List.find?_eq_none]

/-- The member for a column is one, when the members are in order. -/
theorem IsMemberFor.unique (hmembers : Ascending.IsAscending members) {m m' : String × Json}
    (h : IsMemberFor members c m) (h' : IsMemberFor members c m') : m = m' := by
  obtain ⟨name, json⟩ := m
  obtain ⟨name', json'⟩ := m'
  obtain rfl : name = name' := by
    cases hcompare : compare name name' with
    | lt => exact absurd (h'.first _ h.mem h.named) (List.not_le.2 (bytes_lt_iff.2 hcompare))
    | gt =>
      have hlt := Std.OrientedCmp.lt_of_gt hcompare
      exact absurd (h.first _ h'.mem h'.named) (List.not_le.2 (bytes_lt_iff.2 hlt))
    | eq => exact Std.LawfulEqOrd.eq_of_compare hcompare
  have hjson := (Ascending.find?_eq_some_iff hmembers).2 h.mem
  rw [(Ascending.find?_eq_some_iff hmembers).2 h'.mem, Option.some.injEq] at hjson
  rw [hjson]

theorem isMemberFor_of_find? (hmembers : Ascending.IsAscending members) {m : String × Json}
    (h : members.find? (equalIgnoringCase ·.1 c.name) = some m) : IsMemberFor members c m := by
  obtain ⟨hnamed, front, back, rfl, hfront⟩ := List.find?_eq_some_iff_append.1 h
  refine ⟨by simp, hnamed, fun m' hm' hnamed' => ?_⟩
  rcases List.mem_append.1 hm' with hbefore | hm'
  · have := hfront m' hbefore
    simp [hnamed'] at this
  · rcases List.mem_cons.1 hm' with rfl | hafter
    · exact List.le_refl _
    · have hlt := List.rel_of_pairwise_cons (List.pairwise_append.1 hmembers).2.1 hafter
      exact List.le_of_lt (bytes_lt_iff.2 hlt)

/-- **The member for a column** is found, when the members are in order. -/
theorem memberFor?_eq_some_iff (hmembers : Ascending.IsAscending members) :
    memberFor? members c = some json ↔ ∃ m, IsMemberFor members c m ∧ m.2 = json := by
  rw [memberFor?, Option.map_eq_some_iff]
  refine exists_congr fun m => and_congr_left fun _ => ⟨isMemberFor_of_find? hmembers, fun h => ?_⟩
  cases hfind : members.find? (equalIgnoringCase ·.1 c.name) with
  | none => exact absurd h.named (List.find?_eq_none.1 hfind m h.mem)
  | some m' => rw [(isMemberFor_of_find? hmembers hfind).unique hmembers h]

end Schema

namespace Indexing

variable {s : Indexing} {name : String} {n : Nat}

theorem Reachable.isCanonical (h : s.Reachable) {c : Column} (hc : c ∈ s.schema.columns) :
    SchemaBuilder.IsCanonical c.name := by
  obtain ⟨b, hb, c', hc', hname, -⟩ := h.exists_built_column hc
  exact hname ▸ hb.isCanonical c' hc'

/-- **A name leads to the column** that it names in letters of any case. -/
theorem Reachable.fieldIndex_eq_ok_iff (h : s.Reachable) :
    s.schema.fieldIndex name = .ok n ↔
      ∃ c, s.schema.column? n = some c ∧ equalIgnoringCase name c.name := by
  rw [Schema.fieldIndex_eq_ok_iff h.nodup]
  refine exists_congr fun c => and_congr_right fun hc => ?_
  have hcanonical := h.isCanonical (List.mem_of_getElem? hc)
  rw [equalIgnoringCase_iff, upperCase_eq_self hcanonical.not_isLower, eq_comm]

/-- A name that names a column leads to it. -/
theorem Reachable.exists_fieldIndex_iff (h : s.Reachable) :
    (∃ n, s.schema.fieldIndex name = .ok n) ↔
      ∃ c ∈ s.schema.columns, equalIgnoringCase name c.name := by
  simp only [h.fieldIndex_eq_ok_iff]
  constructor
  · rintro ⟨n, c, hc, hname⟩
    exact ⟨c, List.mem_of_getElem? hc, hname⟩
  · rintro ⟨c, hc, hname⟩
    obtain ⟨n, hn⟩ := List.getElem?_of_mem hc
    exact ⟨n, c, hn, hname⟩

end Indexing

namespace Schema

variable {s : Indexing} {members : List (String × Json)} {c : Column} {now : UInt64} {v : Value}
  {json : Json} {record : Record}

/-- **A column is read** when its member is a literal of its type, or it is the time stamp without one. -/
theorem exists_readField_iff (hmembers : Ascending.IsAscending members) :
    (∃ v, readField now members c = .ok v) ↔
      (c.name ≠ timestampName → ∃ m ∈ members, equalIgnoringCase m.1 c.name) ∧
        ∀ m, IsMemberFor members c m → ∃ v, c.type.valueOfJson? m.2 = some v := by
  simp only [readField_eq_ok_iff]
  cases hfind : memberFor? members c with
  | none =>
    have hnone := memberFor?_eq_none_iff.1 hfind
    constructor
    · rintro ⟨v, ⟨json, h, -⟩ | ⟨-, hname, -⟩⟩
      · simp at h
      · exact ⟨fun hne => absurd hname hne, fun m hm => absurd hm.named (hnone m hm.mem)⟩
    · rintro ⟨hgiven, -⟩
      refine ⟨.uint now, Or.inr ⟨rfl, ?_, rfl⟩⟩
      by_contra hne
      obtain ⟨m, hm, hnamed⟩ := hgiven hne
      exact hnone m hm hnamed
  | some json =>
    obtain ⟨m, hm, rfl⟩ := (memberFor?_eq_some_iff hmembers).1 hfind
    constructor
    · rintro ⟨v, ⟨json, h, hv⟩ | ⟨h, -⟩⟩
      · obtain rfl := Option.some.inj h
        refine ⟨fun _ => ⟨m, hm.mem, hm.named⟩, fun m' hm' => ⟨v, ?_⟩⟩
        rwa [hm'.unique hmembers hm]
      · simp at h
    · rintro ⟨-, hliteral⟩
      obtain ⟨v, hv⟩ := hliteral m hm
      exact ⟨v, Or.inl ⟨_, rfl, hv⟩⟩

theorem isDescribedBy_iff (hs : s.Reachable) (hmembers : Ascending.IsAscending members)
    (now : UInt64) :
    s.schema.IsDescribedBy members ↔
      (∀ m ∈ members, ∃ n, s.schema.fieldIndex m.1 = .ok n) ∧
        ∀ c ∈ s.schema.columns, ∃ v, readField now members c = .ok v := by
  simp only [hs.exists_fieldIndex_iff, exists_readField_iff hmembers]
  constructor
  · intro h
    exact ⟨h.declared, fun c hc => ⟨h.given c hc, h.literal c hc⟩⟩
  · rintro ⟨hdeclared, hfields⟩
    exact ⟨hdeclared, fun c hc => (hfields c hc).1, fun c hc => (hfields c hc).2⟩

/-- The value that is read for a column is that of the member for it, and one of the column's type. -/
theorem isRecordOf_of_forall₂ (hs : s.Reachable) (hmembers : Ascending.IsAscending members)
    (h : List.Forall₂ (fun c v => readField now members c = .ok v) s.schema.columns record) :
    s.schema.IsRecordOf now members record := by
  have hcases : ∀ {n c v}, s.schema.column? n = some c → record[n]? = some v →
      (∃ m, IsMemberFor members c m ∧ c.type.valueOfJson? m.2 = some v) ∨
        (∀ m ∈ members, ¬ equalIgnoringCase m.1 c.name) ∧ c.name = timestampName ∧ v = .uint now := by
    intro n c v hc hv
    rcases readField_eq_ok_iff.1 (of_getElem?_of_forall₂ h hc hv) with
      ⟨json, hjson, hliteral⟩ | ⟨hnone, hname, hnow⟩
    · obtain ⟨m, hm, rfl⟩ := (memberFor?_eq_some_iff hmembers).1 hjson
      exact Or.inl ⟨m, hm, hliteral⟩
    · exact Or.inr ⟨memberFor?_eq_none_iff.1 hnone, hname, hnow⟩
  refine ⟨h.length_eq.symm, hcases, ?_⟩
  intro n c v hc hv
  rcases hcases hc hv with ⟨m, -, hliteral⟩ | ⟨-, hname, rfl⟩
  · exact (DataType.valueOfJson?_eq_some_iff.1 hliteral).2
  · rw [hs.type_of_timestamp (List.mem_of_getElem? hc) hname]
    trivial

/-- **Accepted records.** A JSON value whose members are in order is read as a record exactly when it is
an object whose members make one, and the record has the values that they give. -/
theorem readRecord_accepts_iff (hs : s.Reachable) (hjson : json.IsOrdered) (now : UInt64) :
    ((∃ record, s.schema.readRecord now json = .ok record) ↔
        ∃ members, json = .object members ∧ s.schema.IsDescribedBy members) ∧
      ∀ record, s.schema.readRecord now json = .ok record →
        ∃ members, json = .object members ∧ s.schema.IsRecordOf now members record := by
  simp only [readRecord_eq_ok_iff]
  constructor
  · rw [exists_comm]
    refine exists_congr fun members => ?_
    rw [exists_and_left, exists_and_left, exists_forall₂_iff]
    refine and_congr_right ?_
    rintro rfl
    exact (isDescribedBy_iff hs hjson now).symm
  · rintro record ⟨members, rfl, -, hfields⟩
    exact ⟨members, rfl, isRecordOf_of_forall₂ hs hjson hfields⟩

/-- Two members that name one column, and none for the time stamp; and an object without a member for
the name. -/
theorem readRecord_accepts_iff_ages :
    let schema : Schema :=
      ⟨[⟨0, 0, "TIMESTAMP", .ulong, .uint 0, .uint 18446744073709551615, none⟩,
        ⟨1, 8, "AGE", .int, .int (-2147483648), .int 2147483647, none⟩,
        ⟨2, 12, "NAME", .string 4, .text "", .text "", none⟩], 16⟩
    ∃ b json json' members record,
      SchemaBuilder.ofCalls [.addColumn .int "age", .addColumn (.string 4) "name"] = .ok b ∧
      b.build = schema ∧
      Json.ofText? "\x7b\"age\":31,\"Name\":\"ann\",\"AGE\":40\x7d" = some json ∧
      json = .object members ∧ schema.readRecord 9 json = .ok record ∧
      schema.IsDescribedBy members ∧ schema.IsRecordOf 9 members record ∧
      record = [.uint 9, .int 40, .text "ann"] ∧
      Json.ofText? "\x7b\"age\":31\x7d" = some json' ∧
      ¬ ∃ members, json' = .object members ∧ schema.IsDescribedBy members := by
  intro schema
  have hbuilt : (SchemaBuilder.ofCalls
      [.addColumn .int "age", .addColumn (.string 4) "name"]).toOption.any (·.build = schema) := by
    decide +kernel
  have hread : (Json.ofText? "\x7b\"age\":31,\"Name\":\"ann\",\"AGE\":40\x7d").any fun json =>
      (schema.readRecord 9 json).toOption.any (· = [.uint 9, .int 40, .text "ann"]) := by
    decide +kernel
  have hfails : (Json.ofText? "\x7b\"age\":31\x7d").any fun json =>
      !(schema.readRecord 9 json).isOk := by
    decide +kernel
  obtain ⟨b, hb, hschema⟩ := exists_ok_of_any hbuilt
  obtain ⟨json, hjson, hread⟩ := (Option.any_eq_true ..).1 hread
  obtain ⟨json', hjson', hfails⟩ := (Option.any_eq_true ..).1 hfails
  obtain ⟨record, hrecord, hvalues⟩ := exists_ok_of_any hread
  have hs : (Indexing.start schema).Reachable :=
    of_decide_eq_true hschema ▸ .start (SchemaBuilder.Built.ofCalls hb)
  have haccepts := readRecord_accepts_iff hs (Json.isOrdered_of_ofText? hjson) 9
  obtain ⟨members, hmembers, hdescribed⟩ := haccepts.1.1 ⟨record, hrecord⟩
  obtain ⟨members', hmembers', hvalue⟩ := haccepts.2 record hrecord
  obtain rfl := Json.object.inj (hmembers.symm.trans hmembers')
  refine ⟨b, json, json', members, record, hb, of_decide_eq_true hschema, hjson, hmembers, hrecord,
    hdescribed, hvalue, of_decide_eq_true hvalues, hjson', fun hdescribed' => ?_⟩
  have hread' : (schema.readRecord 9 json').isOk := isOk_iff_exists.2
    ((readRecord_accepts_iff hs (Json.isOrdered_of_ofText? hjson') 9).1.2 hdescribed')
  simp [hread'] at hfails

end Schema

end BucketPlanner
