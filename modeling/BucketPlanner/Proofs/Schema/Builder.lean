import BucketPlanner.Schema.Builder
import BucketPlanner.Proofs.Lists
import BucketPlanner.Proofs.Value.Order

/-!
# Built schemas

A schema is built from the time stamp by adding columns (`SchemaBuilder.Built`). In a built schema
every column knows its place and has a domain of its type and is not indexed
(`SchemaBuilder.Built.isFormed`).
-/

namespace BucketPlanner

/-- A column at its place, with a domain of its type. -/
structure Column.IsFormed (column : Column) (position : Nat) : Prop where
  placed : column.position = position
  accepts_min : column.type.accepts column.min
  accepts_max : column.type.accepts column.max
  ordered : column.min.isAtMost column.max

namespace SchemaBuilder

/-- The builders that adding columns leads to. -/
inductive Built : SchemaBuilder → Prop
  | start : Built .start
  | column {b b' : SchemaBuilder} {type : DataType} {name : String} {min max : Value}
      (hb : Built b) (h : b.addColumnWithin type name min max = .ok b') : Built b'

variable {b b' : SchemaBuilder} {type : DataType} {name : String} {min max : Value}

theorem addSizes_eq_ok_iff {ε : Type} {x y z : UInt64} :
    (addSizes x y : Except (Failure ε) UInt64) = .ok z ↔ x.toNat + y.toNat < 2 ^ 64 ∧ z = x + y := by
  rw [addSizes, show UInt64.size = 2 ^ 64 from rfl]
  by_cases hlt : x.toNat + y.toNat < 2 ^ 64
  · rw [if_pos hlt, Except.ok.injEq, and_iff_right hlt, eq_comm]
  · rw [if_neg hlt]
    exact iff_of_false (by simp) fun h => hlt h.1

theorem addSizes_eq_overflow_iff {ε : Type} {x y : UInt64} :
    (addSizes x y : Except (Failure ε) UInt64) = .error .overflow ↔ 2 ^ 64 ≤ x.toNat + y.toNat := by
  rw [addSizes, show UInt64.size = 2 ^ 64 from rfl]
  by_cases hlt : x.toNat + y.toNat < 2 ^ 64
  · rw [if_pos hlt]
    exact iff_of_false (by simp) (Nat.not_le.2 hlt)
  · rw [if_neg hlt]
    exact iff_of_true rfl (Nat.not_lt.1 hlt)

/-- A domain that is accepted has ends of the type, in order. -/
theorem checkDomain_eq_ok_iff : checkDomain name type min max = .ok () ↔
    type.accepts min ∧ type.accepts max ∧ min.isAtMost max := by
  unfold checkDomain Value.isAtMost
  cases type.accepts min <;> cases type.accepts max <;> simp
  cases min.compare? max with
  | none => simp
  | some o => cases o <;> simp

/-- The column that a declaration adds to those before it. -/
def newColumn (b : SchemaBuilder) (type : DataType) (name : String) (min max : Value) : Column where
  position := b.columns.length
  offset := b.offset
  name := canonicalName name
  type := type
  min := min
  max := max
  index := none

/-- Nothing is wrong with a column that is to be added: it has a name, which is new, and a domain of its
type. -/
structure Admits (b : SchemaBuilder) (type : DataType) (name : String) (min max : Value) : Prop where
  named : canonicalName name ≠ ""
  notTimestamp : canonicalName name ≠ Schema.timestampName
  fresh : ∀ c ∈ b.columns, c.name ≠ canonicalName name
  accepts_min : type.accepts min
  accepts_max : type.accepts max
  ordered : min.isAtMost max

theorem Admits.isFormed (h : b.Admits type name min max) :
    (b.newColumn type name min max).IsFormed b.columns.length :=
  ⟨rfl, h.accepts_min, h.accepts_max, h.ordered⟩

/-- **What an addition does**: it declares the time stamp, which is there already; or it puts an admitted
column at the end, if the sizes can be added; or it reports an error. -/
theorem addColumnWithin_cases (b : SchemaBuilder) (type : DataType) (name : String) (min max : Value) :
    (canonicalName name = Schema.timestampName ∧ type = .ulong ∧
        b.addColumnWithin type name min max = .ok { b with declaresTimestamp := true }) ∨
      (b.Admits type name min max ∧ b.addColumnWithin type name min max =
        (addSizes b.offset type.size).map fun offset =>
          { b with columns := b.columns ++ [b.newColumn type name min max], offset }) ∨
      (¬ (canonicalName name = Schema.timestampName ∧ type = .ulong) ∧ ¬ b.Admits type name min max ∧
        ∃ e, b.addColumnWithin type name min max = .error (.reported e)) := by
  simp only [addColumnWithin, bind, Except.bind, pure, Except.pure, throw, throwThe,
    MonadExceptOf.throw]
  split
  next hempty =>
    refine Or.inr (Or.inr ⟨fun h => ?_, fun h => h.named hempty, _, rfl⟩)
    rw [h.1] at hempty
    exact absurd hempty (by decide)
  next hnamed =>
  split
  next htimestamp =>
    split
    next htype =>
      exact Or.inr (Or.inr ⟨fun h => htype h.2, fun h => h.notTimestamp htimestamp, _, rfl⟩)
    next htype => exact Or.inl ⟨htimestamp, not_not.1 htype, rfl⟩
  next hname =>
  have hother : ¬ (canonicalName name = Schema.timestampName ∧ type = .ulong) := fun h => hname h.1
  split
  next hdouble =>
    refine Or.inr (Or.inr ⟨hother, fun h => ?_, _, rfl⟩)
    obtain ⟨c, hc, hcname⟩ := List.any_eq_true.1 hdouble
    exact h.fresh c hc (beq_iff_eq.1 hcname)
  next hfresh =>
  cases hdomain : checkDomain (canonicalName name) type min max with
  | error e =>
    refine Or.inr (Or.inr ⟨hother, fun h => ?_, e, rfl⟩)
    rw [checkDomain_eq_ok_iff.2 ⟨h.accepts_min, h.accepts_max, h.ordered⟩] at hdomain
    simp at hdomain
  | ok u =>
    obtain ⟨hmin, hmax, hordered⟩ := checkDomain_eq_ok_iff.1 hdomain
    refine Or.inr (Or.inl ⟨⟨hnamed, hname, by simpa using hfresh, hmin, hmax, hordered⟩, ?_⟩)
    cases (addSizes b.offset type.size : Except (Failure SchemaError) UInt64) <;>
      simp [Except.mapError, Except.map, newColumn]

/-- **An addition that succeeds** puts a column with a new name at the end, or declares the time stamp,
which is there already. -/
theorem addColumnWithin_eq_ok (h : b.addColumnWithin type name min max = .ok b') :
    canonicalName name = Schema.timestampName ∧ type = .ulong ∧
        b' = { b with declaresTimestamp := true } ∨
      b.Admits type name min max ∧ b.offset.toNat + type.size.toNat < 2 ^ 64 ∧
        b' = { b with
          columns := b.columns ++ [b.newColumn type name min max], offset := b.offset + type.size } := by
  obtain ⟨hname, htype, heq⟩ | ⟨hadmits, heq⟩ | ⟨-, -, e, heq⟩ := addColumnWithin_cases b type name min max
  · rw [heq, Except.ok.injEq] at h
    exact Or.inl ⟨hname, htype, h.symm⟩
  · rw [heq] at h
    cases hsize : (addSizes b.offset type.size : Except (Failure SchemaError) UInt64) with
    | error failure => simp [hsize, Except.map] at h
    | ok offset =>
      obtain ⟨hlt, rfl⟩ := addSizes_eq_ok_iff.1 hsize
      rw [hsize, Except.map, Except.ok.injEq] at h
      exact Or.inr ⟨hadmits, hlt, h.symm⟩
  · simp [heq] at h

/-- **The columns after an addition** are those before it and the added one. -/
theorem column?_of_addColumnWithin (h : b.addColumnWithin type name min max = .ok b') {n : Nat}
    {c : Column} (hc : b'.build.column? n = some c) :
    b.build.column? n = some c ∨
      c.name ≠ Schema.timestampName ∧ c.type = type ∧ c.min = min ∧ c.max = max ∧ c.index = none ∧
        c.IsFormed n := by
  rcases addColumnWithin_eq_ok h with ⟨-, -, rfl⟩ | ⟨hadmits, -, rfl⟩
  · exact Or.inl hc
  · rcases getElem?_append_singleton hc with hold | ⟨rfl, rfl⟩
    · exact Or.inl hold
    · exact Or.inr ⟨hadmits.notTimestamp, rfl, rfl, rfl, rfl, hadmits.isFormed⟩

/-- The time stamp alone. -/
theorem column?_start {n : Nat} {c : Column} (hc : start.build.column? n = some c) :
    c.type = .ulong ∧ c.min = DataType.ulong.least ∧ c.max = DataType.ulong.greatest ∧
      c.index = none ∧ c.IsFormed n := by
  cases n with
  | zero =>
    rw [show start.build.column? 0 = some _ from rfl, Option.some.injEq] at hc
    rw [← hc]
    exact ⟨rfl, rfl, rfl, rfl, rfl, rfl, rfl, rfl⟩
  | succ n => simp [start, build, Schema.column?] at hc

/-- **Every column of a built schema** is at its place, has a domain of its type and no index. -/
theorem Built.isFormed (hb : Built b) {n : Nat} {c : Column} (hc : b.build.column? n = some c) :
    c.IsFormed n ∧ c.index = none := by
  induction hb with
  | start =>
    obtain ⟨-, -, -, hindex, hformed⟩ := column?_start hc
    exact ⟨hformed, hindex⟩
  | column hb hadd ih =>
    rcases column?_of_addColumnWithin hadd hc with hold | ⟨-, -, -, -, hindex, hformed⟩
    · exact ih hold
    · exact ⟨hformed, hindex⟩

theorem Built.index_eq_none (hb : Built b) {c : Column} (hc : c ∈ b.build.columns) :
    c.index = none := by
  obtain ⟨n, hn⟩ := List.getElem?_of_mem hc
  exact (hb.isFormed hn).2

/-- A column with the name of the time stamp has its type. -/
theorem Built.type_of_timestamp (hb : Built b) {c : Column} (hc : c ∈ b.build.columns)
    (hname : c.name = Schema.timestampName) : c.type = .ulong := by
  obtain ⟨n, hn⟩ := List.getElem?_of_mem hc
  clear hc
  induction hb with
  | start => exact (column?_start hn).1
  | column hb hadd ih =>
    rcases column?_of_addColumnWithin hadd hn with hold | ⟨hne, -⟩
    · exact ih hold
    · exact absurd hname hne

/-- Columns that are there stay where they are. -/
theorem isPrefix_of_addColumnWithin (h : b.addColumnWithin type name min max = .ok b') :
    b.columns <+: b'.columns := by
  rcases addColumnWithin_eq_ok h with ⟨-, -, rfl⟩ | ⟨-, -, rfl⟩
  · exact List.prefix_rfl
  · exact List.prefix_append ..

/-- The time stamp is the first column. -/
theorem Built.isPrefix_start (hb : Built b) : SchemaBuilder.start.columns <+: b.columns := by
  induction hb with
  | start => exact List.prefix_rfl
  | column _ hadd ih => exact ih.trans (isPrefix_of_addColumnWithin hadd)

theorem Built.column?_zero (hb : Built b) : b.build.column? 0 = SchemaBuilder.start.build.column? 0 := by
  obtain ⟨rest, hrest⟩ := hb.isPrefix_start
  rw [Schema.column?, build, ← hrest]
  rfl

/-- **The columns of a built schema** have different names. -/
theorem Built.nodup (hb : Built b) : (b.columns.map Column.name).Nodup := by
  induction hb with
  | start => exact List.pairwise_singleton ..
  | column hb hadd ih =>
    rcases addColumnWithin_eq_ok hadd with ⟨-, -, rfl⟩ | ⟨hadmits, -, rfl⟩
    · exact ih
    · rw [List.map_append, List.map_singleton, List.nodup_append]
      refine ⟨ih, List.pairwise_singleton .., ?_⟩
      intro old hold new hnew
      obtain ⟨c, hc, rfl⟩ := List.mem_map.1 hold
      rw [List.mem_singleton.1 hnew]
      exact hadmits.fresh c hc

end SchemaBuilder

end BucketPlanner
