import BucketPlanner.Schema.Definition
import BucketPlanner.Proofs.Schema.Builder
import BucketPlanner.Proofs.Value.DataType

/-!
# Defined schemas

The schema of a definition is built (`SchemaDef.build_eq_ok`), and the domains of its columns are given
by literals of their types (`Column.IsDeclared`).
-/

namespace BucketPlanner

/-- The ends of a column's domain are in the form of literals of its type, and the time stamp has the
whole domain of its type. -/
structure Column.IsDeclared (c : Column) : Prop where
  admits_min : c.type.admits c.min
  admits_max : c.type.admits c.max
  timestamp : c.name = Schema.timestampName →
    c.type = .ulong ∧ c.min = DataType.ulong.least ∧ c.max = DataType.ulong.greatest

/-- Columns that are added as definitions do. -/
def SchemaBuilder.IsDeclared (b : SchemaBuilder) : Prop :=
  b.Built ∧ ∀ {n c}, b.build.column? n = some c → c.IsDeclared

namespace ColumnDef

variable {d : ColumnDef} {b b' : SchemaBuilder} {type : DataType} {bound : Bound}

theorem admits_boundValue {v : Option Value} {default : Value} (h : d.boundValue type bound = .ok v)
    (hdefault : type.admits default) : type.admits (v.getD default) := by
  unfold boundValue at h
  split at h
  · rw [Except.ok.injEq] at h
    rwa [← h]
  · split at h
    next hv =>
      rw [Except.ok.injEq] at h
      rw [← h]
      exact DataType.admits_valueOfJson? hv
    · simp at h

theorem addTo_eq_ok (h : d.addTo b = .ok b') :
    ∃ type min max, DataType.ofName? d.typeName d.size = some type ∧ type.admits min ∧
      type.admits max ∧ b.addColumnWithin type d.name min max = .ok b' := by
  unfold addTo at h
  split at h
  · simp at h
  next type htype =>
    obtain ⟨min, hmin, h⟩ := bind_eq_ok.1 h
    obtain ⟨max, hmax, h⟩ := bind_eq_ok.1 h
    exact ⟨type, _, _, htype, admits_boundValue (mapError_eq_ok.1 hmin) type.admits_least,
      admits_boundValue (mapError_eq_ok.1 hmax) type.admits_greatest, h⟩

end ColumnDef

namespace SchemaBuilder.IsDeclared

variable {b b' : SchemaBuilder} {d : ColumnDef}

theorem start : SchemaBuilder.start.IsDeclared := by
  refine ⟨.start, ?_⟩
  intro n c hc
  obtain ⟨htype, hmin, hmax, -, -⟩ := column?_start hc
  refine ⟨?_, ?_, fun _ => ⟨htype, hmin, hmax⟩⟩
  · rw [htype, hmin]
    rfl
  · rw [htype, hmax]
    rfl

theorem addTo (hb : b.IsDeclared) (h : d.addTo b = .ok b') : b'.IsDeclared := by
  obtain ⟨type, min, max, -, hmin, hmax, hadd⟩ := ColumnDef.addTo_eq_ok h
  refine ⟨hb.1.column hadd, ?_⟩
  intro n c hc
  rcases column?_of_addColumnWithin hadd hc with hold | ⟨hname, htype, hcmin, hcmax, -, -⟩
  · exact hb.2 hold
  · refine ⟨?_, ?_, fun h => absurd h hname⟩
    · rwa [htype, hcmin]
    · rwa [htype, hcmax]

end SchemaBuilder.IsDeclared

namespace SchemaDef

variable {d : SchemaDef} {schema : Schema}

theorem exists_foldlM_of_build (h : d.build = .ok schema) :
    ∃ b : SchemaBuilder, d.columns.foldlM (fun b (c : ColumnDef) => c.addTo b) .start = .ok b ∧
      schema = b.build := by
  unfold build at h
  cases hb : d.columns.foldlM (fun b (c : ColumnDef) => c.addTo b) SchemaBuilder.start with
  | error e => simp [hb, Except.map] at h
  | ok b =>
    rw [hb, Except.map, Except.ok.injEq] at h
    exact ⟨b, rfl, h.symm⟩

/-- **The schema of a definition** is built from declared columns. -/
theorem build_eq_ok (h : d.build = .ok schema) :
    ∃ b : SchemaBuilder, b.IsDeclared ∧ schema = b.build := by
  obtain ⟨b, hb, hschema⟩ := exists_foldlM_of_build h
  exact ⟨b, foldlM_keeps SchemaBuilder.IsDeclared.addTo .start hb, hschema⟩

end SchemaDef

end BucketPlanner
