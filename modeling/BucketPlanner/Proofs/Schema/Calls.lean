import BucketPlanner.Proofs.Schema.Builder
import BucketPlanner.Proofs.Schema.Lookup
import BucketPlanner.Proofs.Text.Blank

/-!
# Schemas built by calls

A schema is built by calls that add a column, each with the domain of its type or with a domain of its
own. When all calls succeed, the schema has the time stamp and then the columns that were declared
(`SchemaBuilder.declarations_ofCalls`), and names, places and the map of names agree
(`SchemaBuilder.isBuiltBy_ofCalls`).
-/

namespace BucketPlanner

/-- What is declared of a column: its name, its type and the ends of its domain. -/
def Column.declaration (c : Column) : String × DataType × Value × Value := (c.name, c.type, c.min, c.max)

namespace SchemaBuilder

/-! ### Names -/

/-- A name in the form in which columns have it. -/
structure IsCanonical (name : String) : Prop where
  ne_empty : name ≠ ""
  trimmed : trim name = name
  not_isLower : ∀ c ∈ name.toList, ¬ c.isLower

theorem isCanonical_canonicalName {name : String} (h : canonicalName name ≠ "") :
    IsCanonical (canonicalName name) where
  ne_empty := h
  trimmed := by rw [canonicalName, trim_upperCase, trim_trim]
  not_isLower _ hc := not_isLower_of_mem_upperCase hc

/-- **The columns of a built schema** have names in canonical form. -/
theorem Built.isCanonical {b : SchemaBuilder} (hb : Built b) : ∀ c ∈ b.columns, IsCanonical c.name := by
  induction hb with
  | start =>
    intro c hc
    have hname : canonicalName Schema.timestampName = Schema.timestampName := by decide +kernel
    have hcanonical : IsCanonical (canonicalName Schema.timestampName) :=
      isCanonical_canonicalName (by decide +kernel)
    rw [hname] at hcanonical
    rwa [List.mem_singleton.1 hc]
  | @column b b' type name min max hb hadd ih =>
    rcases addColumnWithin_eq_ok hadd with ⟨-, -, rfl⟩ | ⟨hadmits, -, rfl⟩
    · exact ih
    · intro c hc
      rcases List.mem_append.1 hc with hold | hnew
      · exact ih c hold
      · rw [List.mem_singleton.1 hnew]
        exact isCanonical_canonicalName hadmits.named

/-! ### Calls -/

/-- A call that adds a column. -/
inductive Call
  | addColumn (type : DataType) (name : String)
  | addColumnWithin (type : DataType) (name : String) (min max : Value)

namespace Call

/-- The declared type. -/
def type : Call → DataType
  | addColumn type _ | addColumnWithin type .. => type

/-- The name as it is declared. -/
def name : Call → String
  | addColumn _ name | addColumnWithin _ name .. => name

/-- The declared domain: that of the type, if the call has none. -/
def domain : Call → Value × Value
  | addColumn type _ => (type.least, type.greatest)
  | addColumnWithin _ _ min max => (min, max)

/-- What the column of the call has of it. -/
def declaration (call : Call) : String × DataType × Value × Value :=
  (canonicalName call.name, call.type, call.domain)

/-- The call declares the time stamp. -/
def isTimestamp (call : Call) : Bool := canonicalName call.name == Schema.timestampName

/-- The effect of a call on a builder. -/
def apply (b : SchemaBuilder) : Call → Except (Failure SchemaError) SchemaBuilder
  | addColumn type name => b.addColumn type name
  | addColumnWithin type name min max => b.addColumnWithin type name min max

theorem apply_eq (b : SchemaBuilder) (call : Call) :
    apply b call = b.addColumnWithin call.type call.name call.domain.1 call.domain.2 := by
  cases call <;> rfl

end Call

/-- The builder that calls lead to, one after the other. -/
def ofCalls (calls : List Call) : Except (Failure SchemaError) SchemaBuilder :=
  calls.foldlM Call.apply start

variable {b b' : SchemaBuilder} {call : Call} {calls : List Call}

theorem Built.ofCalls (h : SchemaBuilder.ofCalls calls = .ok b) : b.Built :=
  foldlM_keeps (fun hb hcall => hb.column (Call.apply_eq _ _ ▸ hcall)) .start h

/-- A call adds what it declares, unless this is the time stamp. -/
theorem declarations_apply (h : call.apply b = .ok b') :
    b'.columns.map Column.declaration = b.columns.map Column.declaration ++
      ([call].filter (!·.isTimestamp)).map Call.declaration := by
  rw [Call.apply_eq] at h
  rcases addColumnWithin_eq_ok h with ⟨hname, -, rfl⟩ | ⟨hadmits, -, rfl⟩
  · simp [Call.isTimestamp, hname]
  · rw [List.map_append, List.map_singleton]
    simp [Call.isTimestamp, hadmits.notTimestamp, newColumn, Column.declaration, Call.declaration]

theorem declarations_foldlM (h : calls.foldlM Call.apply b = .ok b') :
    b'.columns.map Column.declaration = b.columns.map Column.declaration ++
      (calls.filter (!·.isTimestamp)).map Call.declaration := by
  induction calls generalizing b with
  | nil =>
    rw [List.foldlM_nil] at h
    rw [Except.ok.inj h]
    simp
  | cons call calls ih =>
    rw [List.foldlM_cons] at h
    obtain ⟨next, hnext, hrest⟩ := bind_eq_ok.1 h
    rw [ih hrest, declarations_apply hnext, List.append_assoc, ← List.map_append,
      ← List.filter_append, List.singleton_append]

/-- A call that declares the time stamp has its type. -/
theorem type_eq_ulong_of_apply (h : call.apply b = .ok b')
    (hname : canonicalName call.name = Schema.timestampName) : call.type = .ulong := by
  rw [Call.apply_eq] at h
  rcases addColumnWithin_eq_ok h with ⟨-, htype, -⟩ | ⟨hadmits, -⟩
  · exact htype
  · exact absurd hname hadmits.notTimestamp

/-- **The columns of a built schema** are the time stamp and the declared ones, in order. -/
theorem declarations_ofCalls (h : ofCalls calls = .ok b) :
    b.columns.map Column.declaration =
      (Schema.timestampName, DataType.ulong, DataType.ulong.least, DataType.ulong.greatest) ::
        (calls.filter (!·.isTimestamp)).map Call.declaration :=
  declarations_foldlM h

end SchemaBuilder

/-- What a schema has of the calls that it is built by. -/
structure Schema.IsBuiltBy (s : Schema) (calls : List SchemaBuilder.Call) : Prop where
  /-- The first column is the time stamp, with all values of its type. -/
  timestamp : ∃ c, s.column? 0 = some c ∧ c.name = timestampName ∧ c.type = .ulong ∧
    c.min = .uint 0 ∧ c.max = .uint 18446744073709551615
  /-- The other columns are the declared ones, in order. -/
  declared : s.columns.tail.map Column.declaration =
    (calls.filter (!·.isTimestamp)).map SchemaBuilder.Call.declaration
  /-- Columns know their places. -/
  placed : ∀ {n c}, s.column? n = some c → c.position = n
  /-- Names are not empty, have no blanks around them and no small letters. -/
  canonical : ∀ c ∈ s.columns, SchemaBuilder.IsCanonical c.name
  distinct : (s.columns.map Column.name).Nodup
  /-- Domains are of their columns' types and are not empty. -/
  domain : ∀ c ∈ s.columns,
    c.type.accepts c.min ∧ c.type.accepts c.max ∧ (c.min.compare? c.max).any Ordering.isLE
  /-- A name leads to the column that has it in upper case. -/
  found : ∀ {name n}, s.fieldIndex name = .ok n ↔ ∃ c, s.column? n = some c ∧ c.name = upperCase name
  /-- A name that no column has is unknown. -/
  unknown : ∀ {name e}, s.fieldIndex name = .error e ↔
    (∀ c ∈ s.columns, c.name ≠ upperCase name) ∧ e = .unknownColumn name
  /-- A map from the names to the places of the columns leads to the same columns. -/
  mapped : ∀ name, Ascending.find? (upperCase name) s.nameMap = (s.fieldIndex name).toOption

namespace SchemaBuilder

variable {b : SchemaBuilder} {calls : List Call}

/-- **A schema that calls built** has the columns that they declared, and each is found by its name. -/
theorem isBuiltBy_ofCalls (h : ofCalls calls = .ok b) : b.build.IsBuiltBy calls := by
  have hb := Built.ofCalls h
  have hplaced : ∀ {n c}, b.build.column? n = some c → c.position = n :=
    fun hc => (hb.isFormed hc).1.placed
  refine ⟨?_, ?_, hplaced, hb.isCanonical, hb.nodup, ?_, Schema.fieldIndex_eq_ok_iff hb.nodup,
    Schema.fieldIndex_eq_error_iff, Schema.find?_nameMap hb.nodup hplaced⟩
  · exact ⟨_, hb.column?_zero, rfl, rfl, rfl, rfl⟩
  · rw [List.map_tail, build, declarations_ofCalls h, List.tail_cons]
  · intro c hc
    obtain ⟨n, hn⟩ := List.getElem?_of_mem hc
    obtain ⟨-, hmin, hmax, hordered⟩ := (hb.isFormed hn).1
    exact ⟨hmin, hmax, hordered⟩

/-- Four calls for three columns. -/
theorem isBuiltBy_ofCalls_ages :
    let calls : List Call := [
      .addColumn .ulong " timestamp", .addColumnWithin .int " Age " (.int 0) (.int 120),
      .addColumn (.string 16) "näme", .addColumn .ulong "TimeStamp"]
    ∃ b, ofCalls calls = .ok b ∧ b.build.IsBuiltBy calls ∧
      b.build.columns.map Column.name = ["TIMESTAMP", "AGE", "NäME"] := by
  intro calls
  have hbuilt : (ofCalls calls).toOption.any fun b =>
      b.build.columns.map Column.name = ["TIMESTAMP", "AGE", "NäME"] := by decide +kernel
  obtain ⟨b, hb, hnames⟩ := exists_ok_of_any hbuilt
  exact ⟨b, hb, isBuiltBy_ofCalls hb, by simpa using hnames⟩

end SchemaBuilder

end BucketPlanner
