import BucketPlanner.Proofs.Store.Opened

/-!
# Records in the domains of their columns

Opening a store compares the literals of records with the types of the columns and not with their
domains. So the records of an opened store lie in the domains exactly when the literals of the
configuration do, on the indexed columns whose domain is not that of their type
(`Store.isInDomain_iff`); and there are stores with records outside (`Store.exists_not_isInDomain`).
-/

namespace BucketPlanner

/-- The domain of a column holds every literal of its type: it is the whole domain of the type, and
literals are confined to it, as those of the floating-point type of 32 bits are not. -/
def Column.HoldsLiterals (c : Column) : Prop :=
  c.min = c.type.least ∧ c.max = c.type.greatest ∧ c.type ≠ .float

instance (c : Column) : Decidable c.HoldsLiterals := inferInstanceAs (Decidable (_ ∧ _ ∧ _))

/-- The members of an object. -/
def Json.members : Json → List (String × Json)
  | .object members => members
  | _ => []

/-- The literals that records give for indexed columns lie in the domains, where these do not hold
every literal. -/
def Schema.Fits (schema : Schema) (jsons : List Json) : Prop :=
  ∀ json ∈ jsons, ∀ c ∈ schema.columns, c.isIndexed → ¬ c.HoldsLiterals →
    ∀ literal ∈ memberFor? json.members c, ∀ v ∈ c.type.valueOfJson? literal, c.Contains v

instance (schema : Schema) (jsons : List Json) : Decidable (schema.Fits jsons) := by
  unfold Schema.Fits
  infer_instance

/-- All records of a store lie in the domains of the indexed columns. -/
def Store.IsInDomain (store : Store) : Prop :=
  ∀ record ∈ store.records, store.schema.Contains record

instance (store : Store) : Decidable store.IsInDomain := by
  unfold Store.IsInDomain
  infer_instance

theorem Column.HoldsLiterals.contains {c : Column} {json : Json} {v : Value}
    (h : c.HoldsLiterals) (hindexable : c.type.isIndexable)
    (hv : c.type.valueOfJson? json = some v) : c.Contains v := by
  obtain ⟨hmin, hmax, hfloat⟩ := h
  rw [Contains, hmin, hmax]
  exact DataType.covers_of_valueOfJson? hindexable hfloat hv

/-- The present time lies in the domain of the time stamp. -/
theorem Column.IsDeclared.contains_now {c : Column} (h : c.IsDeclared)
    (hname : c.name = Schema.timestampName) (now : UInt64) : c.Contains (.uint now) := by
  obtain ⟨-, hmin, hmax⟩ := h.timestamp hname
  rw [Contains, hmin, hmax]
  exact DataType.covers_uint now

namespace Store

variable {store : Store} {clock : Nat → UInt64} {jsons : List Json}

theorem IsOpened.isInDomain (h : store.IsOpened clock jsons) (hfits : store.schema.Fits jsons) :
    store.IsInDomain := by
  rintro record hrecord ⟨c, v⟩ hmem hindexed
  obtain ⟨n, hn⟩ := List.getElem?_of_mem hmem
  obtain ⟨hc, hv⟩ := List.getElem?_zip_eq_some.1 hn
  obtain ⟨members, now, hjson, hread⟩ := h.readField hrecord
  obtain ⟨state, hstate⟩ := Option.isSome_iff_exists.1 hindexed
  rcases Schema.readField_eq_ok_iff.1 (hread hc hv) with ⟨literal, hliteral, hvalue⟩ | ⟨-, hname, rfl⟩
  · by_cases hholds : c.HoldsLiterals
    · exact hholds.contains (h.indexed hc hstate).1 hvalue
    · exact hfits _ hjson c (List.mem_of_getElem? hc) hindexed hholds literal hliteral v hvalue
  · exact (h.declared hc).contains_now hname now

theorem IsOpened.fits (h : store.IsOpened clock jsons) (hdom : store.IsInDomain) :
    store.schema.Fits jsons := by
  intro json hjson c hc hindexed _ literal hliteral v hvalue
  obtain ⟨i, hi⟩ := List.getElem?_of_mem hjson
  obtain ⟨record, hrecord, hread⟩ :=
    exists_mem_of_forall₂ h.read.flip (List.mk_mem_zipIdx_iff_getElem?.2 hi)
  obtain ⟨members, rfl, -, hfields⟩ := Schema.readRecord_eq_ok_iff.1 hread
  obtain ⟨v', hmem, hv'⟩ : ∃ v', (c, v') ∈ store.schema.columns.zip record ∧
      Schema.readField (clock i) members c = .ok v' := by
    obtain ⟨n, hn⟩ := List.getElem?_of_mem hc
    obtain ⟨v', hget, hv'⟩ := exists_getElem?_of_forall₂ hfields hn
    exact ⟨v', List.mem_of_getElem? (List.getElem?_zip_eq_some.2 ⟨hn, hget⟩), hv'⟩
  -- Reading the field again gives the stored value.
  have hsame : Schema.readField (clock i) members c = .ok v :=
    Schema.readField_eq_ok_iff.2 (Or.inl ⟨literal, hliteral, hvalue⟩)
  rw [hsame, Except.ok.injEq] at hv'
  exact hv' ▸ hdom record hrecord _ hmem hindexed

/-- **The records of an opened store lie in the domains** exactly when the literals that the
configuration gives for them do. -/
theorem isInDomain_iff {config : Config} (h : (ofConfig config clock).result = .ok store) :
    store.IsInDomain ↔ store.schema.Fits config.records :=
  ⟨(ofConfig_eq_ok h).fits, (ofConfig_eq_ok h).isInDomain⟩

end Store

/-- A configuration with one indexed column beside the time stamp, and one record. -/
def Config.ofColumn (name type : String) (min max : Option Json) (literal : Json) : Config where
  logLevel := "warn"
  schema := ⟨[{
    name, typeName := type, size := none, min, max, index := some ⟨IndexDef.defaultBucketSize⟩ }]⟩
  records := [.object [(name, literal), ("timestamp", .number (.natural 7))]]

namespace Store

/-- An age in its domain. -/
theorem isInDomain_iff_age :
    let config := Config.ofColumn "age" "int" (some (.number (.natural 0)))
      (some (.number (.natural 120))) (.number (.natural 35))
    ∃ store, (ofConfig config fun _ => 0).result = .ok store ∧ store.IsInDomain ∧
      store.schema.Fits config.records := by
  intro config
  have hopen : (ofConfig config fun _ => 0).result.toOption.any fun store => decide store.IsInDomain := by
    decide +kernel
  obtain ⟨store, hstore, hdom⟩ := exists_ok_of_any hopen
  rw [decide_eq_true_eq] at hdom
  exact ⟨store, hstore, hdom, (isInDomain_iff hstore).1 hdom⟩

/-- Records outside the domain: an age above the declared maximum, and a number too large for its
type of 32 bits. -/
theorem exists_not_isInDomain :
    let opensOutside (config : Config) : Prop :=
      ∃ store, (ofConfig config fun _ => 0).result = .ok store ∧ ¬ store.IsInDomain
    opensOutside (.ofColumn "age" "int" (some (.number (.natural 0)))
        (some (.number (.natural 120))) (.number (.natural 200))) ∧
      opensOutside (.ofColumn "level" "float" none none
        (.number (.real (.ofQuotient false (10 ^ 39) 1) (by decide +kernel)))) := by
  intro opensOutside
  have hopen : ∀ {config}, ((ofConfig config fun _ => 0).result.toOption.any fun store =>
      !decide store.IsInDomain) → opensOutside config := by
    intro config h
    obtain ⟨store, hstore, hdom⟩ := exists_ok_of_any h
    exact ⟨store, hstore, by simpa using hdom⟩
  exact ⟨hopen (by decide +kernel), hopen (by decide +kernel)⟩

end Store

end BucketPlanner
