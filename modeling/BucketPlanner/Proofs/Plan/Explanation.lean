import BucketPlanner.Plan.Explanation
import BucketPlanner.Proofs.Bucket.RunEntries
import BucketPlanner.Proofs.Plan.Operations

/-!
# Explanations of plans

An operation knows its index by an identifier, and an explanation finds the column by it. For a schema
and a log that a run leads to, the explanation names the right column:

* `Predicate.IsWorded` and `Minterm.IsWorded`: the texts of predicates and minterms;
* `Indexing.IsColumnOf`: the one column that an index is kept on;
* `Indexing.Reachable.exists_isColumnOf`: the index chosen for a minterm is kept on a column that the
  minterm compares;
* `Indexing.Reachable.explains_plan`: the explanation of a plan has a text for each minterm and for each
  operation, and that of a range names the column of its index.
-/

namespace BucketPlanner

/-! ### The wording of minterms -/

/-- The text of a predicate has the name of the column, or the place of one that is not there. -/
inductive Predicate.IsWorded (schema : Schema) (p : Predicate) : String → Prop
  | named {c : Column} (hc : schema.column? p.field = some c) :
    IsWorded schema p s!"{c.name} {p.comparison.symbol} {p.value}"
  | placed (hc : schema.column? p.field = none) :
    IsWorded schema p s!"#{p.field} {p.comparison.symbol} {p.value}"

/-- The text of a minterm has those of its predicates, with "AND" between them. -/
inductive Minterm.IsWorded (schema : Schema) : Minterm → String → Prop
  | empty : IsWorded schema [] "TRUE"
  | joined {m : Minterm} {texts : List String} (hne : m ≠ [])
      (htexts : List.Forall₂ (fun p text => p.IsWorded schema text) m texts) :
    IsWorded schema m (String.intercalate " AND " texts)

theorem Predicate.isWorded_describe (schema : Schema) (p : Predicate) :
    p.IsWorded schema (p.describe schema) := by
  unfold describe
  split
  next hc => exact .named hc
  next hc => exact .placed hc

theorem Minterm.isWorded_describe (schema : Schema) (m : Minterm) :
    Minterm.IsWorded schema m (describe m schema) := by
  cases m with
  | nil => exact .empty
  | cons p ps =>
    have htexts : List.Forall₂ (fun q text => q.IsWorded schema text) (p :: ps)
        ((p :: ps).map fun q => q.describe schema) := by
      rw [List.forall₂_map_right_iff]
      exact List.forall₂_same.2 fun q _ => q.isWorded_describe schema
    rw [describe, List.isEmpty_cons, if_neg Bool.false_ne_true]
    exact .joined (List.cons_ne_nil p ps) htexts

/-! ### The origin of ranges -/

namespace Minterm

variable {schema : Schema} {costs : IndexCosts} {m : Minterm} {id : IndexId} {range : KeyRange}

/-- The index chosen for a minterm is that of a column in a predicate with a range relation. -/
theorem exists_column_of_outcome (h : outcome schema costs m = .ok (.indexRange id range)) :
    ∃ p ∈ m, p.comparison ≠ .neq ∧ ∃ c, schema.column? p.field = some c ∧ c.indexId? = some id := by
  obtain ⟨-, -, p, hp, r, c, hc, hid, hrange, -⟩ := isValid_of_outcome h
  refine ⟨p, hp, ?_, c, hc, hid⟩
  intro hneq
  simp [hneq, Comparison.isRange] at hrange

end Minterm

namespace Expression

variable {schema : Schema} {costs : IndexCosts} {e : Expression} {plan : Plan} {i : Nat}
  {id : IndexId} {range : KeyRange}

/-- A plan is about the schema and the expression that it was made for. -/
theorem eq_of_plan (h : (e.plan schema costs).result = .ok plan) :
    plan.schema = schema ∧ plan.expression = e := by
  rw [plan_result] at h
  cases hcoverage : coverage schema costs e with
  | error error => simp [hcoverage, Except.map] at h
  | ok c =>
    rw [hcoverage, Except.map, Except.ok.injEq] at h
    rw [← h]
    exact ⟨rfl, rfl⟩

/-- **A range in a plan** was chosen for the satisfiable minterm that has its turn. -/
theorem exists_outcome_of_op (h : (e.plan schema costs).result = .ok plan)
    (hop : plan.ops[i]? = some (.indexRange id range)) :
    ∃ m, (e.filter fun m => !Minterm.isUnsatisfiable schema costs m)[i]? = some m ∧
      Minterm.outcome schema costs m = .ok (.indexRange id range) := by
  rcases plan_cases h with ⟨hfull, -⟩ | ⟨hops, hall⟩
  · have hmem := List.mem_of_getElem? hop
    simp [hfull] at hmem
  · have hcontributes := forall₂_contributes hall
    rw [← hops] at hcontributes
    obtain ⟨m, hm, id', range', ho, heq⟩ := exists_getElem?_of_forall₂ hcontributes.flip hop
    obtain ⟨rfl, rfl⟩ := ScanOp.indexRange.inj heq
    exact ⟨m, hm, ho⟩

end Expression

/-! ### The columns of indexes -/

namespace Indexing

/-- A column, given with its place, is the one that an index is kept on: no other has the identifier. -/
def IsColumnOf (s : Indexing) (id : IndexId) (n : Nat) (c : Column) : Prop :=
  s.schema.column? n = some c ∧ c.indexId? = some id ∧
    ∀ n' c', s.schema.column? n' = some c' → c'.indexId? = some id → n' = n

variable {s : Indexing} {id : IndexId} {n : Nat} {c : Column} {m : Minterm} {range : KeyRange}
  {e : Expression} {plan : Plan}

theorem Consistent.isColumnOf (hs : s.Consistent) (hc : s.schema.column? n = some c)
    (hid : c.indexId? = some id) : s.IsColumnOf id n c := by
  refine ⟨hc, hid, fun n' c' hc' hid' => ?_⟩
  obtain ⟨state, hstate, rfl⟩ := Option.map_eq_some_iff.1 hid
  obtain ⟨state', hstate', hsame⟩ := Option.map_eq_some_iff.1 hid'
  exact (hs.hasIndex_unique ⟨hc', hstate'⟩ ⟨hc, hstate⟩ hsame).1

/-- **The text of a range** names the column of the index. -/
theorem IsColumnOf.ofOp (hs : s.Consistent) (h : s.IsColumnOf id n c) (range : KeyRange) :
    Explanation.ofOp s.schema (.indexRange id range) =
      s!"index_range({c.name} via index {id}, {range})" := by
  obtain ⟨hc, hid, -⟩ := h
  obtain ⟨state, hstate, rfl⟩ := Option.map_eq_some_iff.1 hid
  rw [Explanation.ofOp, hs.columnOfIndex? ⟨hc, hstate⟩, Option.map_some, Option.getD_some]

/-- **The index chosen for a minterm** is kept on a column that the minterm compares. -/
theorem Reachable.exists_isColumnOf (hs : s.Reachable)
    (h : Minterm.outcome s.schema s.log.costs m = .ok (.indexRange id range)) :
    ∃ n c, s.IsColumnOf id n c ∧ ∃ p ∈ m, p.field = n ∧ p.comparison ≠ .neq := by
  obtain ⟨p, hp, hneq, c, hc, hid⟩ := Minterm.exists_column_of_outcome h
  exact ⟨p.field, c, hs.consistent.isColumnOf hc hid, p, hp, rfl, hneq⟩

/-- **An explanation names the right columns.** It has the text of each minterm and of each operation,
in order, and that of a full scan says so. The operation with a range comes from the satisfiable minterm
that has its turn. Exactly one column has the index, the text names it, and the minterm compares it by a
relation other than inequality. -/
theorem Reachable.explains_plan (hs : s.Reachable)
    (h : (e.plan s.schema s.log.costs).result = .ok plan) :
    ∃ minterms operations,
      Explanation.ofPlan plan = .accepted plan.strategy minterms operations ∧
      List.Forall₂ (fun m text => text = Minterm.describe m s.schema ∧
        Minterm.IsWorded s.schema m text) e minterms ∧
      List.Forall₂ (fun op text => text = Explanation.ofOp s.schema op) plan.ops operations ∧
      (∀ i : Nat, plan.ops[i]? = some .fullScan → operations[i]? = some "full_scan") ∧
      ∀ (i : Nat) id range, plan.ops[i]? = some (ScanOp.indexRange id range) →
        ∃ m n c,
          (e.filter fun m => !Minterm.isUnsatisfiable s.schema s.log.costs m)[i]? = some m ∧
          Minterm.outcome s.schema s.log.costs m = .ok (.indexRange id range) ∧
          s.IsColumnOf id n c ∧
          operations[i]? = some s!"index_range({c.name} via index {id}, {range})" ∧
          ∃ p ∈ m, p.field = n ∧ p.comparison ≠ .neq := by
  obtain ⟨hschema, hexpression⟩ := Expression.eq_of_plan h
  refine ⟨_, _, rfl, ?_, ?_, ?_, ?_⟩
  · rw [hschema, hexpression, List.forall₂_map_right_iff]
    exact List.forall₂_same.2 fun m _ => ⟨rfl, m.isWorded_describe s.schema⟩
  · rw [hschema, List.forall₂_map_right_iff]
    exact List.forall₂_same.2 fun _ _ => rfl
  · intro i hop
    rw [List.getElem?_map, hop, Option.map_some, Explanation.ofOp]
  · intro i id range hop
    obtain ⟨m, hm, ho⟩ := Expression.exists_outcome_of_op h hop
    obtain ⟨n, c, hcolumn, hp⟩ := hs.exists_isColumnOf ho
    refine ⟨m, n, c, hm, ho, hcolumn, ?_, hp⟩
    rw [List.getElem?_map, hop, Option.map_some, hschema, hcolumn.ofOp hs.consistent]

/-- A contradiction in front of a comparison of the time stamp: the text of the only operation names the
time stamp. -/
theorem explains_plan_timestamp :
    let s := (start SchemaBuilder.start.build).run [.addIndex "timestamp" (.ofNat 10)]
    let e : Expression := [[⟨0, .lt, .uint 30⟩, ⟨0, .gt, .uint 50⟩], [⟨0, .eq, .uint 35⟩]]
    s.Reachable ∧ ∃ plan minterms operations, (e.plan s.schema s.log.costs).result = .ok plan ∧
      Explanation.ofPlan plan = .accepted plan.strategy minterms operations ∧
      operations[0]? = some "index_range(TIMESTAMP via index 0, [3, 3])" := by
  intro s e
  have hs : s.Reachable := ⟨_, _, .start, rfl⟩
  have hops : (e.plan s.schema s.log.costs).result.toOption.any
      (·.ops == [.indexRange ⟨0⟩ (.point (.clamp 3))]) := by
    decide +kernel
  obtain ⟨plan, hplan, hops⟩ := exists_ok_of_any hops
  rw [beq_iff_eq] at hops
  obtain ⟨minterms, operations, hexplanation, -, -, -, hranges⟩ := hs.explains_plan hplan
  obtain ⟨-, n, c, -, -, ⟨hc, -⟩, htext, -⟩ :=
    hranges 0 ⟨0⟩ (.point (.clamp 3)) (by rw [hops]; rfl)
  have hnames : ∀ c ∈ s.schema.columns, c.name = "TIMESTAMP" := by decide +kernel
  refine ⟨hs, plan, minterms, operations, hplan, hexplanation, ?_⟩
  rw [htext, hnames c (List.mem_of_getElem? hc)]
  rfl

end Indexing

end BucketPlanner
