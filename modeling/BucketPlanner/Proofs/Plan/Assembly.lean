import BucketPlanner.Plan.Basic
import BucketPlanner.Proofs.Plan.Choice

/-!
# What a plan consists of

The coverage of an expression is put together from those of its minterms (`Expression.coverage`):

* `Expression.coverage_append`: the coverage of a disjunction is that of its sides, of which the
  second is not looked at when the first one has an error or covers everything;
* `Expression.plan_cases`: a plan is a full scan, or it consists of what each minterm contributes, the
  range of the index chosen for it or nothing when it is unsatisfiable;
* `Expression.exists_plan`: there is a plan when every minterm has an outcome.
-/

namespace BucketPlanner

/-! ### Coverage of disjunctions -/

namespace Coverage

variable {first second third : Except PlanError Coverage} {c : Coverage} {error : PlanError}

/-- The records of either coverage. -/
def union : Coverage → Coverage → Coverage
  | ranges rs, ranges rs' => ranges (rs ++ rs')
  | _, _ => everything

theorem union_assoc (a b c : Coverage) : (a.union b).union c = a.union (b.union c) := by
  cases a <;> cases b <;> cases c <;> simp [union]

theorem withRange_eq_union (id : IndexId) (range : KeyRange) :
    withRange id range = union (ranges [(id, range)]) := by
  funext c
  cases c <;> rfl

theorem ops_everything : everything.ops = [.fullScan] := rfl

theorem ops_ranges_append (rs rs' : List (IndexId × KeyRange)) :
    (ranges (rs ++ rs')).ops = (ranges rs).ops ++ (ranges rs').ops := List.map_append

/-- Ranges are not scanned by a full scan. -/
theorem ops_ranges_ne (rs : List (IndexId × KeyRange)) : (ranges rs).ops ≠ [.fullScan] := by
  cases rs <;> simp [ops]

/-- The coverage of two sides, one after the other. An error of the first side, or one that covers
everything, ends it. -/
def orElse : Except PlanError Coverage → Except PlanError Coverage → Except PlanError Coverage
  | .ok (.ranges rs), second => second.map (ranges rs).union
  | first, _ => first

@[simp] theorem orElse_nil : orElse (.ok (.ranges [])) second = second := by
  cases second with
  | error e => rfl
  | ok c => cases c <;> rfl

theorem orElse_assoc : orElse (orElse first second) third = orElse first (orElse second third) := by
  rcases first with _ | (_ | rs)
  · rfl
  · rfl
  · rcases second with _ | (_ | rs')
    · rfl
    · rfl
    · cases third with
      | error e => rfl
      | ok c => exact congrArg Except.ok (union_assoc (ranges rs) (ranges rs') c)

theorem orElse_eq_error (h : orElse first second = .error error) :
    first = .error error ∨ second = .error error := by
  rcases first with e | (_ | rs)
  · exact Or.inl h
  · simp [orElse] at h
  · cases second with
    | error e => exact Or.inr h
    | ok c => simp [orElse, Except.map] at h

theorem orElse_eq_ok (h : orElse first second = .ok c) :
    first = .ok .everything ∧ c = .everything ∨
      ∃ rs c', first = .ok (.ranges rs) ∧ second = .ok c' ∧ c = (ranges rs).union c' := by
  rcases first with e | (_ | rs)
  · simp [orElse] at h
  · exact Or.inl ⟨rfl, (Except.ok.inj h).symm⟩
  · cases second with
    | error e => simp [orElse, Except.map] at h
    | ok c' => exact Or.inr ⟨rs, c', rfl, rfl, (Except.ok.inj h).symm⟩

end Coverage

/-- The coverage that an outcome amounts to. -/
def MintermOutcome.coverage : MintermOutcome → Coverage
  | unsatisfiable => .ranges []
  | noIndex => .everything
  | indexRange id range => .ranges [(id, range)]

namespace Minterm

variable {schema : Schema} {costs : IndexCosts} {m : Minterm} {c : Coverage} {error : PlanError}

/-- The coverage of a minterm. -/
def coverage (schema : Schema) (costs : IndexCosts) (m : Minterm) : Except PlanError Coverage :=
  (outcome schema costs m).map MintermOutcome.coverage

theorem coverage_eq_ok :
    coverage schema costs m = .ok c ↔ ∃ o, outcome schema costs m = .ok o ∧ o.coverage = c := by
  unfold coverage
  cases outcome schema costs m <;> simp [Except.map]

theorem coverage_eq_error :
    coverage schema costs m = .error error ↔ outcome schema costs m = .error error := by
  unfold coverage
  cases outcome schema costs m <;> simp [Except.map]

/-- The operations that a minterm contributes to a plan of index ranges. -/
def contribution (schema : Schema) (costs : IndexCosts) (m : Minterm) : List ScanOp :=
  match m.outcome schema costs with
  | .ok (.indexRange id range) => [.indexRange id range]
  | _ => []

end Minterm

namespace Expression

variable {schema : Schema} {costs : IndexCosts} {e : Expression} {error : PlanError}

/-- The coverage of an expression: its minterms, one after the other. -/
def coverage (schema : Schema) (costs : IndexCosts) (e : Expression) : Except PlanError Coverage :=
  e.foldr (fun m rest => Coverage.orElse (Minterm.coverage schema costs m) rest) (.ok (.ranges []))

theorem coverage_cons (schema : Schema) (costs : IndexCosts) (m : Minterm) (ms : Expression) :
    coverage schema costs (m :: ms) =
      Coverage.orElse (Minterm.coverage schema costs m) (coverage schema costs ms) := rfl

/-- **The coverage of a disjunction** is that of its sides, one after the other. -/
theorem coverage_append (schema : Schema) (costs : IndexCosts) (e e' : Expression) :
    coverage schema costs (e ++ e') =
      Coverage.orElse (coverage schema costs e) (coverage schema costs e') := by
  induction e with
  | nil => exact Coverage.orElse_nil.symm
  | cons m ms ih => rw [List.cons_append, coverage_cons, ih, ← Coverage.orElse_assoc, coverage_cons]

/-- Going through the minterms of an expression finds its coverage, wherever it starts. -/
theorem coverage_assemble (schema : Schema) (costs : IndexCosts) (position : Nat) (e : Expression) :
    (assemble schema costs position e).coverage = coverage schema costs e := by
  induction e generalizing position with
  | nil => rfl
  | cons m ms ih =>
    rw [coverage_cons, Minterm.coverage]
    unfold assemble
    split
    next error hm => simp only [hm, Except.map, Coverage.orElse]
    next hm => simp only [hm, Except.map, MintermOutcome.coverage, Coverage.orElse]
    next hm =>
      simp only [hm, Except.map, MintermOutcome.coverage, Coverage.orElse_nil]
      exact ih (position + 1)
    next id range hm =>
      simp only [hm, ih (position + 1), Except.map, MintermOutcome.coverage, Coverage.orElse,
        Coverage.withRange_eq_union]

/-- An error is that of a minterm. -/
theorem coverage_eq_error (h : coverage schema costs e = .error error) :
    ∃ m ∈ e, Minterm.outcome schema costs m = .error error := by
  induction e with
  | nil => simp [coverage] at h
  | cons m ms ih =>
    rw [List.exists_mem_cons_iff]
    rw [coverage_cons] at h
    exact (Coverage.orElse_eq_error h).imp Minterm.coverage_eq_error.1 ih

/-- Everything is covered because of a minterm without an index. -/
theorem coverage_eq_everything (h : coverage schema costs e = .ok .everything) :
    ∃ m ∈ e, Minterm.outcome schema costs m = .ok .noIndex := by
  induction e with
  | nil => simp [coverage] at h
  | cons m ms ih =>
    rw [List.exists_mem_cons_iff]
    rw [coverage_cons] at h
    rcases Coverage.orElse_eq_ok h with ⟨hm, -⟩ | ⟨rs, c, -, hms, hc⟩
    · obtain ⟨o, ho, hcoverage⟩ := Minterm.coverage_eq_ok.1 hm
      cases o with
      | noIndex => exact Or.inl ho
      | unsatisfiable | indexRange => simp [MintermOutcome.coverage] at hcoverage
    · cases c with
      | everything => exact Or.inr (ih hms)
      | ranges rs' => simp [Coverage.union] at hc

/-- **Ranges cover an expression** by what its minterms contribute, each of which has an index or is
unsatisfiable. -/
theorem coverage_eq_ranges {rs : List (IndexId × KeyRange)}
    (h : coverage schema costs e = .ok (.ranges rs)) :
    (Coverage.ranges rs).ops = e.flatMap (Minterm.contribution schema costs) ∧
      ∀ m ∈ e, ∃ o, Minterm.outcome schema costs m = .ok o ∧ o ≠ .noIndex := by
  induction e generalizing rs with
  | nil =>
    rw [coverage, List.foldr_nil, Except.ok.injEq, Coverage.ranges.injEq] at h
    rw [← h]
    exact ⟨rfl, by simp⟩
  | cons m ms ih =>
    rw [coverage_cons] at h
    rcases Coverage.orElse_eq_ok h with ⟨-, hc⟩ | ⟨rs', c, hm, hms, hc⟩
    · simp at hc
    · cases c with
      | everything => simp [Coverage.union] at hc
      | ranges rest =>
        obtain ⟨hrest, hall⟩ := ih hms
        obtain ⟨o, ho, hcoverage⟩ := Minterm.coverage_eq_ok.1 hm
        have hne : o ≠ .noIndex := by
          rintro rfl
          simp [MintermOutcome.coverage] at hcoverage
        have hops : (Coverage.ranges rs').ops = Minterm.contribution schema costs m := by
          rw [← hcoverage, Minterm.contribution, ho]
          cases o with
          | noIndex => exact absurd rfl hne
          | unsatisfiable | indexRange => rfl
        refine ⟨?_, List.forall_mem_cons.2 ⟨⟨o, ho, hne⟩, hall⟩⟩
        rw [List.flatMap_cons, ← hops, ← hrest, hc]
        exact Coverage.ops_ranges_append rs' rest

/-- The plan has the operations of the coverage. -/
theorem plan_result (schema : Schema) (costs : IndexCosts) (e : Expression) :
    (e.plan schema costs).result =
      (coverage schema costs e).map fun coverage => ⟨schema, e, coverage.ops⟩ := by
  rw [← coverage_assemble schema costs 0 e]
  unfold Expression.plan
  cases hcoverage : (assemble schema costs 0 e).coverage <;> simp only [hcoverage] <;> rfl

/-- **A plan is one full scan**, because of a minterm without an index, **or it consists of what the
minterms contribute.** -/
theorem plan_cases {plan : Plan} (h : (e.plan schema costs).result = .ok plan) :
    (plan.ops = [.fullScan] ∧ ∃ m ∈ e, Minterm.outcome schema costs m = .ok .noIndex) ∨
      plan.ops = e.flatMap (Minterm.contribution schema costs) ∧
        ∀ m ∈ e, ∃ o, Minterm.outcome schema costs m = .ok o ∧ o ≠ .noIndex := by
  rw [plan_result] at h
  cases hcoverage : coverage schema costs e with
  | error error => simp [hcoverage, Except.map] at h
  | ok c =>
    rw [hcoverage, Except.map, Except.ok.injEq] at h
    rw [← h]
    cases c with
    | everything => exact Or.inl ⟨rfl, coverage_eq_everything hcoverage⟩
    | ranges rs => exact Or.inr (coverage_eq_ranges hcoverage)

/-- **An error of planning** is that of a minterm. -/
theorem plan_eq_error (h : (e.plan schema costs).result = .error error) :
    ∃ m ∈ e, Minterm.outcome schema costs m = .error error := by
  rw [plan_result] at h
  cases hcoverage : coverage schema costs e with
  | ok c => simp [hcoverage, Except.map] at h
  | error error' =>
    rw [hcoverage, Except.map, Except.error.injEq] at h
    exact coverage_eq_error (h ▸ hcoverage)

theorem exists_plan (h : ∀ m ∈ e, ∃ o, Minterm.outcome schema costs m = .ok o) :
    ∃ plan, (e.plan schema costs).result = .ok plan := by
  cases hplan : (e.plan schema costs).result with
  | ok plan => exact ⟨plan, rfl⟩
  | error error =>
    obtain ⟨m, hm, herror⟩ := plan_eq_error hplan
    obtain ⟨o, ho⟩ := h m hm
    simp [ho] at herror

/-- A minterm whose predicates all give ranges with a record's keys contributes such a range, unless
the plan is one full scan. -/
theorem plan_of_keys {plan : Plan} {m : Minterm} {key : IndexId → Option Key}
    (h : (e.plan schema costs).result = .ok plan) (hm : m ∈ e)
    (hkeys : ∀ p ∈ m, ∀ {id range}, p.Gives schema id range → ∃ k ∈ key id, k ∈ range) :
    plan.ops = [.fullScan] ∨
      plan.ops = e.flatMap (Minterm.contribution schema costs) ∧
        ∃ id range, Minterm.contribution schema costs m = [.indexRange id range] ∧
          ∃ k ∈ key id, k ∈ range := by
  rcases plan_cases h with ⟨hfull, -⟩ | ⟨hops, hall⟩
  · exact Or.inl hfull
  · obtain ⟨o, ho, hne⟩ := hall m hm
    rcases Minterm.outcome_of_keys hkeys ho with rfl | ⟨id, range, rfl, hmem⟩
    · exact absurd rfl hne
    · exact Or.inr ⟨hops, id, range, by rw [Minterm.contribution, ho], hmem⟩

end Expression

end BucketPlanner
