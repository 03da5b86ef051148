import BucketPlanner.Proofs.Json.Written
import BucketPlanner.Proofs.Lists
import BucketPlanner.Proofs.Plan.Report
import BucketPlanner.Proofs.Store.Covered

/-!
# Answers of a store

On an opened store a request fails when its expression cannot be bound, and for no other reason: a
bound expression is planned, explained and answered, and no failure is counted
(`Store.answers_iff_binds`).
-/

namespace BucketPlanner

/-! ### What answers say -/

namespace Json

/-- The answer to a request for an explanation says, in JSON and as text, that there is a plan. -/
structure SaysAccepted (response : Json) : Prop where
  explained : ∃ explanation, response.member? "explain" = some explanation ∧
    explanation.member? "accepted" = some (.bool true) ∧
    explanation.member? "rejection_reason" = some .null ∧
    explanation.member? "rejection_code" = some .null
  worded : ∃ rest, response.member? "text" =
    some (.text ("=== EXPLAIN PLAN ===\nStatus: ACCEPTED\n" ++ rest))

/-- The answer to a request for a plan counts no failure of planning. -/
def CountsNoFailure (response : Json) : Prop :=
  ∃ metrics, response.member? "metrics" = some metrics ∧
    metrics.member? "planning_failures" = some (.number (.natural 0))

end Json

namespace Explanation

theorem exists_render_ofPlan (plan : Plan) :
    ∃ rest, (ofPlan plan).render = "=== EXPLAIN PLAN ===\nStatus: ACCEPTED\n" ++ rest := by
  obtain ⟨more, hlines⟩ : ∃ more,
      (ofPlan plan).lines = "=== EXPLAIN PLAN ===" :: "Status: ACCEPTED" :: more := ⟨_, rfl⟩
  refine ⟨String.join (more.map (· ++ "\n")), ?_⟩
  rw [render, hlines, List.map_cons, List.map_cons, String.join_cons, String.join_cons,
    ← String.append_assoc]
  rfl

/-- **The explanation of a plan** says that it was accepted. -/
theorem saysAccepted_ofPlan (plan : Plan) : (Json.ofMembers [
    ("explain", (ofPlan plan).toJson), ("text", .text (ofPlan plan).render)]).SaysAccepted := by
  have hnames : ["accepted", "strategy", "minterms", "operations", "rejection_reason",
      "rejection_code"].Nodup := by decide
  obtain ⟨rest, hrest⟩ := exists_render_ofPlan plan
  refine ⟨⟨(ofPlan plan).toJson, Json.member?_ofMembers (by simp) (by simp), ?_, ?_, ?_⟩, rest, ?_⟩
  · exact Json.member?_ofMembers hnames (by simp)
  · exact Json.member?_ofMembers hnames (by simp)
  · exact Json.member?_ofMembers hnames (by simp)
  · rw [← hrest]
    exact Json.member?_ofMembers (by simp) (by simp)

end Explanation

namespace Store

variable {store : Store} {e : Expression} {request : Json} {plan : Plan} {error : CommandError}

/-- The answer to a request whose expression has a plan. -/
theorem planResponse_of_plan (hbind : store.bindRequest request = .ok e)
    (hplan : (store.plan e).result = .ok plan) :
    (store.planResponse request).result = .ok (.ofMembers [
      ("ops", ScanOp.listToJson plan.ops), ("plan", .text plan.render),
      ("metrics", (store.plan e).metrics.toJson)]) := by
  simp only [planResponse, hbind, hplan]

/-- The explanation of a request whose expression has a plan. -/
theorem explainResponse_of_plan (hbind : store.bindRequest request = .ok e)
    (hplan : (store.plan e).result = .ok plan) :
    (store.explainResponse request).result = .ok (.ofMembers [
      ("explain", (Explanation.ofPlan plan).toJson),
      ("text", .text (Explanation.ofPlan plan).render)]) := by
  simp only [explainResponse, hbind, hplan, Explanation.ofResult]

/-- **Binding decides**: a request on an opened store fails exactly when binding fails, and with the
same error. When binding succeeds, there is a plan, no failure is counted, and the plan is the answer
to the request and is explained as accepted, and the answers say so. -/
theorem answers_iff_binds {config : Config} {clock : Nat → UInt64}
    (hopen : (ofConfig config clock).result = .ok store) (request : Json) :
    (∀ error, (store.planResponse request).result = .error error ↔
      store.bindRequest request = .error error) ∧
    (∀ error, (store.explainResponse request).result = .error error ↔
      store.bindRequest request = .error error) ∧
    ∀ e, store.bindRequest request = .ok e →
      ∃ plan, (store.plan e).result = .ok plan ∧
        (∀ metrics : Metrics,
          (metrics + (store.plan e).metrics).planningFailures = metrics.planningFailures) ∧
        (store.planResponse request).result = .ok (.ofMembers [
          ("ops", ScanOp.listToJson plan.ops), ("plan", .text plan.render),
          ("metrics", (store.plan e).metrics.toJson)]) ∧
        (store.explainResponse request).result = .ok (.ofMembers [
          ("explain", (Explanation.ofPlan plan).toJson),
          ("text", .text (Explanation.ofPlan plan).render)]) ∧
        (∃ minterms operations,
          Explanation.ofPlan plan = .accepted plan.strategy minterms operations) ∧
        ∃ answer explanation, (store.planResponse request).result = .ok answer ∧
          (store.explainResponse request).result = .ok explanation ∧ answer.CountsNoFailure ∧
          explanation.SaysAccepted := by
  have hanswer : ∀ e, store.bindRequest request = .ok e →
      ∃ plan, (store.plan e).result = .ok plan :=
    fun e hbind => (ofConfig_eq_ok hopen).exists_plan (isBound_of_bindRequest hbind)
  refine ⟨?_, ?_, ?_⟩
  · intro error
    cases hbind : store.bindRequest request with
    | error error' => simp [planResponse, hbind]
    | ok e =>
      obtain ⟨plan, hplan⟩ := hanswer e hbind
      simp [planResponse_of_plan hbind hplan]
  · intro error
    cases hbind : store.bindRequest request with
    | error error' => simp [explainResponse, hbind]
    | ok e => simp [explainResponse, hbind]
  · intro e hbind
    obtain ⟨plan, hplan⟩ := hanswer e hbind
    have hzero : (store.plan e).metrics.planningFailures = 0 := by
      have hcounted := Expression.planningFailures_plan store.schema store.indexes.costs e
      rwa [show (e.plan store.schema store.indexes.costs).result = .ok plan from hplan] at hcounted
    have hresponse := planResponse_of_plan hbind hplan
    have hexplanation := explainResponse_of_plan hbind hplan
    refine ⟨plan, hplan, fun metrics => ?_, hresponse, hexplanation, ⟨_, _, rfl⟩, _, _, hresponse,
      hexplanation, ?_, Explanation.saysAccepted_ofPlan plan⟩
    · exact (congrArg (metrics.planningFailures + ·) hzero).trans (UInt64.add_zero _)
    · refine ⟨(store.plan e).metrics.toJson, Json.member?_ofMembers (by simp) (by simp), ?_⟩
      rw [← hzero]
      exact Json.member?_ofMembers (by simp) (by simp)

/-- A request about ages, and one about a column that is not there. -/
theorem answers_iff_binds_ages :
    let config : Config := {
      logLevel := "warn"
      schema := ⟨[⟨"age", "int", none, none, none, some ⟨.ofNat 10⟩⟩]⟩
      records := [.object [("age", .number (.natural 35)), ("timestamp", .number (.natural 7))]] }
    let request (field : String) : Json := .object [("expression", .list [.list [.object [
      ("field", .text field), ("op", .text ">="), ("value", .number (.natural 30))]]])]
    ∃ store e plan, (ofConfig config fun _ => 0).result = .ok store ∧
      store.bindRequest (request "age") = .ok e ∧ (store.plan e).result = .ok plan ∧
      (store.planResponse (request "age")).result = .ok (.ofMembers [
        ("ops", ScanOp.listToJson plan.ops), ("plan", .text plan.render),
        ("metrics", (store.plan e).metrics.toJson)]) ∧
      ∃ error, store.bindRequest (request "size") = .error error ∧
        (store.planResponse (request "size")).result = .error error := by
  intro config request
  have hopen : (ofConfig config fun _ => 0).result.toOption.any fun store =>
      (store.bindRequest (request "age")).isOk && !(store.bindRequest (request "size")).isOk := by
    decide +kernel
  obtain ⟨store, hstore, h⟩ := exists_ok_of_any hopen
  cases hage : store.bindRequest (request "age") with
  | error error => simp [hage, Except.isOk, Except.toBool] at h
  | ok e =>
    cases hsize : store.bindRequest (request "size") with
    | ok e => simp [hsize, Except.isOk, Except.toBool] at h
    | error error =>
      obtain ⟨plan, hplan, -, hanswer, -⟩ := (answers_iff_binds hstore (request "age")).2.2 e hage
      exact ⟨store, e, plan, hstore, hage, hplan, hanswer, error, hsize,
        ((answers_iff_binds hstore (request "size")).1 error).2 hsize⟩

end Store

end BucketPlanner
