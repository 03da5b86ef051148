import BucketPlanner.Proofs.Plan.Operations

/-!
# What planning reports

Planning goes past the minterms that it drops and those that have a range, up to the first minterm
that no index serves or that has an error, if there is one (`Expression.course`). The result, the
entries and the counters all follow from this course (`Expression.assemble_eq`), so that they tell
the same story (`Expression.tells_plan`).
-/

namespace BucketPlanner

/-- How planning ends. -/
inductive Ending
  /-- Planning goes past all minterms. -/
  | complete
  /-- No index serves the minterm at a place. -/
  | fallback (position : Nat)
  /-- The minterm at a place has an error. -/
  | failure (position : Nat) (error : PlanError)

namespace Ending

/-- The coverage when planning has found ranges before it ends. -/
def coverage (ranges : List (IndexId × KeyRange)) : Ending → Except PlanError Coverage
  | complete => .ok (.ranges ranges)
  | fallback _ => .ok .everything
  | failure _ error => .error error

/-- The place of the minterm that no index serves, if planning ends with one. -/
def fallback? : Ending → Option Nat
  | fallback position => some position
  | complete | failure .. => none

/-- How many of a number of minterms have an outcome when planning ends. -/
def finished (minterms : Nat) : Ending → Nat
  | complete => minterms
  | fallback position => position + 1
  | failure position _ => position

end Ending

/-- The course of planning. -/
structure Course where
  /-- The places of the minterms that are dropped. -/
  dropped : List Nat
  /-- The ranges that are found. -/
  ranges : List (IndexId × KeyRange)
  ending : Ending

/-- The counters after numbers of events. -/
def Metrics.ofCounts (plans fallbacks dropped ranges failures : Nat) : Metrics :=
  ⟨.ofNat plans, .ofNat fallbacks, .ofNat dropped, .ofNat ranges, .ofNat failures⟩

theorem Metrics.ofCounts_add (p f d r x p' f' d' r' x' : Nat) :
    ofCounts p f d r x + ofCounts p' f' d' r' x' =
      ofCounts (p + p') (f + f') (d + d') (r + r') (x + x') := by
  simp only [ofCounts, UInt64.ofNat_add]
  rfl

/-! ### Entries as they are logged -/

namespace LogEntry

/-- The minterm at a place is dropped. -/
def dropped (position : Nat) : LogEntry where
  level := .trace
  event := "PLAN_MINTERM_UNSATISFIABLE"
  fields := [("minterm", toString position)]

/-- No index serves the minterm at a place. -/
def fallback (position : Nat) : LogEntry where
  level := .info
  event := "PLAN_FULL_SCAN_FALLBACK"
  fields := [("minterm", toString position)]

/-- Planning so many minterms gave so many operations. -/
def complete (minterms ops : Nat) : LogEntry where
  level := .trace
  event := "PLAN_COMPLETE"
  fields := [("minterms", toString minterms), ("ops", toString ops)]

/-- Planning ended with an error. -/
def failed (error : PlanError) : LogEntry where
  level := .error
  event := "PLAN_FAILED"
  fields := [("code", error.code), ("message", error.message)]

end LogEntry

theorem Expression.mintermEntry_unsatisfiable :
    mintermEntry .planMintermUnsatisfiable = LogEntry.dropped := rfl

/-- What a course amounts to. -/
def Course.assembly (c : Course) : Assembly where
  coverage := c.ending.coverage c.ranges
  entries := c.dropped.map LogEntry.dropped ++ c.ending.fallback?.toList.map LogEntry.fallback
  metrics :=
    .ofCounts 0 c.ending.fallback?.toList.length c.dropped.length c.ranges.length 0

theorem Course.assembly_drop (c : Course) (position : Nat) :
    assembly { c with dropped := position :: c.dropped } =
      { c.assembly with
        entries := LogEntry.dropped position :: c.assembly.entries
        metrics := .unsatisfiable + c.assembly.metrics } := by
  have hone : Metrics.unsatisfiable = .ofCounts 0 0 1 0 0 := rfl
  simp only [assembly, hone, Metrics.ofCounts_add, List.map_cons, List.cons_append,
    List.length_cons, Nat.zero_add, Nat.add_comm 1]

theorem Course.assembly_range (c : Course) (id : IndexId) (range : KeyRange) :
    assembly { c with ranges := (id, range) :: c.ranges } =
      { c.assembly with
        coverage := c.assembly.coverage.map (Coverage.withRange id range)
        metrics := .indexRanges 1 + c.assembly.metrics } := by
  have hone : Metrics.indexRanges 1 = .ofCounts 0 0 0 1 0 := rfl
  have hcoverage : c.ending.coverage ((id, range) :: c.ranges) =
      (c.ending.coverage c.ranges).map (Coverage.withRange id range) := by
    cases c.ending <;> rfl
  simp only [assembly, hcoverage, hone, Metrics.ofCounts_add, List.length_cons, Nat.zero_add,
    Nat.add_comm 1]

namespace Minterm

variable {schema : Schema} {costs : IndexCosts} {m : Minterm}

/-- The range of the index that is chosen for a minterm. -/
def range? (schema : Schema) (costs : IndexCosts) (m : Minterm) : Option (IndexId × KeyRange) :=
  match outcome schema costs m with
  | .ok (.indexRange id range) => some (id, range)
  | _ => none

/-- Planning goes past a minterm: it is dropped or has a range. -/
def isPassed (schema : Schema) (costs : IndexCosts) (m : Minterm) : Bool :=
  isUnsatisfiable schema costs m || (range? schema costs m).isSome

end Minterm

namespace Expression

variable {schema : Schema} {costs : IndexCosts} {e : Expression} {m : Minterm} {error : PlanError}
  {id : IndexId} {range : KeyRange} {position : Nat} {ms : List (Minterm × Nat)}

/-! ### The course of planning -/

/-- The course of planning minterms that are given with their places. -/
def course (schema : Schema) (costs : IndexCosts) (ms : List (Minterm × Nat)) : Course :=
  let passed := ms.takeWhile fun m => m.1.isPassed schema costs
  { dropped := (passed.filter fun m => m.1.isUnsatisfiable schema costs).map Prod.snd
    ranges := passed.filterMap fun m => m.1.range? schema costs
    ending :=
      match ms.dropWhile fun m => m.1.isPassed schema costs with
      | [] => .complete
      | (m, position) :: _ =>
        match m.outcome schema costs with
        | .error error => .failure position error
        | .ok _ => .fallback position }

theorem course_of_unsatisfiable (h : m.outcome schema costs = .ok .unsatisfiable) :
    course schema costs ((m, position) :: ms) =
      { course schema costs ms with dropped := position :: (course schema costs ms).dropped } := by
  simp [course, Minterm.isPassed, Minterm.isUnsatisfiable, Minterm.range?, h]

theorem course_of_indexRange (h : m.outcome schema costs = .ok (.indexRange id range)) :
    course schema costs ((m, position) :: ms) =
      { course schema costs ms with ranges := (id, range) :: (course schema costs ms).ranges } := by
  simp [course, Minterm.isPassed, Minterm.isUnsatisfiable, Minterm.range?, h]

theorem course_of_noIndex (h : m.outcome schema costs = .ok .noIndex) :
    course schema costs ((m, position) :: ms) = ⟨[], [], .fallback position⟩ := by
  simp [course, Minterm.isPassed, Minterm.isUnsatisfiable, Minterm.range?, h]

theorem course_of_error (h : m.outcome schema costs = .error error) :
    course schema costs ((m, position) :: ms) = ⟨[], [], .failure position error⟩ := by
  simp [course, Minterm.isPassed, Minterm.isUnsatisfiable, Minterm.range?, h]

/-- **Going through minterms** amounts to their course. -/
theorem assemble_eq (schema : Schema) (costs : IndexCosts) (position : Nat) (e : Expression) :
    assemble schema costs position e = (course schema costs (e.zipIdx position)).assembly := by
  induction e generalizing position with
  | nil => rfl
  | cons m ms ih =>
    unfold assemble
    rw [List.zipIdx_cons]
    split
    next error hm =>
      rw [course_of_error hm]
      rfl
    next hm =>
      rw [course_of_noIndex hm]
      rfl
    next hm =>
      rw [course_of_unsatisfiable hm, Course.assembly_drop, ih (position + 1),
        mintermEntry_unsatisfiable]
    next id range hm =>
      rw [course_of_indexRange hm, Course.assembly_range, ih (position + 1)]

/-- The minterms that have an outcome are dropped, have a range or are left to a full scan. -/
theorem finished_course (schema : Schema) (costs : IndexCosts) (position : Nat) (e : Expression) :
    let c := course schema costs (e.zipIdx position)
    c.ending.finished (position + e.length) =
      position + (c.dropped.length + c.ranges.length + c.ending.fallback?.toList.length) := by
  induction e generalizing position with
  | nil => rfl
  | cons m ms ih =>
    have hlength : position + (m :: ms).length = position + 1 + ms.length := by
      rw [List.length_cons]
      omega
    rw [List.zipIdx_cons, hlength]
    cases hm : m.outcome schema costs with
    | error error =>
      rw [course_of_error hm]
      rfl
    | ok o =>
      cases o with
      | noIndex =>
        rw [course_of_noIndex hm]
        rfl
      | unsatisfiable =>
        rw [course_of_unsatisfiable hm]
        simp only [ih (position + 1), List.length_cons]
        omega
      | indexRange id range =>
        rw [course_of_indexRange hm]
        simp only [ih (position + 1), List.length_cons]
        omega

/-- The places of dropped minterms are in ascending order. -/
theorem pairwise_dropped (schema : Schema) (costs : IndexCosts) (e : Expression) :
    (course schema costs e.zipIdx).dropped.Pairwise (· < ·) := by
  have hplaces : (e.zipIdx.map Prod.snd).Pairwise (· < ·) := by
    rw [List.zipIdx_map_snd]
    exact List.pairwise_lt_range' 1
  exact hplaces.sublist ((List.filter_sublist.trans (List.takeWhile_sublist _)).map _)

end Expression

/-- The entry about a result of planning. -/
def Planning.closing (p : Planning) (e : Expression) : LogEntry :=
  match p.ops with
  | .ok ops => .complete e.length ops.length
  | .error error => .failed error

namespace Expression

theorem coverage_eq_of_course (schema : Schema) (costs : IndexCosts) (e : Expression) :
    let c := course schema costs e.zipIdx
    coverage schema costs e = c.ending.coverage c.ranges := by
  rw [← coverage_assemble schema costs 0, assemble_eq]
  rfl

theorem entries_eq_of_course (schema : Schema) (costs : IndexCosts) (e : Expression) :
    let c := course schema costs e.zipIdx
    (plan schema costs e).entries =
      c.dropped.map LogEntry.dropped ++ c.ending.fallback?.toList.map LogEntry.fallback ++
        [(plan schema costs e).closing e] := by
  unfold plan
  rw [assemble_eq]
  simp only [Course.assembly, Planning.closing]
  cases (course schema costs e.zipIdx).ending <;> rfl

theorem metrics_eq_of_course (schema : Schema) (costs : IndexCosts) (e : Expression) :
    let c := course schema costs e.zipIdx
    let isOk := (plan schema costs e).result.isOk
    (plan schema costs e).metrics =
      .ofCounts isOk.toNat c.ending.fallback?.toList.length c.dropped.length c.ranges.length
        (!isOk).toNat := by
  have hplan : Metrics.plan = .ofCounts 1 0 0 0 0 := rfl
  have hfailure : Metrics.failure = .ofCounts 0 0 0 0 1 := rfl
  unfold plan
  rw [assemble_eq]
  simp only [Course.assembly]
  cases (course schema costs e.zipIdx).ending with
  | complete | fallback => simp only [Ending.coverage, hplan, Metrics.ofCounts_add]; rfl
  | failure => simp only [Ending.coverage, hfailure, Metrics.ofCounts_add]; rfl

/-- **A failure is counted** exactly when there is no plan. -/
theorem planningFailures_plan (schema : Schema) (costs : IndexCosts) (e : Expression) :
    (plan schema costs e).metrics.planningFailures =
      if (plan schema costs e).result.isOk then 0 else 1 := by
  rw [metrics_eq_of_course]
  cases (plan schema costs e).result.isOk <;> rfl

end Expression

/-! ### One story -/

namespace LogEntry

/-- The entry is about an event. -/
def isAbout (event : String) (entry : LogEntry) : Bool := entry.event = event

theorem countP_isAbout {event event' : String} {entry : Nat → LogEntry}
    (hentry : ∀ position, (entry position).event = event') (positions : List Nat) :
    (positions.map entry).countP (isAbout event) =
      if event' = event then positions.length else 0 := by
  simp only [List.countP_map, Function.comp_def, isAbout, hentry]
  split <;> simp [*]

end LogEntry

/-- **The entries, the counters and the result of planning tell the story of a course.** -/
structure Planning.Tells (p : Planning) (e : Expression) (c : Course) : Prop where
  /-- A plan has the ranges that were found unless it is a full scan; otherwise there is the error
  with which planning ends. -/
  ops : p.ops = (c.ending.coverage c.ranges).map Coverage.ops
  /-- At the lowest threshold one sees each dropped minterm, then a fallback if there is one, then
  the result. -/
  entries : p.entries.filter (fun entry => entry.level.passes .trace) =
    c.dropped.map LogEntry.dropped ++ c.ending.fallback?.toList.map LogEntry.fallback ++ [p.closing e]
  /-- Dropped minterms come in the order of their places. -/
  pairwise_dropped : c.dropped.Pairwise (· < ·)
  /-- A fallback is seen exactly when the plan is a full scan. -/
  fallback : (∃ entry ∈ p.entries, entry.isAbout "PLAN_FULL_SCAN_FALLBACK") ↔
    p.ops = .ok [.fullScan]
  /-- Every dropped minterm that is seen is counted. -/
  unsatisfiable : p.metrics.mintermsUnsatisfiable =
    .ofNat (p.entries.countP (·.isAbout "PLAN_MINTERM_UNSATISFIABLE"))
  /-- Every fallback that is seen is counted. -/
  fallbacks : p.metrics.fullScanFallbacks =
    .ofNat (p.entries.countP (·.isAbout "PLAN_FULL_SCAN_FALLBACK"))
  /-- Every minterm that has an outcome is counted once. -/
  finished : p.metrics.mintermsUnsatisfiable + p.metrics.indexRangesEmitted +
    p.metrics.fullScanFallbacks = .ofNat (c.ending.finished e.length)

namespace Expression

theorem isAbout_closing (p : Planning) (e : Expression) :
    (p.closing e).isAbout "PLAN_MINTERM_UNSATISFIABLE" = false ∧
      (p.closing e).isAbout "PLAN_FULL_SCAN_FALLBACK" = false := by
  unfold Planning.closing
  split <;> simp [LogEntry.isAbout, LogEntry.complete, LogEntry.failed]

/-- The numbers of entries about minterms. -/
theorem countP_entries (schema : Schema) (costs : IndexCosts) (e : Expression) :
    let c := course schema costs e.zipIdx
    let entries := (plan schema costs e).entries
    entries.countP (·.isAbout "PLAN_MINTERM_UNSATISFIABLE") = c.dropped.length ∧
      entries.countP (·.isAbout "PLAN_FULL_SCAN_FALLBACK") =
        c.ending.fallback?.toList.length := by
  obtain ⟨hunsatisfiable, hfallback⟩ := isAbout_closing (plan schema costs e) e
  have hdropped : ∀ position, (LogEntry.dropped position).event = "PLAN_MINTERM_UNSATISFIABLE" :=
    fun _ => rfl
  have hfallen : ∀ position, (LogEntry.fallback position).event = "PLAN_FULL_SCAN_FALLBACK" :=
    fun _ => rfl
  dsimp only
  rw [entries_eq_of_course]
  simp only [List.countP_append, LogEntry.countP_isAbout hdropped, LogEntry.countP_isAbout hfallen,
    List.countP_singleton, hunsatisfiable, hfallback]
  simp

/-- **Entries, counters and result** of planning tell the story of the same course, which is that of
the minterms in their order. -/
theorem tells_plan (schema : Schema) (costs : IndexCosts) (e : Expression) :
    (plan schema costs e).Tells e (course schema costs e.zipIdx) where
  ops := by rw [ops_plan, coverage_eq_of_course]
  entries := by
    rw [← entries_eq_of_course]
    refine List.filter_eq_self.2 fun entry _ => ?_
    exact decide_eq_true (Nat.zero_le _)
  pairwise_dropped := pairwise_dropped schema costs e
  fallback := by
    rw [← List.countP_pos_iff, (countP_entries schema costs e).2, ops_plan, coverage_eq_of_course]
    cases hending : (course schema costs e.zipIdx).ending with
    | complete => simp [Ending.coverage, Except.map, Coverage.ops_ranges_ne, Ending.fallback?]
    | fallback position =>
      simp [Ending.coverage, Except.map, Ending.fallback?, Coverage.ops_everything]
    | failure position error => simp [Ending.coverage, Except.map, Ending.fallback?]
  unsatisfiable := by
    rw [(countP_entries schema costs e).1, metrics_eq_of_course]
    rfl
  fallbacks := by
    rw [(countP_entries schema costs e).2, metrics_eq_of_course]
    rfl
  finished := by
    have hfinished := finished_course schema costs 0 e
    simp only [Nat.zero_add] at hfinished
    rw [metrics_eq_of_course, hfinished]
    simp only [Metrics.ofCounts, UInt64.ofNat_add]

end Expression

end BucketPlanner
