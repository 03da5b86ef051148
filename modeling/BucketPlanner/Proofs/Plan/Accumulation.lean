import BucketPlanner.Proofs.Plan.Narrowing

/-!
# Accumulating ranges

Ranges are added to candidates one after the other. A range that leaves its index no key is refused:

* `CandidateRanges.accepts_iff`: a range is accepted exactly when it shares a key with what its index
  has;
* `CandidateRanges.Holds`: candidates whose range for an index has the keys that given ranges share;
* `CandidateRanges.Holds.add`, `CandidateRanges.Holds.addAll`: an accepted range is one more of those
  given, and so are all that are accepted in a run;
* `CandidateRanges.addAll_intersects`: so adding ranges computes the intersections of their keys.
-/

namespace BucketPlanner.CandidateRanges

/-- A range is accepted when it leaves its index a key. -/
def accepts (ranges : CandidateRanges) (e : IndexId × KeyRange) : Bool :=
  (ranges.narrow? e.1 e.2).isSome

/-- The candidates after a range was added; one that is refused changes nothing. -/
def add (ranges : CandidateRanges) (e : IndexId × KeyRange) : CandidateRanges :=
  (ranges.narrow? e.1 e.2).getD ranges

/-- The candidates after ranges were added, one after the other. -/
def addAll (ranges : CandidateRanges) (es : List (IndexId × KeyRange)) : CandidateRanges :=
  es.foldl add ranges

/-- The ranges that are accepted when ranges are added one after the other. -/
def accepted : CandidateRanges → List (IndexId × KeyRange) → List (IndexId × KeyRange)
  | _, [] => []
  | ranges, e :: es =>
    if ranges.accepts e then e :: accepted (ranges.add e) es else accepted (ranges.add e) es

/-- All ranges of an index are accepted when ranges are added one after the other. -/
def AcceptsAll (ranges : CandidateRanges) (es : List (IndexId × KeyRange)) (id : IndexId) : Prop :=
  ∀ before e after, es = before ++ e :: after → e.1 = id → (ranges.addAll before).accepts e

/-- All candidates have a key. -/
def IsValid (ranges : CandidateRanges) : Prop :=
  ∀ id r, Ascending.find? id ranges = some r → r.isValid

/-- An index is among the candidates when it is given a range, and then it has the keys that its
ranges share. -/
def Holds (ranges : CandidateRanges) (given : GivenRanges) (id : IndexId) : Prop :=
  ((Ascending.find? id ranges).isSome ↔ id ∈ given.indexes) ∧
    ∀ r, Ascending.find? id ranges = some r → ∀ k, k ∈ r ↔ k ∈ given.keys id

variable {ranges ranges' : CandidateRanges} {given given' : GivenRanges} {id : IndexId}
  {e : IndexId × KeyRange} {es : List (IndexId × KeyRange)} {r : KeyRange}

/-! ### One range -/

/-- **A range is accepted** exactly when it shares a key with what its index has. -/
theorem accepts_iff : ranges.accepts e ↔ ∃ k ∈ e.2, k ∈ ranges.entries.keys e.1 := by
  obtain ⟨merged, hmerged, hnarrow⟩ := narrow?_eq ranges e.1 e.2
  have hvalid : merged.isValid ↔ ∃ k ∈ e.2, k ∈ ranges.entries.keys e.1 := by
    rw [KeyRange.isValid_iff, hmerged]
    rfl
  rw [← hvalid, accepts, hnarrow]
  split <;> simp_all

theorem add_of_not_accepts (h : ¬ ranges.accepts e) : ranges.add e = ranges := by
  have hnone : ranges.narrow? e.1 e.2 = none := by simpa [accepts] using h
  rw [add, hnone, Option.getD_none]

/-- The range that an accepted one leaves its index. -/
theorem exists_find?_add (h : ranges.accepts e) :
    ∃ r, Ascending.find? e.1 (ranges.add e) = some r ∧ r.isValid ∧
      r.keys = e.2.keys ∩ ranges.entries.keys e.1 := by
  obtain ⟨merged, hmerged, hnarrow⟩ := narrow?_eq ranges e.1 e.2
  rw [accepts, hnarrow] at h
  rw [add, hnarrow]
  split at h
  next hvalid =>
    rw [if_pos hvalid, Option.getD_some, Ascending.find?_put_self]
    exact ⟨merged, rfl, hvalid, hmerged⟩
  · simp at h

/-- **A range changes no other index.** -/
theorem find?_add_of_ne (h : id ≠ e.1) :
    Ascending.find? id (ranges.add e) = Ascending.find? id ranges := by
  obtain ⟨merged, -, hnarrow⟩ := narrow?_eq ranges e.1 e.2
  rw [add, hnarrow]
  split
  · rw [Option.getD_some, Ascending.find?_put_of_ne h]
  · rw [Option.getD_none]

/-- What an index has afterwards depends on what it had. -/
theorem find?_add_congr (h : Ascending.find? id ranges = Ascending.find? id ranges') :
    Ascending.find? id (ranges.add e) = Ascending.find? id (ranges'.add e) := by
  by_cases hid : id = e.1
  · subst hid
    simp only [add, narrow?, h]
    split_ifs
    · simp
    · exact h
  · rw [find?_add_of_ne hid, find?_add_of_ne hid, h]

theorem IsValid.add (h : ranges.IsValid) (e : IndexId × KeyRange) : (ranges.add e).IsValid := by
  intro id r hr
  by_cases haccepts : ranges.accepts e
  · by_cases hid : id = e.1
    · obtain ⟨r', hr', hvalid, -⟩ := exists_find?_add haccepts
      rw [hid, hr', Option.some.injEq] at hr
      exact hr ▸ hvalid
    · rw [find?_add_of_ne hid] at hr
      exact h id r hr
  · rw [add_of_not_accepts haccepts] at hr
    exact h id r hr

/-! ### Ranges that are held -/

theorem holds_entries (ranges : CandidateRanges) (id : IndexId) : ranges.Holds ranges.entries id := by
  refine ⟨Option.isSome_iff_exists, fun r hr k => ?_⟩
  rw [keys_entries_of_find? hr, KeyRange.mem_keys]

theorem Holds.keys_entries (h : ranges.Holds given id) :
    ranges.entries.keys id = given.keys id := by
  cases hfind : Ascending.find? id ranges with
  | some r =>
    rw [keys_entries_of_find? hfind]
    exact Set.ext (h.2 r hfind)
  | none =>
    have hid : id ∉ given.indexes := fun hid => by simpa [hfind] using h.1.2 hid
    rw [keys_entries_of_find?_eq_none hfind, GivenRanges.keys_eq_univ hid]

/-- Only the ranges of the index count. -/
theorem Holds.congr (h : ranges.Holds given id) (hgiven : ∀ r, (id, r) ∈ given ↔ (id, r) ∈ given') :
    ranges.Holds given' id := by
  have hindexes : id ∈ given.indexes ↔ id ∈ given'.indexes := exists_congr hgiven
  have hkeys : given.keys id = given'.keys id :=
    Set.ext fun k => forall_congr' fun r => imp_congr_left (hgiven r)
  exact ⟨h.1.trans hindexes, fun r hr k => hkeys ▸ h.2 r hr k⟩

/-- **An accepted range** is one more of those given. -/
theorem Holds.add (h : ranges.Holds given id) (haccepts : ranges.accepts e) :
    (ranges.add e).Holds (insert e given) id := by
  by_cases hid : id = e.1
  · subst hid
    obtain ⟨r, hr, -, hkeys⟩ := exists_find?_add haccepts
    rw [h.keys_entries, ← GivenRanges.keys_insert_self] at hkeys
    refine ⟨iff_of_true (by simp [hr]) (GivenRanges.mem_indexes_insert.2 (Or.inl rfl)), ?_⟩
    intro r' hr'
    rw [hr, Option.some.injEq] at hr'
    rw [← hr']
    exact Set.ext_iff.1 hkeys
  · unfold Holds
    rw [find?_add_of_ne hid]
    refine h.congr fun r => ?_
    simp [Set.mem_insert_iff, Prod.ext_iff, hid]

/-! ### Ranges one after the other -/

theorem addAll_cons (ranges : CandidateRanges) (e : IndexId × KeyRange)
    (es : List (IndexId × KeyRange)) : ranges.addAll (e :: es) = (ranges.add e).addAll es := rfl

theorem IsValid.addAll (h : ranges.IsValid) (es : List (IndexId × KeyRange)) :
    (ranges.addAll es).IsValid := by
  induction es generalizing ranges with
  | nil => exact h
  | cons e es ih => exact ih (h.add e)

/-- **The ranges that a run accepts** are given on top of those that there were. -/
theorem Holds.addAll (h : ranges.Holds given id) (es : List (IndexId × KeyRange)) :
    (ranges.addAll es).Holds (given ∪ {e | e ∈ ranges.accepted es}) id := by
  induction es generalizing ranges given with
  | nil => simpa [accepted, CandidateRanges.addAll] using h
  | cons e es ih =>
    rw [addAll_cons, accepted]
    split
    next haccepts =>
      refine (ih (h.add haccepts)).congr fun r => ?_
      simp only [Set.mem_union, Set.mem_insert_iff, Set.mem_ofPred_eq, List.mem_cons]
      tauto
    next hrefuses =>
      rw [add_of_not_accepts hrefuses]
      exact ih h

theorem acceptsAll_cons :
    ranges.AcceptsAll (e :: es) id ↔
      (e.1 = id → ranges.accepts e) ∧ (ranges.add e).AcceptsAll es id := by
  constructor
  · intro h
    refine ⟨h [] e es rfl, fun before e' after hes => ?_⟩
    exact h (e :: before) e' after (by rw [hes, List.cons_append])
  · rintro ⟨hfirst, hrest⟩ (_ | ⟨first, before⟩) e' after hes hid
    · obtain ⟨rfl, -⟩ := List.cons.inj hes
      exact hfirst hid
    · rw [List.cons_append, List.cons.injEq] at hes
      obtain ⟨rfl, hes⟩ := hes
      exact hrest before e' after hes hid

/-- When all ranges of an index are accepted, these are the ranges of the index. -/
theorem AcceptsAll.mem_accepted_iff (h : ranges.AcceptsAll es id) (r : KeyRange) :
    (id, r) ∈ ranges.accepted es ↔ (id, r) ∈ es := by
  induction es generalizing ranges with
  | nil => simp [accepted]
  | cons e es ih =>
    obtain ⟨hfirst, hrest⟩ := acceptsAll_cons.1 h
    rw [accepted, List.mem_cons]
    split
    next haccepts => rw [List.mem_cons, ih hrest]
    next hrefuses =>
      -- What is refused belongs to another index.
      have hne : (id, r) ≠ e := by
        rintro rfl
        exact hrefuses (hfirst rfl)
      simp [ih hrest, hne]

/-- What an index has after a run depends on its own ranges only. -/
theorem find?_addAll_filter (h : Ascending.find? id ranges = Ascending.find? id ranges')
    (es : List (IndexId × KeyRange)) :
    Ascending.find? id (ranges.addAll es) =
      Ascending.find? id (ranges'.addAll (es.filter (·.1 = id))) := by
  induction es generalizing ranges ranges' with
  | nil => exact h
  | cons e es ih =>
    by_cases hid : e.1 = id
    · rw [List.filter_cons_of_pos (by simpa using hid), addAll_cons, addAll_cons]
      exact ih (find?_add_congr h)
    · rw [List.filter_cons_of_neg (by simpa using hid), addAll_cons]
      refine ih ?_
      rw [find?_add_of_ne (Ne.symm hid), h]

/-- **Adding ranges one after the other computes intersections.** Candidates with keys keep having
keys. An index all of whose ranges are accepted has exactly the keys that these share with the range
that it had. The next range is refused exactly when no key is common to it and to the ranges of its
index so far, and then all candidates stay as they are. No range changes another index, so that what
an index has depends on its own ranges only. -/
theorem addAll_intersects (ranges : CandidateRanges) (es : List (IndexId × KeyRange)) :
    (ranges.IsValid → (ranges.addAll es).IsValid) ∧
    (∀ id, ranges.AcceptsAll es id → (ranges.addAll es).Holds (ranges.entries ∪ {e | e ∈ es}) id) ∧
    (∀ e, (¬ (ranges.addAll es).accepts e ↔
        ¬ ∃ k ∈ e.2, k ∈ (ranges.entries ∪ {e | e ∈ ranges.accepted es}).keys e.1) ∧
      (¬ (ranges.addAll es).accepts e → (ranges.addAll es).add e = ranges.addAll es) ∧
      ∀ id ≠ e.1, Ascending.find? id ((ranges.addAll es).add e) =
        Ascending.find? id (ranges.addAll es)) ∧
    ∀ id, Ascending.find? id (ranges.addAll es) =
      Ascending.find? id (ranges.addAll (es.filter (·.1 = id))) := by
  have hholds : ∀ id, (ranges.addAll es).Holds (ranges.entries ∪ {e | e ∈ ranges.accepted es}) id :=
    fun id => (ranges.holds_entries id).addAll es
  refine ⟨fun h => h.addAll es, fun id hall => ?_, fun e => ⟨?_, add_of_not_accepts, ?_⟩,
    fun id => find?_addAll_filter rfl es⟩
  · refine (hholds id).congr fun r => or_congr_right ?_
    exact hall.mem_accepted_iff r
  · rw [accepts_iff, (hholds e.1).keys_entries]
  · exact fun id hid => find?_add_of_ne hid

-- The last range shares no key with those of its index so far.
example :
    addAll [] [(⟨0⟩, ⟨.clamp 1, .clamp 5⟩), (⟨1⟩, .point (.clamp 9)), (⟨0⟩, ⟨.clamp 4, .clamp 8⟩),
      (⟨0⟩, .point (.clamp 7))] =
      [(⟨0⟩, ⟨.clamp 4, .clamp 5⟩), (⟨1⟩, .point (.clamp 9))] := by decide

end BucketPlanner.CandidateRanges
