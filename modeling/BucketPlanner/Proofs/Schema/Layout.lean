import BucketPlanner.Proofs.Schema.Calls
import Mathlib.Algebra.Order.BigOperators.Group.List
import Mathlib.Order.Interval.Set.Basic

/-!
# The layout of records

The builder counts the bytes of a record in 64 bits. As long as it succeeds, the places of the fields are
the sums of the sizes in front of them (`SchemaBuilder.Built.toNat_offset`), so the fields lie one behind
the other in the record. Columns with which nothing is wrong can all be added exactly when their sizes
add up to less than 2⁶⁴; beyond that the addition overflows (`SchemaBuilder.isLaidOut_or_overflows`).
-/

namespace BucketPlanner

/-- The bytes that the fields of columns take together. -/
def Column.width (columns : List Column) : Nat := (columns.map fun c => c.type.size.toNat).sum

/-- The bytes of a record that the field of a column takes. -/
def Column.bytes (c : Column) : Set Nat := Set.Ico c.offset.toNat (c.offset.toNat + c.type.size.toNat)

/-- Records have their fields one behind the other, from the 8 bytes of the time stamp on. -/
structure Schema.IsLaidOut (s : Schema) : Prop where
  first : ∃ c, s.column? 0 = some c ∧ c.bytes = Set.Ico 0 8
  offset : ∀ {n c}, s.column? n = some c → c.offset.toNat = Column.width (s.columns.take n)
  disjoint : ∀ {m n c d}, m ≠ n → s.column? m = some c → s.column? n = some d →
    Disjoint c.bytes d.bytes
  contained : ∀ c ∈ s.columns, c.bytes ⊆ Set.Ico 0 s.recordSize.toNat
  recordSize : s.recordSize.toNat = Column.width s.columns

namespace Column

variable {columns : List Column} {n : Nat} {c : Column}

theorem width_append (columns columns' : List Column) :
    width (columns ++ columns') = width columns + width columns' := by
  simp [width]

theorem width_take_succ (h : columns[n]? = some c) :
    width (columns.take (n + 1)) = width (columns.take n) + c.type.size.toNat := by
  rw [List.take_add_one, h, width_append]
  simp [width]

theorem width_take_mono {m : Nat} (h : m ≤ n) : width (columns.take m) ≤ width (columns.take n) := by
  simp only [width, List.map_take]
  exact List.monotone_sum_take _ h

theorem width_take_le (columns : List Column) (n : Nat) : width (columns.take n) ≤ width columns := by
  have h := width_append (columns.take n) (columns.drop n)
  rw [List.take_append_drop] at h
  omega

end Column

namespace SchemaBuilder

open Column (width)

variable {b b' : SchemaBuilder} {call : Call} {calls front : List Call}

/-- **The counter of bytes** is the sum of the sizes, at the end and at every column. -/
theorem Built.toNat_offset (hb : Built b) :
    b.offset.toNat = width b.columns ∧
      ∀ {n c}, b.columns[n]? = some c → c.offset.toNat = width (b.columns.take n) := by
  induction hb with
  | start =>
    refine ⟨by decide +kernel, ?_⟩
    intro n c hc
    obtain ⟨hlt, hget⟩ := List.getElem?_eq_some_iff.1 hc
    obtain rfl : n = 0 := by simpa [SchemaBuilder.start] using hlt
    rw [← hget]
    rfl
  | @column b b' type name min max hb hadd ih =>
    rcases addColumnWithin_eq_ok hadd with ⟨-, -, rfl⟩ | ⟨-, hlt, rfl⟩
    · exact ih
    · refine ⟨?_, ?_⟩
      · rw [UInt64.toNat_add, Nat.mod_eq_of_lt hlt, ih.1, Column.width_append]
        simp [width, newColumn]
      · intro n c hc
        rcases getElem?_append_singleton hc with hold | ⟨rfl, rfl⟩
        · obtain ⟨hlt, -⟩ := List.getElem?_eq_some_iff.1 hold
          rw [List.take_append_of_le_length hlt.le]
          exact ih.2 hold
        · rw [List.take_left]
          exact ih.1

/-- **The fields of a built schema** lie one behind the other. -/
theorem Built.isLaidOut (hb : Built b) : b.build.IsLaidOut := by
  obtain ⟨hsize, hoffset⟩ := hb.toNat_offset
  have hend : ∀ {n c}, b.columns[n]? = some c →
      c.offset.toNat + c.type.size.toNat = width (b.columns.take (n + 1)) := by
    intro n c hc
    rw [Column.width_take_succ hc, hoffset hc]
  -- The earlier one of two fields ends before the later one begins.
  have hbefore : ∀ {m n : Nat} {c d : Column}, m < n → b.columns[m]? = some c → b.columns[n]? = some d →
      Disjoint c.bytes d.bytes := by
    intro m n c d hlt hc hd
    have hmono : width (b.columns.take (m + 1)) ≤ width (b.columns.take n) :=
      Column.width_take_mono hlt
    rw [← hend hc, ← hoffset hd] at hmono
    rw [Set.disjoint_left]
    rintro i ⟨-, hi⟩ ⟨hi', -⟩
    omega
  refine ⟨?_, hoffset, ?_, ?_, hsize⟩
  · exact ⟨_, hb.column?_zero, rfl⟩
  · intro m n c d hne hc hd
    rcases Nat.lt_or_gt_of_ne hne with hlt | hgt
    · exact hbefore hlt hc hd
    · exact (hbefore hgt hd hc).symm
  · rintro c hc i ⟨-, hi⟩
    obtain ⟨n, hn⟩ := List.getElem?_of_mem hc
    have hle := Column.width_take_le b.columns (n + 1)
    rw [← hend hn, ← hsize] at hle
    exact ⟨Nat.zero_le i, Nat.lt_of_lt_of_le hi hle⟩

/-! ### Calls whose columns fit -/

/-- The bytes of a record with the columns that calls declare, behind the 8 of the time stamp. -/
def bytes (calls : List Call) : Nat :=
  8 + ((calls.filter (!·.isTimestamp)).map fun call => call.type.size.toNat).sum

/-- The names of the columns that calls declare, without the time stamp. -/
def columnNames (calls : List Call) : List String :=
  (calls.filter (!·.isTimestamp)).map fun call => canonicalName call.name

/-- Nothing is wrong with a call by itself: it has a name, and the type of the time stamp or a domain of
its type. -/
structure Call.IsProper (call : Call) : Prop where
  named : canonicalName call.name ≠ ""
  timestamp : call.isTimestamp → call.type = .ulong
  domain : ¬ call.isTimestamp → call.type.accepts call.domain.1 ∧
    call.type.accepts call.domain.2 ∧ call.domain.1.isAtMost call.domain.2

/-- Nothing is wrong with calls: not with one by itself, and the columns have different names. -/
structure AreInOrder (calls : List Call) : Prop where
  proper : ∀ call ∈ calls, call.IsProper
  distinct : (columnNames calls).Nodup

/-- The width of the columns, counted from the calls. -/
theorem width_ofCalls (h : ofCalls calls = .ok b) : width b.columns = bytes calls := by
  have hsizes : width b.columns =
      ((b.columns.map Column.declaration).map fun d => d.2.1.size.toNat).sum := by
    rw [List.map_map]
    rfl
  rw [hsizes, declarations_ofCalls h, List.map_cons, List.sum_cons, List.map_map]
  rfl

theorem bytes_lt (h : ofCalls calls = .ok b) : bytes calls < 2 ^ 64 := by
  rw [← width_ofCalls h, ← (Built.ofCalls h).toNat_offset.1]
  exact b.offset.toNat_lt

theorem bytes_append_singleton (calls : List Call) (call : Call) :
    bytes (calls ++ [call]) =
      bytes calls + if call.isTimestamp then 0 else call.type.size.toNat := by
  cases h : call.isTimestamp <;> simp [bytes, List.filter_append, h, Nat.add_assoc]

theorem bytes_mono (h : front <+: calls) : bytes front ≤ bytes calls := by
  obtain ⟨back, rfl⟩ := h
  simp [bytes, List.filter_append]

theorem AreInOrder.of_front (h : AreInOrder calls) (hfront : front <+: calls) : AreInOrder front :=
  ⟨fun call hcall => h.proper call (hfront.subset hcall),
    h.distinct.sublist ((hfront.sublist.filter _).map _)⟩

theorem areInOrder_append_iff : AreInOrder (calls ++ [call]) ↔ AreInOrder calls ∧ call.IsProper ∧
    (¬ call.isTimestamp → canonicalName call.name ∉ columnNames calls) := by
  have hnames : columnNames (calls ++ [call]) =
      columnNames calls ++ if call.isTimestamp then [] else [canonicalName call.name] := by
    cases h : call.isTimestamp <;> simp [columnNames, List.filter_append, h]
  constructor
  · intro h
    refine ⟨h.of_front (List.prefix_append ..), h.proper call (by simp), fun hcolumn hmem => ?_⟩
    have hdistinct := h.distinct
    rw [hnames, if_neg hcolumn] at hdistinct
    exact (List.nodup_append.1 hdistinct).2.2 _ hmem _ (List.mem_singleton_self _) rfl
  · rintro ⟨h, hproper, hnew⟩
    refine ⟨fun other hother => ?_, ?_⟩
    · rcases List.mem_append.1 hother with hold | hlast
      · exact h.proper other hold
      · rwa [List.mem_singleton.1 hlast]
    · rw [hnames]
      split
      · rw [List.append_nil]
        exact h.distinct
      next hcolumn =>
        refine List.nodup_append.2 ⟨h.distinct, List.pairwise_singleton .., ?_⟩
        intro old hold last hlast heq
        rw [heq, List.mem_singleton.1 hlast] at hold
        exact hnew hcolumn hold

/-- A column is admitted when nothing is wrong with its call and the name is new. -/
theorem admits_iff (hb : ofCalls calls = .ok b) (hcolumn : ¬ call.isTimestamp) :
    b.Admits call.type call.name call.domain.1 call.domain.2 ↔
      call.IsProper ∧ canonicalName call.name ∉ columnNames calls := by
  have hname : canonicalName call.name ≠ Schema.timestampName := fun h => hcolumn (beq_iff_eq.2 h)
  have hnames : b.columns.map Column.name = Schema.timestampName :: columnNames calls := by
    have hdeclared := congrArg (List.map Prod.fst) (declarations_ofCalls hb)
    rwa [List.map_map, List.map_cons, List.map_map] at hdeclared
  have hfresh : (∀ c ∈ b.columns, c.name ≠ canonicalName call.name) ↔
      canonicalName call.name ∉ columnNames calls := by
    have hmem : canonicalName call.name ∈ b.columns.map Column.name ↔
        canonicalName call.name ∈ columnNames calls := by
      rw [hnames, List.mem_cons, or_iff_right hname]
    rw [← hmem, List.mem_map]
    simp
  constructor
  · intro h
    exact ⟨⟨h.named, fun hts => absurd hts hcolumn,
      fun _ => ⟨h.accepts_min, h.accepts_max, h.ordered⟩⟩, hfresh.1 h.fresh⟩
  · rintro ⟨hproper, hnew⟩
    obtain ⟨hmin, hmax, hordered⟩ := hproper.domain hcolumn
    exact ⟨hproper.named, hname, hfresh.2 hnew, hmin, hmax, hordered⟩

/-- How calls can end, and when. -/
def IsOutcome (calls : List Call) : Except (Failure SchemaError) SchemaBuilder → Prop
  | .ok _ => AreInOrder calls ∧ bytes calls < 2 ^ 64
  | .error .overflow => ∃ front, front <+: calls ∧ AreInOrder front ∧ 2 ^ 64 ≤ bytes front
  | .error (.reported _) => ¬ AreInOrder calls ∧
    ∀ front, front <+: calls → AreInOrder front → bytes front < 2 ^ 64

/-- Calls that end with the first thing that is wrong report it when all bytes before fit. -/
theorem isOutcome_reported {e : SchemaError} (h : ¬ AreInOrder (calls ++ [call]))
    (hfits : ∀ front, front <+: calls → AreInOrder front → bytes front < 2 ^ 64) :
    IsOutcome (calls ++ [call]) (.error (.reported e)) := by
  refine ⟨h, fun front hfront horder => ?_⟩
  rcases List.prefix_concat_iff.1 hfront with rfl | hfront
  · exact absurd horder h
  · exact hfits front hfront horder

/-- **One more call** behind calls that succeeded. -/
theorem isOutcome_apply (hb : ofCalls calls = .ok b) (h : AreInOrder calls) :
    IsOutcome (calls ++ [call]) (call.apply b) := by
  have hlt := bytes_lt hb
  have hfits : ∀ front, front <+: calls → AreInOrder front → bytes front < 2 ^ 64 :=
    fun front hfront _ => Nat.lt_of_le_of_lt (bytes_mono hfront) hlt
  rw [Call.apply_eq]
  obtain ⟨hname, htype, heq⟩ | ⟨hadmits, heq⟩ | ⟨hother, hnot, e, heq⟩ :=
    addColumnWithin_cases b call.type call.name call.domain.1 call.domain.2
  · have hts : call.isTimestamp := beq_iff_eq.2 hname
    have hproper : call.IsProper := by
      refine ⟨?_, fun _ => htype, fun hcolumn => absurd hts hcolumn⟩
      rw [hname]
      decide
    rw [heq]
    refine ⟨areInOrder_append_iff.2 ⟨h, hproper, fun hcolumn => absurd hts hcolumn⟩, ?_⟩
    rwa [bytes_append_singleton, if_pos hts]
  · have hcolumn : ¬ call.isTimestamp := fun hts => hadmits.notTimestamp (beq_iff_eq.1 hts)
    obtain ⟨hproper, hnew⟩ := (admits_iff hb hcolumn).1 hadmits
    have horder := areInOrder_append_iff.2 ⟨h, hproper, fun _ => hnew⟩
    have hbytes : bytes (calls ++ [call]) = b.offset.toNat + call.type.size.toNat := by
      rw [bytes_append_singleton, if_neg hcolumn, ← width_ofCalls hb,
        (Built.ofCalls hb).toNat_offset.1]
    rw [heq]
    rcases Nat.lt_or_ge (b.offset.toNat + call.type.size.toNat) (2 ^ 64) with hsum | hsum
    · rw [addSizes_eq_ok_iff.2 ⟨hsum, rfl⟩]
      exact ⟨horder, hbytes ▸ hsum⟩
    · rw [addSizes_eq_overflow_iff.2 hsum]
      exact ⟨_, List.prefix_rfl, horder, hbytes ▸ hsum⟩
  · rw [heq]
    refine isOutcome_reported (fun horder => ?_) hfits
    obtain ⟨-, hproper, hnew⟩ := areInOrder_append_iff.1 horder
    by_cases hts : call.isTimestamp
    · exact hother ⟨beq_iff_eq.1 hts, hproper.timestamp hts⟩
    · exact hnot ((admits_iff hb hts).2 ⟨hproper, hnew hts⟩)

/-- **Calls end in one of three ways.** -/
theorem isOutcome_ofCalls (calls : List Call) : IsOutcome calls (ofCalls calls) := by
  induction calls using List.reverseRecOn with
  | nil => exact ⟨⟨by simp, List.nodup_nil⟩, by decide⟩
  | append_singleton calls call ih =>
    have hlast : ofCalls (calls ++ [call]) = ofCalls calls >>= fun b => call.apply b := by
      simp [ofCalls, List.foldlM_append]
    cases hcalls : ofCalls calls with
    | ok b =>
      rw [hcalls] at ih
      rw [hlast, hcalls]
      exact isOutcome_apply hcalls ih.1
    | error failure =>
      rw [hcalls] at ih
      rw [hlast, hcalls]
      cases failure with
      | overflow =>
        obtain ⟨front, hfront, h⟩ := ih
        exact ⟨front, hfront.trans (List.prefix_append ..), h⟩
      | reported e =>
        exact isOutcome_reported (fun h => ih.1 (h.of_front (List.prefix_append ..))) ih.2

/-- Calls succeed when nothing is wrong with them and their columns fit. -/
theorem exists_ofCalls_iff :
    (∃ b, ofCalls calls = .ok b) ↔ AreInOrder calls ∧ bytes calls < 2 ^ 64 := by
  have houtcome := isOutcome_ofCalls calls
  cases hcalls : ofCalls calls with
  | ok b =>
    rw [hcalls] at houtcome
    exact ⟨fun _ => houtcome, fun _ => ⟨b, rfl⟩⟩
  | error failure =>
    rw [hcalls] at houtcome
    refine ⟨by simp, fun ⟨horder, hlt⟩ => ?_⟩
    cases failure with
    | overflow =>
      obtain ⟨front, hfront, -, hge⟩ := houtcome
      have hle := bytes_mono hfront
      omega
    | reported e => exact absurd horder houtcome.1

/-- Calls overflow when their first ones are too many bytes with nothing wrong. -/
theorem ofCalls_eq_overflow_iff : ofCalls calls = .error .overflow ↔
    ∃ front, front <+: calls ∧ AreInOrder front ∧ 2 ^ 64 ≤ bytes front := by
  have houtcome := isOutcome_ofCalls calls
  constructor
  · intro hcalls
    rwa [hcalls] at houtcome
  · rintro ⟨front, hfront, horder, hge⟩
    cases hcalls : ofCalls calls with
    | ok b =>
      have hle := bytes_mono hfront
      have hlt := bytes_lt hcalls
      omega
    | error failure =>
      rw [hcalls] at houtcome
      cases failure with
      | overflow => rfl
      | reported e =>
        have hlt := houtcome.2 front hfront horder
        omega

/-- **Records are laid out, or the sum of the sizes overflows.** The fields of a schema that calls built
lie one behind the other. Calls succeed exactly when nothing is wrong with them and their columns take,
with the time stamp, less than 2⁶⁴ bytes; and they overflow exactly when the first of them, with which
nothing is wrong, take more. -/
theorem isLaidOut_or_overflows (calls : List Call) :
    (∀ b, ofCalls calls = .ok b → b.build.IsLaidOut) ∧
    ((∃ b, ofCalls calls = .ok b) ↔ AreInOrder calls ∧ bytes calls < 2 ^ 64) ∧
    (ofCalls calls = .error .overflow ↔
      ∃ front, front <+: calls ∧ AreInOrder front ∧ 2 ^ 64 ≤ bytes front) :=
  ⟨fun _ hb => (Built.ofCalls hb).isLaidOut, exists_ofCalls_iff, ofCalls_eq_overflow_iff⟩

/-- A string of an admitted type that leaves no room for the time stamp: nothing is wrong with its
column, and adding it overflows. -/
theorem exists_overflow :
    ∃ type, DataType.ofName? "string" (some 18446744073709551608) = some type ∧
      AreInOrder [.addColumn type "a"] ∧ bytes [.addColumn type "a"] = 2 ^ 64 ∧
      ofCalls [.addColumn type "a"] = .error .overflow := by
  let type : DataType := .string 18446744073709551608
  have horder : AreInOrder [.addColumn type "a"] := by
    refine ⟨fun call hcall => ?_, by decide +kernel⟩
    rw [List.mem_singleton.1 hcall]
    exact ⟨by decide +kernel, by decide +kernel, by decide +kernel⟩
  have hbytes : bytes [.addColumn type "a"] = 2 ^ 64 := by decide +kernel
  exact ⟨type, by decide +kernel, horder, hbytes,
    ofCalls_eq_overflow_iff.2 ⟨_, List.prefix_rfl, horder, hbytes.ge⟩⟩

end SchemaBuilder

end BucketPlanner
