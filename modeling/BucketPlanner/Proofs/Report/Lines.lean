import BucketPlanner.Proofs.Json.Written
import BucketPlanner.Report.Entry
import Mathlib.Data.List.Perm.Basic
import Mathlib.Data.List.Nodup

/-!
# Lines of the log

The line of an entry is a JSON text that holds the event, the level and the fields in ascending
order of their names, and nothing in it ends the line before its end. So a line can be read back,
and no entry can pass for another one (`LogEntry.written_reads`).
-/

namespace BucketPlanner

theorem LogLevel.name_injective : Function.Injective LogLevel.name := by
  intro level level' h
  cases level <;> cases level' <;> simp [name] at h ⊢

namespace LogEntry

variable {e : LogEntry} {fields fields' : List (String × String)}

/-! ### Fields in order -/

/-- Fields stand in ascending order of their names, and fields of one name stand as in a given list
of the same fields. -/
structure IsStableSort (fields sorted : List (String × String)) : Prop where
  perm : sorted.Perm fields
  pairwise : sorted.Pairwise fun f g => (compare f.1 g.1).isLE
  filter : ∀ name, (sorted.filter fun f => f.1 = name) = fields.filter fun f => f.1 = name

theorem isLE_trans (f g h : String × String) (hfg : (compare f.1 g.1).isLE)
    (hgh : (compare g.1 h.1).isLE) : (compare f.1 h.1).isLE :=
  Std.TransCmp.isLE_trans hfg hgh

theorem isLE_total (f g : String × String) :
    ((compare f.1 g.1).isLE || (compare g.1 f.1).isLE) = true := by
  rw [Std.OrientedOrd.eq_swap (a := g.1)]
  cases compare f.1 g.1 <;> rfl

/-- **The fields of a line** are sorted, and the sort is stable. -/
theorem isStableSort_sortedFields (e : LogEntry) : IsStableSort e.fields e.sortedFields where
  perm := List.mergeSort_perm ..
  pairwise := List.pairwise_mergeSort isLE_trans isLE_total _
  filter name := by
    have hperm : e.sortedFields.Perm e.fields := List.mergeSort_perm ..
    have hsame : (e.fields.filter fun f => f.1 = name).Pairwise
        fun f g => (compare f.1 g.1).isLE := by
      refine List.pairwise_of_forall_mem_list fun f hf g hg => ?_
      rw [of_decide_eq_true (List.mem_filter.1 hf).2, of_decide_eq_true (List.mem_filter.1 hg).2]
      simp
    -- The fields of the name are a sorted part of the fields, which sorting keeps.
    have hpart : (e.fields.filter fun f => f.1 = name).Sublist e.sortedFields :=
      List.sublist_mergeSort isLE_trans isLE_total hsame List.filter_sublist
    have hfilter := hpart.filter fun f => f.1 = name
    rw [List.filter_filter] at hfilter
    simp only [Bool.and_self] at hfilter
    exact (hfilter.eq_of_length (hperm.filter _).length_eq.symm).symm

/-- The order of fields with different names does not matter. -/
theorem sortedFields_eq_of_perm (h : fields.Perm e.fields)
    (hnames : (e.fields.map Prod.fst).Nodup) :
    sortedFields { e with fields } = e.sortedFields := by
  have hsorted := isStableSort_sortedFields { e with fields }
  have hsorted' := isStableSort_sortedFields e
  have hperm := hsorted.perm.trans (h.trans hsorted'.perm.symm)
  refine hperm.eq_of_pairwise (fun f g hf hg hfg hgf => ?_) hsorted.pairwise hsorted'.pairwise
  have heq : f.1 = g.1 := Std.LawfulEqOrd.eq_of_compare (Std.OrientedCmp.isLE_antisymm hfg hgf)
  have hf : f ∈ e.fields := (h.trans (List.Perm.refl _)).mem_iff.1 (hsorted.perm.mem_iff.1 hf)
  exact List.inj_on_of_nodup_map hnames hf (hsorted'.perm.mem_iff.1 hg) heq

/-! ### Lines -/

/-- What a line holds: the event, the level and the fields in order. -/
def lineFields (e : LogEntry) : List (String × String) :=
  ("event", e.event) :: ("severity", e.level.name) :: e.sortedFields

/-- The name of a level needs no escapes. -/
theorem flatMap_escapedChar_name (level : LogLevel) :
    level.name.toList.flatMap Json.escapedChar = level.name.toList := by
  cases level <;> rfl

theorem toList_fieldText (f : String × String) :
    (fieldText f).toList = ',' :: Json.memberChars (Json.fieldMember f) := by
  simp [fieldText, Json.renderText, Json.memberChars, Json.fieldMember, Json.chars]

/-- **The line of an entry** is the JSON object of what it holds. -/
theorem line_eq (e : LogEntry) :
    e.line = Json.render (.object (e.lineFields.map Json.fieldMember)) := by
  have hfields : (String.join (e.sortedFields.map fieldText)).toList =
      (e.sortedFields.map Json.fieldMember).flatMap fun m => ',' :: Json.memberChars m := by
    rw [String.toList_join, List.flatMap_map, List.flatMap_map]
    simp only [toList_fieldText]
  rw [← String.toList_inj, Json.render, String.toList_ofList, Json.chars, lineFields, List.map_cons,
    List.map_cons, Json.membersChars_cons, List.flatMap_cons, ← hfields]
  simp [line, Json.renderText, Json.memberChars, Json.fieldMember, Json.chars, Json.textChars,
    flatMap_escapedChar_name, Json.escapedChar]

theorem newline_notMem_line (e : LogEntry) : '\n' ∉ e.line.toList := by
  intro h
  rw [line_eq] at h
  exact absurd (Json.le_toNat_of_mem_render h) (by decide)

theorem ofText?_line (e : LogEntry) :
    Json.Document.ofText? e.line = some (.object (e.lineFields.map Json.fieldDocument)) := by
  rw [line_eq, Json.ofText?_render_object]

/-- Lines are equal when they hold the same. -/
theorem line_eq_iff {e' : LogEntry} : e.line = e'.line ↔ e.lineFields = e'.lineFields := by
  constructor
  · intro h
    have hdocument := ofText?_line e
    rw [h, ofText?_line, Option.some.injEq, Json.Document.object.injEq] at hdocument
    exact (List.map_injective_iff.2 Json.fieldDocument_injective hdocument).symm
  · intro h
    rw [line_eq, line_eq, h]

theorem lineFields_eq_iff {e' : LogEntry} : e.lineFields = e'.lineFields ↔
    e.event = e'.event ∧ e.level = e'.level ∧ e.sortedFields = e'.sortedFields := by
  simp [lineFields, LogLevel.name_injective.eq_iff]

theorem written_eq_iff {e' : LogEntry} : e.written = e'.written ↔ e.line = e'.line := by
  simp [written]

/-- **A line of the log can be read back**, and is the line of no other entry. It ends where the
only newline is, in front of which there is a JSON object with the event, the level and the fields.
The fields are sorted by name, and the sort is stable, so that their order does not matter when
their names differ. -/
theorem written_reads (e : LogEntry) :
    (∃ line, e.written = line ++ "\n" ∧ '\n' ∉ line.toList ∧
      Json.Document.ofText? line = some (.object
        ((some "event", .text (some e.event)) :: (some "severity", .text (some e.level.name)) ::
          e.sortedFields.map fun f => (some f.1, .text (some f.2))))) ∧
    IsStableSort e.fields e.sortedFields ∧
    (∀ e' : LogEntry, e.written = e'.written ↔
      e.event = e'.event ∧ e.level = e'.level ∧ e.sortedFields = e'.sortedFields) ∧
    ∀ fields, fields.Perm e.fields → (e.fields.map Prod.fst).Nodup →
      written { e with fields } = e.written := by
  refine ⟨⟨e.line, rfl, newline_notMem_line e, ofText?_line e⟩, isStableSort_sortedFields e,
    fun e' => ?_, fun fields hperm hnames => ?_⟩
  · rw [written_eq_iff, line_eq_iff, lineFields_eq_iff]
  · rw [written_eq_iff, line_eq_iff, lineFields_eq_iff]
    exact ⟨rfl, rfl, sortedFields_eq_of_perm hperm hnames⟩

/-- Fields in another order, one of which looks like the end of a line and the start of another. -/
theorem written_reads_forged :
    let e : LogEntry :=
      ⟨.warn, "TEST", [("zebra", "1"), ("event", "\"\x7d\n\x7b\"event\":\"\u0001")]⟩
    let fields := e.fields.reverse
    fields.Perm e.fields ∧ (e.fields.map Prod.fst).Nodup ∧
      written { e with fields } = e.written := by
  intro e fields
  have hperm : fields.Perm e.fields := List.reverse_perm _
  have hnames : (e.fields.map Prod.fst).Nodup := by decide
  exact ⟨hperm, hnames, (written_reads e).2.2.2 fields hperm hnames⟩

end LogEntry

end BucketPlanner
