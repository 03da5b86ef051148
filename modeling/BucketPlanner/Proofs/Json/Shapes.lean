import BucketPlanner.Json.Shape
import BucketPlanner.Proofs.Json.ReadBack

/-!
# Shapes of written values

A structure that is written as an object, without the fields that are absent, is read field by field
(`Json.Shape.slots?_present`). A value that is there is read as present when its document is not
`null` (`Json.Shape.withDefault_optional`).
-/

namespace BucketPlanner.Json.Shape

variable {α : Type} {levels : Nat} {d : Document}

/-! ### Fields -/

/-- The fields that are present. -/
def present {β : Type} (fields : List (String × Option β)) : List (String × β) :=
  fields.filterMap fun f => f.2.map (f.1, ·)

theorem present_map {β γ : Type} (g : β → γ) (fields : List (String × Option β)) :
    present (fields.map fun f => (f.1, f.2.map g)) = (present fields).map fun m => (m.1, g m.2) := by
  rw [present, present, List.filterMap_map, List.map_filterMap]
  congr 1
  funext ⟨name, value⟩
  cases value <;> rfl

theorem present_cons {β : Type} (f : String × Option β) (fields : List (String × Option β)) :
    present (f :: fields) = (f.2.map (f.1, ·)).toList ++ present fields := by
  obtain ⟨name, value⟩ := f
  cases value <;> rfl

theorem mem_present {β : Type} {fields : List (String × Option β)} {m : String × β} :
    m ∈ present fields ↔ (m.1, some m.2) ∈ fields := by
  rw [present, List.mem_filterMap]
  constructor
  · rintro ⟨⟨name, value⟩, hf, hm⟩
    obtain ⟨a, rfl, rfl⟩ := Option.map_eq_some_iff.1 hm
    exact hf
  · exact fun h => ⟨_, h, rfl⟩

/-- When names differ, the members of a name are those of its field. -/
theorem filter_present {β : Type} {fields : List (String × Option β)}
    (h : (fields.map Prod.fst).Nodup) {f : String × Option β} (hf : f ∈ fields) :
    (present fields).filter (·.1 = f.1) = (f.2.map (f.1, ·)).toList := by
  induction fields with
  | nil => simp at hf
  | cons g fields ih =>
    obtain ⟨hg, hfields⟩ := List.nodup_cons.1 h
    rw [present_cons, List.filter_append]
    rcases List.mem_cons.1 hf with rfl | hf
    · have hfirst : ((f.2.map (f.1, ·)).toList).filter (·.1 = f.1) = (f.2.map (f.1, ·)).toList := by
        cases f.2 <;> simp
      have hrest : (present fields).filter (·.1 = f.1) = [] := by
        refine List.filter_eq_nil_iff.2 fun m hm hname => ?_
        exact hg (of_decide_eq_true hname ▸ List.mem_map_of_mem (mem_present.1 hm))
      rw [hfirst, hrest, List.append_nil]
    · have hne : g.1 ≠ f.1 := fun heq => hg (heq ▸ List.mem_map_of_mem hf)
      have hfirst : ((g.2.map (g.1, ·)).toList).filter (·.1 = f.1) = [] := by
        cases g.2 <;> simp [hne]
      rw [hfirst, List.nil_append, ih hfields hf]

/-- **An object of the fields that are present** has these fields. -/
theorem slots?_present {fields : List (String × Option Document)}
    (h : (fields.map Prod.fst).Nodup) :
    slots? (fields.map Prod.fst) (.object ((present fields).map fun m => (some m.1, m.2))) =
      some (fields.map Prod.snd) := by
  have hnames : ((present fields).map fun m => (some m.1, m.2)).mapM
      (fun (m : Option String × Document) => m.1.map (·, m.2)) = some (present fields) := by
    rw [mapM_eq_some_iff, List.forall₂_map_left_iff, List.forall₂_same]
    exact fun _ _ => rfl
  simp only [slots?, hnames, Option.bind_eq_bind, Option.bind_some, mapM_eq_some_iff,
    List.forall₂_map_left_iff, List.forall₂_map_right_iff, List.forall₂_same]
  intro f hf
  rw [filter_present h hf]
  cases f.2 <;> rfl

/-- The written form of an object has the documents of the fields that are present. -/
theorem slots?_document {fields : List (String × Option Json)} (h : (fields.map Prod.fst).Nodup) :
    slots? (fields.map Prod.fst) (object (present fields)).document =
      some (fields.map fun f => f.2.map document) := by
  have hdocument : (object (present fields)).document =
      .object ((present (fields.map fun f => (f.1, f.2.map document))).map
        fun m => (some m.1, m.2)) := by
    rw [document, present_map, List.map_map]
    rfl
  have hnames : (fields.map fun f => (f.1, f.2.map document)).map Prod.fst =
      fields.map Prod.fst := by
    rw [List.map_map]
    rfl
  have hslots := slots?_present (hnames.symm ▸ h)
  rw [hnames, List.map_map] at hslots
  rw [hdocument, hslots]
  rfl

/-- **A structure** is read from the documents of the fields that are present. -/
theorem fields_document (fields : List (String × Option Json)) (h : (fields.map Prod.fst).Nodup)
    (make : Nat → List (Option Document) → Option α) (levels : Nat) :
    Shape.fields (fields.map Prod.fst) make (levels + 1) (object (present fields)).document =
      make levels (fields.map fun f => f.2.map document) := by
  rw [Shape.fields, slots?_document h, Option.bind_some]

theorem exists_of_fields {names : List String} {make : Nat → List (Option Document) → Option α}
    {a : α} (h : Shape.fields names make levels d = some a) :
    ∃ below slots, levels = below + 1 ∧ make below slots = some a := by
  cases levels with
  | zero => simp [Shape.fields] at h
  | succ below =>
    obtain ⟨slots, -, hmake⟩ := Option.bind_eq_some_iff.1 h
    exact ⟨below, slots, rfl, hmake⟩

/-! ### Optional values -/

/-- A value that is absent or has a document that is read back. -/
theorem withDefault_optional {shape : Shape α} {value : Option α} {write : α → Document}
    (h : ∀ a, value = some a → write a ≠ .null ∧ shape levels (write a) = some a) :
    withDefault (optional shape) none levels (value.map write) = some value := by
  cases value with
  | none => rfl
  | some a =>
    obtain ⟨hnull, hread⟩ := h a rfl
    rw [Option.map_some, withDefault, optional, hread, Option.map_some]
    exact hnull

/-- A value that is read is one that its shape reads from something else than `null`. -/
theorem exists_of_withDefault_optional {shape : Shape α} {slot : Option Document} {value : Option α}
    (h : withDefault (optional shape) none levels slot = some value) {a : α} (ha : value = some a) :
    ∃ d, d ≠ .null ∧ shape levels d = some a := by
  cases slot with
  | none => simp_all [withDefault]
  | some d =>
    rw [withDefault] at h
    unfold optional at h
    split at h
    · simp_all
    next hnull =>
      obtain ⟨b, hb, hvalue⟩ := Option.map_eq_some_iff.1 h
      rw [ha, Option.some.injEq] at hvalue
      exact ⟨d, hnull, hvalue ▸ hb⟩

end BucketPlanner.Json.Shape
