import BucketPlanner.Ascending
import Mathlib.Data.List.Forall2
import Mathlib.Data.List.TakeWhile
import Mathlib.Data.Set.Card

/-!
# Lists

Members of ascending association lists and what is found in them, and lists that are read item by
item.
-/

namespace BucketPlanner

namespace Ascending

variable {α β : Type} [Ord α] {key : α} {value : β} {e : α × β} {l : List (α × β)}

/-- `put` adds no other pairs. -/
theorem eq_or_mem_of_mem_put (h : e ∈ put key value l) : e = (key, value) ∨ e ∈ l := by
  induction l with
  | nil => exact Or.inl (by simpa [put] using h)
  | cons head rest ih =>
    obtain ⟨k, v⟩ := head
    unfold put at h
    split at h <;> rcases List.mem_cons.1 h with rfl | hrest
    · exact Or.inl rfl
    · exact Or.inr hrest
    · exact Or.inl rfl
    · exact Or.inr (List.mem_cons_of_mem _ hrest)
    · exact Or.inr List.mem_cons_self
    · rcases ih hrest with rfl | hmem
      · exact Or.inl rfl
      · exact Or.inr (List.mem_cons_of_mem _ hmem)

/-- A key above all others is put at the end. -/
theorem put_eq_append_of_forall_lt [Std.OrientedOrd α] (h : ∀ e ∈ l, compare e.1 key = .lt) :
    put key value l = l ++ [(key, value)] := by
  induction l with
  | nil => rfl
  | cons head rest ih =>
    obtain ⟨hhead, hrest⟩ := List.forall_mem_cons.1 h
    simp only [put, Std.OrientedCmp.gt_of_lt hhead, ih hrest, List.cons_append]

/-- The pairs stand in ascending order of their first components. -/
def IsAscending (l : List (α × β)) : Prop := l.Pairwise fun a b => compare a.1 b.1 = .lt

section Lawful

variable {k : α} [Std.LawfulEqOrd α]

@[simp] theorem find?_put_self (key : α) (value : β) (l : List (α × β)) :
    find? key (put key value l) = some value := by
  induction l with
  | nil => simp [put, find?]
  | cons head rest ih =>
    obtain ⟨k, v⟩ := head
    unfold put
    split
    · simp [find?]
    · simp [find?]
    next hgt => simp [find?, hgt, ih]

theorem find?_put_of_ne (h : k ≠ key) (value : β) (l : List (α × β)) :
    find? k (put key value l) = find? k l := by
  have hne : compare k key ≠ .eq := by simpa using h
  induction l with
  | nil => simp [put, find?, hne]
  | cons head rest ih =>
    obtain ⟨k', v⟩ := head
    unfold put
    split
    · rw [find?, if_neg hne]
    next heq =>
      obtain rfl := Std.LawfulEqOrd.eq_of_compare heq
      simp [find?, hne]
    · simp only [find?, ih]

/-- **A value that stands in an ascending list** is found there. -/
theorem find?_eq_some_iff (h : IsAscending l) : find? key l = some value ↔ (key, value) ∈ l := by
  induction l with
  | nil => simp
  | cons head rest ih =>
    obtain ⟨k, v⟩ := head
    obtain ⟨hfirst, hrest⟩ := List.pairwise_cons.1 h
    rw [find?, List.mem_cons, ← ih hrest]
    split
    next heq =>
      obtain rfl := Std.LawfulEqOrd.eq_of_compare heq
      -- The key stands nowhere else.
      have hrest' : find? key rest ≠ some value := by
        intro hfind
        have hlt := hfirst _ ((ih hrest).1 hfind)
        simp at hlt
      simp [hrest', eq_comm]
    next hne =>
      have hkey : key ≠ k := by
        rintro rfl
        simp at hne
      simp [hkey]

theorem IsAscending.put [Std.TransOrd α] (h : IsAscending l) : IsAscending (put key value l) := by
  induction l with
  | nil => exact List.pairwise_singleton ..
  | cons head rest ih =>
    obtain ⟨k, v⟩ := head
    obtain ⟨hfirst, hrest⟩ := List.pairwise_cons.1 h
    unfold Ascending.put
    split
    next hlt =>
      refine List.pairwise_cons.2 ⟨?_, h⟩
      rintro e (_ | ⟨_, he⟩)
      · exact hlt
      · exact Std.TransCmp.lt_trans hlt (hfirst e he)
    next heq =>
      obtain rfl := Std.LawfulEqOrd.eq_of_compare heq
      exact List.pairwise_cons.2 ⟨hfirst, hrest⟩
    next hgt =>
      refine List.pairwise_cons.2 ⟨?_, ih hrest⟩
      intro e he
      rcases eq_or_mem_of_mem_put he with rfl | hmem
      · exact Std.OrientedCmp.lt_of_gt hgt
      · exact hfirst e hmem

/-- **Ascending lists with the same members are equal.** -/
theorem IsAscending.eq_of_mem_iff [Std.TransOrd α] {l' : List (α × β)} (h : IsAscending l)
    (h' : IsAscending l') (hmem : ∀ e, e ∈ l ↔ e ∈ l') : l = l' := by
  have hnodup : ∀ {l : List (α × β)}, IsAscending l → l.Nodup := by
    intro l hl
    refine hl.imp ?_
    rintro a _ hlt rfl
    simp at hlt
  have hperm : l.Perm l' := (List.perm_ext_iff_of_nodup (hnodup h) (hnodup h')).2 hmem
  refine hperm.eq_of_pairwise ?_ h h'
  intro a b _ _ hab hba
  exact absurd (Std.TransCmp.lt_trans hab hba) (by simp)

/-- The pairs of a list, put one after the other in front of none. -/
def putAll (l : List (α × β)) : List (α × β) := l.foldl (fun m e => put e.1 e.2 m) []

theorem find?_foldl_put_of_not_mem {m : List (α × β)} (h : key ∉ l.map Prod.fst) :
    find? key (l.foldl (fun m e => put e.1 e.2 m) m) = find? key m := by
  induction l generalizing m with
  | nil => rfl
  | cons e l ih =>
    rw [List.map_cons, List.mem_cons, not_or] at h
    rw [List.foldl_cons, ih h.2, find?_put_of_ne h.1]

theorem find?_foldl_put_of_mem {m : List (α × β)} (h : (l.map Prod.fst).Nodup)
    (hmem : (key, value) ∈ l) :
    find? key (l.foldl (fun m e => put e.1 e.2 m) m) = some value := by
  induction l generalizing m with
  | nil => simp at hmem
  | cons e l ih =>
    obtain ⟨hfirst, hrest⟩ := List.nodup_cons.1 h
    rw [List.foldl_cons]
    rcases List.mem_cons.1 hmem with rfl | hmem
    · rw [find?_foldl_put_of_not_mem hfirst, find?_put_self]
    · exact ih hrest hmem

/-- **Pairs with different keys** are found when they are put one after the other. -/
theorem find?_putAll_eq_some_iff (h : (l.map Prod.fst).Nodup) :
    find? key (putAll l) = some value ↔ (key, value) ∈ l := by
  refine ⟨fun hfind => ?_, find?_foldl_put_of_mem h⟩
  by_cases hkey : key ∈ l.map Prod.fst
  · obtain ⟨⟨k, v⟩, hmem, rfl⟩ := List.mem_map.1 hkey
    have hfound := find?_foldl_put_of_mem (m := []) h hmem
    rw [← putAll, hfind, Option.some.injEq] at hfound
    rwa [hfound]
  · rw [putAll, find?_foldl_put_of_not_mem hkey, find?_nil] at hfind
    simp at hfind

end Lawful

end Ascending

/-- What stands in a list with one item more. -/
theorem getElem?_append_singleton {α : Type} {l : List α} {a b : α} {n : Nat}
    (h : (l ++ [a])[n]? = some b) : l[n]? = some b ∨ n = l.length ∧ b = a := by
  rw [List.getElem?_append] at h
  split at h
  · exact Or.inl h
  · rw [List.getElem?_singleton] at h
    split at h
    next hge hzero =>
      rw [Option.some.injEq] at h
      exact Or.inr ⟨by omega, h.symm⟩
    · simp at h

theorem of_getElem?_of_forall₂ {α β : Type} {R : α → β → Prop} {l : List α} {l' : List β}
    (h : List.Forall₂ R l l') {n : Nat} {a : α} {b : β} (ha : l[n]? = some a)
    (hb : l'[n]? = some b) : R a b :=
  (List.forall₂_iff_zip.1 h).2 (List.mem_of_getElem? (List.getElem?_zip_eq_some.2 ⟨ha, hb⟩))

theorem exists_getElem?_of_forall₂ {α β : Type} {R : α → β → Prop} {l : List α} {l' : List β}
    (h : List.Forall₂ R l l') {n : Nat} {a : α} (ha : l[n]? = some a) :
    ∃ b, l'[n]? = some b ∧ R a b := by
  obtain ⟨hn, -⟩ := List.getElem?_eq_some_iff.1 ha
  rw [h.length_eq] at hn
  exact ⟨l'[n], List.getElem?_eq_getElem hn,
    of_getElem?_of_forall₂ h ha (List.getElem?_eq_getElem hn)⟩

theorem exists_mem_of_forall₂ {α β : Type} {R : α → β → Prop} {l : List α} {l' : List β}
    (h : List.Forall₂ R l l') {b : β} (hb : b ∈ l') : ∃ a ∈ l, R a b := by
  induction h with
  | nil => simp at hb
  | cons hR _ ih =>
    rcases List.mem_cons.1 hb with rfl | hmem
    · exact ⟨_, List.mem_cons_self, hR⟩
    · obtain ⟨a, ha, hab⟩ := ih hmem
      exact ⟨a, List.mem_cons_of_mem _ ha, hab⟩

theorem exists_append_of_forall₂ {α β : Type} {R : α → β → Prop} {front back : List α} {a : α}
    {l : List β} (h : List.Forall₂ R (front ++ a :: back) l) :
    ∃ front' b back', l = front' ++ b :: back' ∧ List.Forall₂ R front front' ∧ R a b := by
  induction front generalizing l with
  | nil =>
    obtain ⟨b, back', hR, -, rfl⟩ := List.forall₂_cons_left_iff.1 h
    exact ⟨[], b, back', rfl, .nil, hR⟩
  | cons a' front ih =>
    obtain ⟨b', l', hR, hrest, rfl⟩ := List.forall₂_cons_left_iff.1 h
    obtain ⟨front', b, back', rfl, hfront, hab⟩ := ih hrest
    exact ⟨b' :: front', b, back', rfl, .cons hR hfront, hab⟩

/-! ### Steps that can fail -/

theorem bind_eq_ok {α β ε : Type} {x : Except ε α} {f : α → Except ε β} {b : β} :
    x >>= f = .ok b ↔ ∃ a, x = .ok a ∧ f a = .ok b := by
  cases x <;> simp [bind, Except.bind]

theorem mapError_eq_ok {α ε ε' : Type} {x : Except ε α} {f : ε → ε'} {a : α} :
    x.mapError f = .ok a ↔ x = .ok a := by
  cases x <;> simp [Except.mapError]

theorem isOk_iff_exists {α ε : Type} {x : Except ε α} : x.isOk ↔ ∃ a, x = .ok a := by
  cases x <;> simp [Except.isOk, Except.toBool]

/-- **What every step keeps** that succeeds, all of them keep. -/
theorem foldlM_keeps {α β ε : Type} {f : β → α → Except ε β} {P : β → Prop}
    (hstep : ∀ {b a b'}, P b → f b a = .ok b' → P b') {l : List α} {b b' : β} (h : P b)
    (hsteps : l.foldlM f b = .ok b') : P b' := by
  induction l generalizing b with
  | nil =>
    rw [List.foldlM_nil] at hsteps
    rwa [← Except.ok.inj hsteps]
  | cons a l ih =>
    rw [List.foldlM_cons] at hsteps
    obtain ⟨next, hnext, hrest⟩ := bind_eq_ok.1 hsteps
    exact ih (hstep h hnext) hrest

/-- A list is read without an error when each item is. -/
theorem mapM_eq_ok_iff {α β ε : Type} {f : α → Except ε β} {l : List α} {l' : List β} :
    l.mapM f = .ok l' ↔ List.Forall₂ (fun a b => f a = .ok b) l l' := by
  induction l generalizing l' with
  | nil =>
    rw [List.mapM_nil, List.forall₂_nil_left_iff]
    exact ⟨fun h => (Except.ok.inj h).symm, fun h => h ▸ rfl⟩
  | cons a l ih =>
    simp only [List.mapM_cons, bind_eq_ok, List.forall₂_cons_left_iff, ih]
    constructor
    · rintro ⟨b, hb, bs, hbs, hl⟩
      exact ⟨b, bs, hb, hbs, (Except.ok.inj hl).symm⟩
    · rintro ⟨b, bs, hb, hbs, rfl⟩
      exact ⟨b, hb, bs, hbs, rfl⟩

/-- A list is read when each item is. -/
theorem mapM_eq_some_iff {α β : Type} {f : α → Option β} {l : List α} {l' : List β} :
    l.mapM f = some l' ↔ List.Forall₂ (fun a b => f a = some b) l l' := by
  induction l generalizing l' with
  | nil => simp [eq_comm]
  | cons a l ih =>
    simp only [List.mapM_cons, bind, Option.bind_eq_some_iff, List.forall₂_cons_left_iff, ih]
    constructor
    · rintro ⟨b, hb, bs, hbs, hl⟩
      exact ⟨b, bs, hb, hbs, (Option.some.inj hl).symm⟩
    · rintro ⟨b, bs, hb, hbs, rfl⟩
      exact ⟨b, hb, bs, hbs, rfl⟩

/-- A list is gone through without an error when no item has one. -/
theorem forM_eq_ok_iff {α ε : Type} {f : α → Except ε Unit} {l : List α} :
    l.forM f = .ok () ↔ ∀ a ∈ l, f a = .ok () := by
  rw [List.forM_eq_forM]
  induction l with
  | nil => simp [pure, Except.pure]
  | cons a l ih =>
    rw [List.forM_cons, bind_eq_ok, List.forall_mem_cons, ← ih]
    exact ⟨fun ⟨_, ha, hl⟩ => ⟨ha, hl⟩, fun ⟨ha, hl⟩ => ⟨(), ha, hl⟩⟩

theorem exists_forall₂_iff {α β : Type} {R : α → β → Prop} {l : List α} :
    (∃ l', List.Forall₂ R l l') ↔ ∀ a ∈ l, ∃ b, R a b := by
  induction l with
  | nil => simp
  | cons a l ih =>
    simp only [List.forall₂_cons_left_iff, List.forall_mem_cons, ← ih]
    constructor
    · rintro ⟨_, b, l', hab, hl, -⟩
      exact ⟨⟨b, hab⟩, l', hl⟩
    · rintro ⟨⟨b, hab⟩, l', hl⟩
      exact ⟨_, b, l', hab, hl, rfl⟩

/-- The items in front of the first one that fails a test. -/
theorem forall_takeWhile_iff {α : Type} {p : α → Bool} {Q : α → Prop} {l : List α}
    (h : ∃ a ∈ l, ¬ p a) :
    (∀ a ∈ l.takeWhile p, Q a) ↔
      ∃ front b back, l = front ++ b :: back ∧ ¬ p b ∧ ∀ a ∈ front, p a ∧ Q a := by
  constructor
  · intro hall
    cases hdrop : l.dropWhile p with
    | nil =>
      obtain ⟨a, ha, hp⟩ := h
      exact absurd (List.dropWhile_eq_nil_iff.1 hdrop a ha) hp
    | cons b back =>
      have hb := List.dropWhile_get_zero_not p l (by simp [hdrop])
      refine ⟨l.takeWhile p, b, back, ?_, by simpa [hdrop] using hb, fun a ha =>
        ⟨List.mem_takeWhile_imp ha, hall a ha⟩⟩
      rw [← hdrop, List.takeWhile_append_dropWhile]
  · rintro ⟨front, b, back, rfl, hb, hfront⟩ a ha
    rw [List.takeWhile_append_of_pos fun a ha => (hfront a ha).1, List.takeWhile_cons_of_neg hb,
      List.append_nil] at ha
    exact (hfront a ha).2

/-- Lists up to the first place of an item are determined by what stands before and behind it. -/
theorem append_cons_injective {α : Type} {a : α} {l l' s s' : List α} (hl : a ∉ l) (hl' : a ∉ l')
    (h : l ++ a :: s = l' ++ a :: s') : l = l' ∧ s = s' := by
  induction l generalizing l' with
  | nil =>
    cases l' with
    | nil => exact ⟨rfl, (List.cons.inj h).2⟩
    | cons b l' => exact absurd ((List.cons.inj h).1 ▸ List.mem_cons_self) hl'
  | cons b l ih =>
    cases l' with
    | nil => exact absurd ((List.cons.inj h).1 ▸ List.mem_cons_self) hl
    | cons c l' =>
      obtain ⟨rfl, hrest⟩ := List.cons.inj h
      obtain ⟨rfl, rfl⟩ :=
        ih (List.not_mem_of_not_mem_cons hl) (List.not_mem_of_not_mem_cons hl') hrest
      exact ⟨rfl, rfl⟩

/-- Behind the first list each list follows its own separator. -/
theorem intercalate_cons_eq_append {α : Type} (separator x : List α) (l : List (List α)) :
    separator.intercalate (x :: l) = x ++ l.flatMap (separator ++ ·) := by
  induction l generalizing x with
  | nil => rw [List.intercalate_singleton, List.flatMap_nil, List.append_nil]
  | cons y l ih =>
    rw [List.intercalate_cons_cons, ih y, List.flatMap_cons]
    simp only [List.append_assoc]

theorem mem_or_exists_mem_of_mem_intercalate {α : Type} {a : α} {separator : List α}
    {l : List (List α)} (h : a ∈ separator.intercalate l) : a ∈ separator ∨ ∃ x ∈ l, a ∈ x := by
  cases l with
  | nil => simp at h
  | cons x l =>
    rw [intercalate_cons_eq_append, List.mem_append, List.mem_flatMap] at h
    rw [List.exists_mem_cons_iff]
    rcases h with h | ⟨y, hy, h⟩
    · exact Or.inr (Or.inl h)
    · exact (List.mem_append.1 h).imp_right fun h => Or.inr ⟨y, hy, h⟩

theorem encard_setOf_mem {α : Type} {l : List α} (h : l.Nodup) : {a | a ∈ l}.encard = l.length := by
  classical
  rw [← List.coe_toFinset, Set.encard_coe_eq_coe_finsetCard, List.toFinset_card_of_nodup h]

/-- A test of a result that is there. -/
theorem exists_ok_of_any {α ε : Type} {x : Except ε α} {p : α → Bool} (h : x.toOption.any p) :
    ∃ a, x = .ok a ∧ p a := by
  cases x with
  | error e => simp [Except.toOption] at h
  | ok a => exact ⟨a, rfl, h⟩

end BucketPlanner
