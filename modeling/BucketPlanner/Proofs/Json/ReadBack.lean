import BucketPlanner.Proofs.Json.Written

/-!
# Values that are read

`Json.IsReadable` says what is known of every value that is read: how deeply it nests, that its
objects are in order, and that its integers are read back. The document of such a value is read as
the value (`Json.ofDocument?_document`), when the real numbers in it are read back too; so values that
are read from texts survive being written (`Json.ofText?_render_of_ofText?`).
-/

namespace BucketPlanner.Json

/-- The members of an object stand in ascending order of their names. -/
def IsOrdered : Json → Prop
  | object members => Ascending.IsAscending members
  | _ => True

instance : DecidablePred IsOrdered
  | object members => inferInstanceAs (Decidable (members.Pairwise (compare ·.1 ·.1 = .lt)))
  | null | bool _ | number _ | text _ | list _ => isTrue trivial

/-- What is known of a value that is read from a document with at most so many levels. -/
inductive IsReadable : Nat → Json → Prop
  | null (levels : Nat) : IsReadable levels .null
  | bool (levels : Nat) (b : Bool) : IsReadable levels (.bool b)
  | number (levels : Nat) {n : JsonNumber} (h : n.isReal ∨ n.IsReadBack) :
    IsReadable levels (.number n)
  | text (levels : Nat) (s : String) : IsReadable levels (.text s)
  | list {levels : Nat} {items : List Json} (h : ∀ j ∈ items, IsReadable levels j) :
    IsReadable (levels + 1) (.list items)
  | object {levels : Nat} {members : List (String × Json)} (h : ∀ m ∈ members, IsReadable levels m.2)
    (hascending : Ascending.IsAscending members) : IsReadable (levels + 1) (.object members)

variable {levels : Nat} {j : Json}

/-! ### What is read -/

/-- Reading members one after the other keeps those before in order. -/
theorem isAscending_of_ofMembers? {ds : List (Option String × Document)}
    {members members' : List (String × Json)} (h : ofMembers? levels ds members = some members')
    (hmembers : Ascending.IsAscending members) : Ascending.IsAscending members' := by
  induction ds generalizing members with
  | nil =>
    rw [ofMembers?, Option.some.injEq] at h
    rwa [← h]
  | cons d ds ih =>
    obtain ⟨name, d⟩ := d
    simp only [ofMembers?, bind, Option.bind_eq_some_iff] at h
    obtain ⟨key, -, json, -, hrest⟩ := h
    exact ih hrest hmembers.put

theorem exists_of_mem_ofItems? {ds : List Document} {items : List Json}
    (h : ofItems? levels ds = some items) (hj : j ∈ items) :
    ∃ d ∈ ds, ofDocument? levels d = some j := by
  induction ds generalizing items with
  | nil =>
    rw [ofItems?, Option.some.injEq] at h
    rw [← h] at hj
    simp at hj
  | cons d ds ih =>
    simp only [ofItems?, bind, Option.bind_eq_some_iff] at h
    obtain ⟨k, hk, ks, hks, hitems⟩ := h
    rw [← Option.some.inj hitems] at hj
    rcases List.mem_cons.1 hj with rfl | hj
    · exact ⟨d, List.mem_cons_self, hk⟩
    · obtain ⟨e, he, hread⟩ := ih hks hj
      exact ⟨e, List.mem_cons_of_mem _ he, hread⟩

theorem exists_of_mem_ofMembers? {ds : List (Option String × Document)}
    {members members' : List (String × Json)} (h : ofMembers? levels ds members = some members')
    {m : String × Json} (hm : m ∈ members') :
    m ∈ members ∨ ∃ d ∈ ds, ofDocument? levels d.2 = some m.2 := by
  induction ds generalizing members with
  | nil =>
    rw [ofMembers?, Option.some.injEq] at h
    exact Or.inl (h ▸ hm)
  | cons d ds ih =>
    obtain ⟨name, d⟩ := d
    simp only [ofMembers?, bind, Option.bind_eq_some_iff] at h
    obtain ⟨key, -, json, hjson, hrest⟩ := h
    rcases ih hrest with hput | ⟨e, he, hread⟩
    · rcases Ascending.eq_or_mem_of_mem_put hput with rfl | hmem
      · exact Or.inr ⟨(name, d), List.mem_cons_self, hjson⟩
      · exact Or.inl hmem
    · exact Or.inr ⟨e, List.mem_cons_of_mem _ he, hread⟩

/-- **Every value that is read** is readable. -/
theorem isReadable_of_ofDocument? {d : Document} (h : ofDocument? levels d = some j) :
    j.IsReadable levels := by
  induction levels using Nat.strongRecOn generalizing d j with
  | ind levels ih =>
    cases d with
    | null | bool =>
      rw [ofDocument?, Option.some.injEq] at h
      rw [← h]
      constructor
    | numeral =>
      rw [ofDocument?, Option.map_eq_some_iff] at h
      obtain ⟨n, hn, rfl⟩ := h
      exact .number _ (JsonNumber.isReal_or_isReadBack_of_jsonNumber? hn)
    | text =>
      rw [ofDocument?, Option.map_eq_some_iff] at h
      obtain ⟨s, -, rfl⟩ := h
      constructor
    | list ds =>
      cases levels with
      | zero => simp [ofDocument?] at h
      | succ levels =>
        rw [ofDocument?, Option.map_eq_some_iff] at h
        obtain ⟨items, hitems, rfl⟩ := h
        refine .list fun j hj => ?_
        obtain ⟨d, -, hd⟩ := exists_of_mem_ofItems? hitems hj
        exact ih levels (Nat.lt_succ_self levels) hd
    | object ds =>
      cases levels with
      | zero => simp [ofDocument?] at h
      | succ levels =>
        rw [ofDocument?, Option.map_eq_some_iff] at h
        obtain ⟨members, hmembers, rfl⟩ := h
        refine .object (fun m hm => ?_) (isAscending_of_ofMembers? hmembers List.Pairwise.nil)
        rcases exists_of_mem_ofMembers? hmembers hm with hnil | ⟨d, -, hd⟩
        · simp at hnil
        · exact ih levels (Nat.lt_succ_self levels) hd

/-- Only `null` is read as `null`. -/
theorem eq_null_of_ofDocument? {d : Document} (h : ofDocument? levels d = some .null) :
    d = .null := by
  cases d with
  | null => rfl
  | bool => simp [ofDocument?] at h
  | numeral | text => simp [ofDocument?] at h
  | list | object => cases levels <;> simp [ofDocument?] at h

theorem document_ne_null (h : j ≠ .null) : j.document ≠ .null := by
  cases j with
  | null => exact absurd rfl h
  | bool | number | text | list | object => simp [document]

namespace IsReadable

theorem isOrdered (h : j.IsReadable levels) : j.IsOrdered := by
  cases h with
  | object _ hascending => exact hascending
  | null | bool | number | text | list => trivial

/-- The integers in a value that is read are read back. -/
theorem isReal_or_isReadBack (h : j.IsReadable levels) {n : JsonNumber} (hn : n ∈ j.numbers) :
    n.isReal ∨ n.IsReadBack := by
  induction h with
  | null | bool | text => simp [numbers] at hn
  | number _ h =>
    rw [numbers, List.mem_singleton] at hn
    rwa [hn]
  | list _ ih =>
    obtain ⟨j, hj, hn⟩ := mem_numbers_list.1 hn
    exact ih j hj hn
  | object _ _ ih =>
    obtain ⟨m, hm, hn⟩ := mem_numbers_object.1 hn
    exact ih m hm hn

end IsReadable

/-- **A text that is read** as an object gives members in order. -/
theorem isOrdered_of_ofText? {text : String} (h : ofText? text = some j) : j.IsOrdered := by
  obtain ⟨d, -, hd⟩ := Option.bind_eq_some_iff.1 h
  exact (isReadable_of_ofDocument? hd).isOrdered

/-! ### Reading again -/

theorem ofItems?_map_document {items : List Json}
    (h : ∀ j ∈ items, ofDocument? levels j.document = some j) :
    ofItems? levels (items.map document) = some items := by
  induction items with
  | nil => rfl
  | cons j items ih =>
    obtain ⟨hj, hitems⟩ := List.forall_mem_cons.1 h
    rw [List.map_cons, ofItems?, hj, ih hitems]
    rfl

theorem ofMembers?_map_document {members before : List (String × Json)}
    (h : ∀ m ∈ members, ofDocument? levels m.2.document = some m.2)
    (hascending : Ascending.IsAscending (before ++ members)) :
    ofMembers? levels (members.map fun m => (some m.1, m.2.document)) before =
      some (before ++ members) := by
  induction members generalizing before with
  | nil => rw [List.map_nil, ofMembers?, List.append_nil]
  | cons m members ih =>
    obtain ⟨hm, hmembers⟩ := List.forall_mem_cons.1 h
    have hput : Ascending.put m.1 m.2 before = before ++ [m] :=
      Ascending.put_eq_append_of_forall_lt fun e he =>
        (List.pairwise_append.1 hascending).2.2 e he m List.mem_cons_self
    rw [List.append_cons] at hascending ⊢
    rw [List.map_cons, ofMembers?, hm]
    simpa [hput] using ih hmembers hascending

/-- **A value that was read** is read again from its document. -/
theorem ofDocument?_document (h : j.IsReadable levels) (hnumbers : ∀ n ∈ j.numbers, n.IsReadBack) :
    ofDocument? levels j.document = some j := by
  induction h with
  | null | bool | text => simp [document, ofDocument?]
  | number =>
    have hn := hnumbers _ (by rw [numbers]; exact List.mem_singleton_self _)
    rw [document, ofDocument?, hn.jsonNumber?_numeral, Option.map_some]
  | @list levels items _ ih =>
    have hitems : ∀ j ∈ items, ofDocument? levels j.document = some j := fun j hj =>
      ih j hj fun n hn => hnumbers n (mem_numbers_list.2 ⟨j, hj, hn⟩)
    rw [document, ofDocument?, ofItems?_map_document hitems, Option.map_some]
  | @object levels members _ hascending ih =>
    have hmembers : ∀ m ∈ members, ofDocument? levels m.2.document = some m.2 := fun m hm =>
      ih m hm fun n hn => hnumbers n (mem_numbers_object.2 ⟨m, hm, hn⟩)
    have hread : ofMembers? levels (members.map fun m => (some m.1, m.2.document)) [] =
        some members := ofMembers?_map_document hmembers hascending
    rw [document, ofDocument?, hread, Option.map_some]

/-- **A value that is read from a text** is read again from its written form, when the real numbers in
it are read back. -/
theorem ofText?_render_of_ofText? {text : String} (h : ofText? text = some j)
    (hreals : ∀ n ∈ j.numbers, n.isReal → n.IsReadBack) : ofText? j.render = some j := by
  obtain ⟨d, -, hd⟩ := Option.bind_eq_some_iff.1 h
  have hreadable := isReadable_of_ofDocument? hd
  have hnumbers : ∀ n ∈ j.numbers, n.IsReadBack := fun n hn =>
    (hreadable.isReal_or_isReadBack hn).elim (hreals n hn) id
  rw [ofText?, ofText?_render hnumbers, Option.bind_some, ofDocument?_document hreadable hnumbers]

end BucketPlanner.Json
