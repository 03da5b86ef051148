import BucketPlanner.Plan.Scan
import BucketPlanner.Proofs.Bucket.Log
import BucketPlanner.Proofs.Bucket.Range
import BucketPlanner.Proofs.Json.Written
import BucketPlanner.Proofs.Lists
import Std.Data.String.ToInt

/-!
# Written operations

What is written of operations determines them: two lists of operations with the same text, or with
the same JSON value, are equal (`ScanOp.renderings_injective`). The text of an operation shows where
it ends, and keys are told apart whether they are numbers or texts.
-/

namespace BucketPlanner

/-! ### Numbers in decimal digits -/

theorem IndexId.render_injective : Function.Injective IndexId.render := by
  intro id id' h
  have hposition : id.position = id'.position := Nat.repr_injective h
  exact IndexId.eq_of_position hposition

theorem IndexId.isDigit_of_mem_render {id : IndexId} {c : Char} (h : c ∈ id.render.toList) :
    c.isDigit := by
  have hdigits : id.render.toList = Nat.toDigits 10 id.position := Nat.toList_repr
  rw [hdigits] at h
  exact Nat.isDigit_of_mem_toDigits (by decide) (by decide) h

theorem Key.render_injective : Function.Injective Key.render := by
  intro k k' h
  exact Key.ext (Int.repr_injective h)

theorem Key.mem_render {k : Key} {c : Char} (h : c ∈ k.render.toList) : c = '-' ∨ c.isDigit := by
  obtain ⟨i, hlower, hupper⟩ := k
  cases i with
  | ofNat n =>
    have hdigits : (Key.render ⟨.ofNat n, hlower, hupper⟩).toList = Nat.toDigits 10 n :=
      Nat.toList_repr
    rw [hdigits] at h
    exact Or.inr (Nat.isDigit_of_mem_toDigits (by decide) (by decide) h)
  | negSucc n =>
    have hdigits : (Key.render ⟨.negSucc n, hlower, hupper⟩).toList =
        '-' :: Nat.toDigits 10 (n + 1) := by
      have hrender : Key.render ⟨.negSucc n, hlower, hupper⟩ = "-" ++ (n + 1).repr := rfl
      rw [hrender, String.toList_append, Nat.toList_repr]
      rfl
    rw [hdigits, List.mem_cons] at h
    exact h.imp_right (Nat.isDigit_of_mem_toDigits (by decide) (by decide))

namespace ScanOp

/-! ### Texts -/

theorem toList_render_indexRange (id : IndexId) (range : KeyRange) :
    (render (.indexRange id range)).toList =
      "index_range(index=".toList ++ (id.render.toList ++ ',' :: (" range=[".toList ++
        (range.low.render.toList ++ ',' :: ' ' ::
          (range.high.render.toList ++ ']' :: [')'])))) := by
  have hrender : render (.indexRange id range) =
      "index_range(index=" ++ id.render ++ ", range=" ++
        ("[" ++ range.low.render ++ ", " ++ range.high.render ++ "]") ++ ")" := rfl
  rw [hrender]
  simp only [String.toList_append, List.append_assoc]
  rfl

/-- **The text of an operation** shows where it ends, whatever follows. -/
theorem render_append_injective {op op' : ScanOp} {s s' : List Char}
    (h : op.render.toList ++ s = op'.render.toList ++ s') : op = op' ∧ s = s' := by
  cases op with
  | fullScan =>
    cases op' with
    | fullScan => exact ⟨rfl, List.append_cancel_left h⟩
    | indexRange id' range' =>
      rw [toList_render_indexRange] at h
      exact absurd (List.cons.inj h).1 (by decide)
  | indexRange id range =>
    cases op' with
    | fullScan =>
      rw [toList_render_indexRange] at h
      exact absurd (List.cons.inj h).1 (by decide)
    | indexRange id' range' =>
      have hid : ∀ id : IndexId, ',' ∉ id.render.toList := fun id hmem =>
        absurd (IndexId.isDigit_of_mem_render hmem) (by decide)
      have hlow : ∀ k : Key, ',' ∉ k.render.toList := fun k hmem =>
        absurd (Key.mem_render hmem) (by decide)
      have hhigh : ∀ k : Key, ']' ∉ k.render.toList := fun k hmem =>
        absurd (Key.mem_render hmem) (by decide)
      simp only [toList_render_indexRange, List.append_assoc, List.cons_append] at h
      obtain ⟨hids, hranges⟩ :=
        append_cons_injective (hid id) (hid id') (List.append_cancel_left h)
      obtain ⟨hlows, hhighs⟩ := append_cons_injective (hlow range.low) (hlow range'.low)
        (List.append_cancel_left hranges)
      obtain ⟨hhighs, hrest⟩ := append_cons_injective (hhigh range.high) (hhigh range'.high)
        (List.cons.inj hhighs).2
      have hid : id = id' := IndexId.render_injective (String.toList_inj.1 hids)
      have hrange : range = range' := KeyRange.eq_of_ends
        (Key.render_injective (String.toList_inj.1 hlows))
        (Key.render_injective (String.toList_inj.1 hhighs))
      exact ⟨by rw [hid, hrange], (List.cons.inj hrest).2⟩

/-- The text of operations behind the first one, and the end of the list. -/
def restChars (ops : List ScanOp) : List Char :=
  ops.flatMap (fun op => ", ".toList ++ op.render.toList) ++ [']']

theorem restChars_cons (op : ScanOp) (ops : List ScanOp) :
    restChars (op :: ops) = ", ".toList ++ (op.render.toList ++ restChars ops) := by
  simp only [restChars, List.flatMap_cons, List.append_assoc]

theorem toList_renderList_cons (op : ScanOp) (ops : List ScanOp) :
    (renderList (op :: ops)).toList = '[' :: (op.render.toList ++ restChars ops) := by
  rw [renderList, String.toList_append, String.toList_append, String.toList_intercalate,
    List.map_cons, List.map_cons, intercalate_cons_eq_append, restChars]
  simp only [List.map_map, List.flatMap_map, Function.comp_def, List.append_assoc]
  rfl

theorem restChars_injective : Function.Injective restChars := by
  intro ops ops' h
  induction ops generalizing ops' with
  | nil =>
    cases ops' with
    | nil => rfl
    | cons op' ops' => exact absurd (List.cons.inj h).1 (by decide)
  | cons op ops ih =>
    cases ops' with
    | nil => exact absurd (List.cons.inj h).1 (by decide)
    | cons op' ops' =>
      rw [restChars_cons, restChars_cons] at h
      obtain ⟨rfl, hrest⟩ := render_append_injective (List.append_cancel_left h)
      rw [ih hrest]

/-- No operation is written as the end of a list. -/
theorem render_append_ne (op : ScanOp) (s s' : List Char) : op.render.toList ++ s ≠ ']' :: s' := by
  intro h
  cases op with
  | fullScan => exact absurd (List.cons.inj h).1 (by decide)
  | indexRange id range =>
    rw [toList_render_indexRange] at h
    exact absurd (List.cons.inj h).1 (by decide)

/-- **The text of a list** determines its operations. -/
theorem renderList_injective : Function.Injective renderList := by
  intro ops ops' h
  have hnil : (renderList []).toList = '[' :: [']'] := rfl
  have hchars := congrArg String.toList h
  cases ops with
  | nil =>
    cases ops' with
    | nil => rfl
    | cons op' ops' =>
      rw [toList_renderList_cons, hnil] at hchars
      exact absurd (List.cons.inj hchars).2.symm (render_append_ne _ _ _)
  | cons op ops =>
    cases ops' with
    | nil =>
      rw [toList_renderList_cons, hnil] at hchars
      exact absurd (List.cons.inj hchars).2 (render_append_ne _ _ _)
    | cons op' ops' =>
      rw [toList_renderList_cons, toList_renderList_cons] at hchars
      obtain ⟨rfl, hrest⟩ := render_append_injective (List.cons.inj hchars).2
      rw [restChars_injective hrest]

end ScanOp

/-! ### JSON values -/

/-- The integer that a JSON value stands for, as a number or as a text. -/
def Json.integer? : Json → Option Int
  | number (.natural n) => some n.toNat
  | number (.negative i) => some i.toInt
  | text s => s.toInt?
  | _ => none

/-- A key is read back, whether it is a number or a text. -/
theorem Key.integer?_toJson (k : Key) : k.toJson.integer? = some k.val := by
  unfold toJson
  split_ifs with hnatural hnegative
  · have hlt : k.val.toNat < 2 ^ 64 := by omega
    rw [Json.integer?, UInt64.toNat_ofNat', Nat.mod_eq_of_lt hlt, Int.toNat_of_nonneg hnatural.1]
  · have hlt : k.val < 2 ^ 63 := by omega
    rw [Json.integer?, Int64.toInt_ofInt_of_le hnegative.1 hlt]
  · exact Int.toInt?_repr k.val

theorem IndexId.toJson_injective :
    Function.Injective fun id : IndexId => Json.ofNat id.position := by
  intro id id' h
  have hlt : ∀ id : IndexId, id.position < 2 ^ 64 := fun id =>
    Nat.lt_trans id.val.toNat_lt (by decide)
  simp only [Json.ofNat, Json.number.injEq, JsonNumber.natural.injEq, ← UInt64.toNat_inj,
    UInt64.toNat_ofNat', Nat.mod_eq_of_lt (hlt _)] at h
  exact IndexId.eq_of_position h

theorem Key.toJson_injective : Function.Injective Key.toJson := by
  intro k k' h
  have hinteger := k.integer?_toJson
  rw [h, k'.integer?_toJson, Option.some.injEq] at hinteger
  exact Key.ext hinteger.symm

namespace ScanOp

theorem member?_toJson_fullScan : (toJson .fullScan).member? "op" = some (.text "full_scan") :=
  Json.member?_ofMembers (by simp) (by simp)

theorem member?_toJson_indexRange (id : IndexId) (range : KeyRange) :
    (toJson (.indexRange id range)).member? "op" = some (.text "index_range") ∧
    (toJson (.indexRange id range)).member? "index" = some (.ofNat id.position) ∧
    (toJson (.indexRange id range)).member? "range" =
      some (.list [range.low.toJson, range.high.toJson]) := by
  refine ⟨?_, ?_, ?_⟩ <;> exact Json.member?_ofMembers (by simp) (by simp)

theorem toJson_fullScan_ne (id : IndexId) (range : KeyRange) :
    toJson .fullScan ≠ toJson (.indexRange id range) := by
  intro h
  have hop := member?_toJson_fullScan
  rw [h, (member?_toJson_indexRange id range).1] at hop
  simp at hop

/-- **The JSON value of an operation** determines it. -/
theorem toJson_injective : Function.Injective toJson := by
  intro op op' h
  cases op with
  | fullScan =>
    cases op' with
    | fullScan => rfl
    | indexRange id' range' => exact absurd h (toJson_fullScan_ne id' range')
  | indexRange id range =>
    cases op' with
    | fullScan => exact absurd h.symm (toJson_fullScan_ne id range)
    | indexRange id' range' =>
      obtain ⟨-, hindex, hrange⟩ := member?_toJson_indexRange id range
      obtain ⟨-, hindex', hrange'⟩ := member?_toJson_indexRange id' range'
      rw [h, hindex', Option.some.injEq] at hindex
      rw [h, hrange', Option.some.injEq] at hrange
      simp only [Json.list.injEq, List.cons.injEq, and_true, Key.toJson_injective.eq_iff] at hrange
      have hid : id' = id := IndexId.toJson_injective hindex
      have hrange : range' = range := KeyRange.eq_of_ends hrange.1 hrange.2
      rw [hid, hrange]

/-- **What is written of operations** determines them, as text and as JSON. -/
theorem renderings_injective :
    Function.Injective listToJson ∧ Function.Injective renderList := by
  refine ⟨fun ops ops' h => ?_, renderList_injective⟩
  exact List.map_injective_iff.2 toJson_injective (Json.list.inj h)

end ScanOp

end BucketPlanner
