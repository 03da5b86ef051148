import BucketPlanner.Json.Document
import BucketPlanner.Proofs.Json.Numbers
import BucketPlanner.Proofs.Json.Texts
import BucketPlanner.Proofs.Lists

/-!
# Written values

The written form of a value is read as one document, `Json.document`, when the numbers in the value
are read back (`Json.ofText?_render`). The scanner takes the written form as the tokens of the
value, whatever stands in front of them, and the builder puts the document of these tokens where a
value is expected. Objects whose members are texts, here called fields, are written without control
characters (`Json.le_toNat_of_mem_render`).
-/

namespace BucketPlanner.Json

/-! ### Members -/

/-- A member of an object. -/
def member? (name : String) : Json → Option Json
  | object members => Ascending.find? name members
  | _ => none

theorem member?_ofMembers {name : String} {json : Json} {members : List (String × Json)}
    (h : (members.map Prod.fst).Nodup) (hmem : (name, json) ∈ members) :
    (ofMembers members).member? name = some json :=
  (Ascending.find?_putAll_eq_some_iff h).2 hmem

/-! ### Recursion over values -/

theorem sizeOf_lt_of_mem_list {items : List Json} {j : Json} (h : j ∈ items) :
    sizeOf j < sizeOf (list items) := by
  have := List.sizeOf_lt_of_mem h
  simp only [list.sizeOf_spec]
  omega

theorem sizeOf_lt_of_mem_object {members : List (String × Json)} {m : String × Json}
    (h : m ∈ members) : sizeOf m.2 < sizeOf (object members) := by
  obtain ⟨name, j⟩ := m
  have := List.sizeOf_lt_of_mem h
  simp only [Prod.mk.sizeOf_spec] at this
  simp only [object.sizeOf_spec]
  omega

/-- Induction over values: lists from their items, objects from the values of their members. -/
@[elab_as_elim]
theorem induct {motive : Json → Prop} (null : motive .null) (bool : ∀ b, motive (.bool b))
    (number : ∀ n, motive (.number n)) (text : ∀ s, motive (.text s))
    (list : ∀ items, (∀ j ∈ items, motive j) → motive (.list items))
    (object : ∀ members, (∀ m ∈ members, motive m.2) → motive (.object members)) :
    ∀ j, motive j
  | .null => null
  | .bool b => bool b
  | .number n => number n
  | .text s => text s
  | .list items => list items fun j _ => induct null bool number text list object j
  | .object members => object members fun m _ => induct null bool number text list object m.2
termination_by j => sizeOf j
decreasing_by
  · exact sizeOf_lt_of_mem_list ‹_›
  · exact sizeOf_lt_of_mem_object ‹_›

mutual

/-- The numbers in a value. -/
def numbers : Json → List JsonNumber
  | number n => [n]
  | list items => itemNumbers items
  | object members => memberNumbers members
  | null | bool _ | text _ => []

/-- The numbers in the items of a list. -/
def itemNumbers : List Json → List JsonNumber
  | [] => []
  | j :: items => numbers j ++ itemNumbers items

/-- The numbers in the members of an object. -/
def memberNumbers : List (String × Json) → List JsonNumber
  | [] => []
  | (_, j) :: members => numbers j ++ memberNumbers members

end

theorem mem_numbers_list {items : List Json} {n : JsonNumber} :
    n ∈ (list items).numbers ↔ ∃ j ∈ items, n ∈ j.numbers := by
  rw [numbers]
  induction items with
  | nil => simp [itemNumbers]
  | cons j items ih => rw [itemNumbers, List.mem_append, ih, List.exists_mem_cons_iff]

theorem mem_numbers_object {members : List (String × Json)} {n : JsonNumber} :
    n ∈ (object members).numbers ↔ ∃ m ∈ members, n ∈ m.2.numbers := by
  rw [numbers]
  induction members with
  | nil => simp [memberNumbers]
  | cons m members ih => rw [memberNumbers, List.mem_append, ih, List.exists_mem_cons_iff]

/-- The document of a value. -/
def document : Json → Document
  | null => .null
  | bool b => .bool b
  | number n => .numeral n.numeral
  | text s => .text (some s)
  | list items => .list (items.map document)
  | object members => .object (members.map fun m => (some m.1, m.2.document))
termination_by j => sizeOf j
decreasing_by
  · exact sizeOf_lt_of_mem_list ‹_›
  · exact sizeOf_lt_of_mem_object ‹_›

/-- The tokens of a value. -/
def tokens : Json → List Token
  | null => [.null]
  | bool b => [.bool b]
  | number n => [.numeral n.numeral]
  | text s => [.text (some s)]
  | list items => [.listOpen] ++ List.intercalate [.comma] (items.map tokens) ++ [.listClose]
  | object members =>
    [.objectOpen] ++
      List.intercalate [.comma] (members.map fun m => [.text (some m.1), .colon] ++ m.2.tokens) ++
      [.objectClose]
termination_by j => sizeOf j
decreasing_by
  · exact sizeOf_lt_of_mem_list ‹_›
  · exact sizeOf_lt_of_mem_object ‹_›

/-! ### Scanning -/

theorem itemsChars_eq (items : List Json) :
    itemsChars items = List.intercalate [','] (items.map chars) := by
  induction items with
  | nil => rfl
  | cons j items ih =>
    cases items with
    | nil => simp [itemsChars]
    | cons k items =>
      simp only [List.map_cons, List.intercalate_cons_cons] at ih ⊢
      simp [itemsChars, ih]

/-- The written form of a member. -/
def memberChars (m : String × Json) : List Char := textChars m.1 ++ ':' :: m.2.chars

theorem membersChars_eq (members : List (String × Json)) :
    membersChars members = List.intercalate [','] (members.map memberChars) := by
  induction members with
  | nil => rfl
  | cons m members ih =>
    cases members with
    | nil => simp [membersChars, memberChars]
    | cons n members =>
      simp only [List.map_cons, List.intercalate_cons_cons] at ih ⊢
      simp [membersChars, memberChars, ih]

/-- The members of an object behind the first one have a comma each. -/
theorem membersChars_cons (m : String × Json) (members : List (String × Json)) :
    membersChars (m :: members) = memberChars m ++ members.flatMap fun m => ',' :: memberChars m := by
  induction members generalizing m with
  | nil => simp [membersChars, memberChars]
  | cons n members ih =>
    rw [membersChars, ih]
    simp [memberChars]

/-- The scanner takes characters between two tokens as the given tokens when nothing follows. What
it is inside of after the last character may go on. -/
def Spells (cs : List Char) (ts : List Token) : Prop :=
  ∀ tokens, (cs.foldlM Scanner.step ⟨.between, tokens⟩).bind Scanner.close? =
    some (ts.reverse ++ tokens)

theorem tokens?_of_spells {cs : List Char} {ts : List Token} (h : Spells cs ts) :
    tokens? cs = some ts := by
  rw [tokens?, h [], Option.map_some, List.append_nil, List.reverse_reverse]

theorem Scans.spells {cs : List Char} {ts : List Token} (h : Scans cs ts) : Spells cs ts := by
  intro tokens
  rw [h tokens]
  rfl

theorem Scans.append_spells {cs cs' : List Char} {ts ts' : List Token} (h : Scans cs ts)
    (h' : Spells cs' ts') : Spells (cs ++ cs') (ts ++ ts') := by
  intro tokens
  rw [List.foldlM_append, h tokens, List.reverse_append, List.append_assoc]
  exact h' _

/-- Commas and closing brackets are part of no other token but texts. -/
theorem step_of_close? {s : Scanner} {tokens : List Token} (h : s.close? = some tokens) {c : Char}
    (hc : c ∈ [',', ']', '}']) : s.step c = Scanner.start tokens c := by
  simp only [List.mem_cons, List.not_mem_nil, or_false] at hc
  have hletter : ¬ c.isAlpha := by rcases hc with rfl | rfl | rfl <;> decide
  have hnumeral : ¬ Scanner.isNumeralChar c := by rcases hc with rfl | rfl | rfl <;> decide
  obtain ⟨mode, before⟩ := s
  cases mode with
  | between =>
    rw [← Option.some.inj h]
    rfl
  | word => simp only [Scanner.step, if_neg hletter, h, Option.bind_some]
  | numeral => simp only [Scanner.step, if_neg hnumeral, h, Option.bind_some]
  | text | escape | unit => simp [Scanner.close?] at h

theorem Spells.append_delimiter {cs : List Char} {ts : List Token} (h : Spells cs ts) {c : Char}
    (hc : c ∈ [',', ']', '}']) {t : Token} (ht : Scans [c] [t]) : Scans (cs ++ [c]) (ts ++ [t]) := by
  intro tokens
  obtain ⟨s, hs, hclose⟩ := Option.bind_eq_some_iff.1 (h tokens)
  have hstart : [c].foldlM Scanner.step s =
      [c].foldlM Scanner.step ⟨.between, ts.reverse ++ tokens⟩ := by
    rw [List.foldlM_cons, List.foldlM_cons, step_of_close? hclose hc]
    rfl
  rw [List.foldlM_append, hs, Option.bind_eq_bind, Option.bind_some, hstart, ht, List.reverse_append,
    List.append_assoc]

theorem Spells.intercalate {α : Type} {chars : α → List Char} {tokens : α → List Token} {l : List α}
    (h : ∀ a ∈ l, Spells (chars a) (tokens a)) :
    Spells (List.intercalate [','] (l.map chars)) (List.intercalate [.comma] (l.map tokens)) := by
  have hcomma : Scans [','] [.comma] := fun _ => rfl
  induction l with
  | nil => exact fun _ => rfl
  | cons a l ih =>
    obtain ⟨ha, hl⟩ := List.forall_mem_cons.1 h
    cases l with
    | nil =>
      simp only [List.map_cons, List.map_nil, List.intercalate_singleton]
      exact ha
    | cons b l =>
      simp only [List.map_cons, List.intercalate_cons_cons]
      exact (ha.append_delimiter (by decide) hcomma).append_spells (ih hl)

theorem foldlM_numeralChars {cs : List Char} (h : ∀ c ∈ cs, Scanner.isNumeralChar c)
    (front : List Char) (tokens : List Token) :
    cs.foldlM Scanner.step ⟨.numeral front, tokens⟩ =
      some ⟨.numeral (cs.reverse ++ front), tokens⟩ := by
  induction cs generalizing front with
  | nil => rfl
  | cons c cs ih =>
    obtain ⟨hc, hcs⟩ := List.forall_mem_cons.1 h
    have hstep : Scanner.step ⟨.numeral front, tokens⟩ c = some ⟨.numeral (c :: front), tokens⟩ :=
      if_pos hc
    rw [List.foldlM_cons, hstep, List.reverse_cons, List.append_assoc]
    exact ih hcs (c :: front)

/-- Letters come behind digits and signs. -/
theorem not_isAlpha_of_toNat_lt {c : Char} (h : c.toNat < 65) : ¬ c.isAlpha := by
  intro halpha
  have hle : 65 ≤ c.toNat := by
    rcases Bool.or_eq_true_iff.1 halpha with hupper | hlower
    · exact UInt32.le_iff_toNat_le.1 (of_decide_eq_true hupper).1
    · have hlow : 97 ≤ c.toNat :=
        UInt32.le_iff_toNat_le.1 (of_decide_eq_true (Bool.and_eq_true_iff.1 hlower).1)
      omega
  omega

theorem start_of_isDigit_or_minus {c : Char} (h : c.isDigit || c == '-') (tokens : List Token) :
    Scanner.start tokens c = some ⟨.numeral [c], tokens⟩ := by
  have hseparator : ¬ Scanner.isSeparator c := by
    intro hblank
    simp only [Scanner.isSeparator, Bool.or_eq_true, beq_iff_eq] at hblank
    obtain ((rfl | rfl) | rfl) | rfl := hblank <;> simp at h
  have hletter : ¬ c.isAlpha := by
    rcases Bool.or_eq_true_iff.1 h with hdigit | hminus
    · have hhigh : c.toNat ≤ 57 :=
        UInt32.le_iff_toNat_le.1 (of_decide_eq_true (Bool.and_eq_true_iff.1 hdigit).2)
      exact not_isAlpha_of_toNat_lt (by omega)
    · rw [beq_iff_eq.1 hminus]
      decide
  unfold Scanner.start
  rw [if_neg hseparator, if_neg hletter, if_pos h]

/-- **A numeral** is one token. -/
theorem spells_numeral {cs : List Char} {n : Numeral} (h : Numeral.ofChars? cs = some n) :
    Spells cs [.numeral n] := by
  intro tokens
  obtain ⟨c, rest, rfl, hc⟩ := Numeral.exists_cons_of_ofChars? h
  obtain ⟨-, hrest⟩ := List.forall_mem_cons.1 (Numeral.isNumeralChar_of_ofChars? h)
  have hstart : Scanner.step ⟨.between, tokens⟩ c = some ⟨.numeral [c], tokens⟩ :=
    start_of_isDigit_or_minus hc tokens
  rw [List.foldlM_cons, hstart, Option.bind_eq_bind, Option.bind_some, foldlM_numeralChars hrest,
    Option.bind_some]
  simp [Scanner.close?, h]

/-- **The written form of a value** is made of the tokens of the value. -/
theorem spells_chars (j : Json) (h : ∀ n ∈ j.numbers, n.IsReadBack) : Spells j.chars j.tokens := by
  induction j using induct with
  | null =>
    rw [chars, tokens]
    exact fun _ => rfl
  | bool b =>
    cases b <;> rw [chars, tokens] <;> exact fun _ => rfl
  | number n =>
    rw [chars, tokens]
    exact spells_numeral (h n (by simp [numbers])).ofChars?_text
  | text s =>
    rw [chars, tokens]
    exact (scans_textChars s).spells
  | list items ih =>
    have hopen : Scans ['['] [.listOpen] := fun _ => rfl
    have hclose : Scans [']'] [.listClose] := fun _ => rfl
    have hitems : Spells (itemsChars items) (List.intercalate [.comma] (items.map tokens)) := by
      rw [itemsChars_eq]
      exact Spells.intercalate fun j hj =>
        ih j hj fun n hn => h n (mem_numbers_list.2 ⟨j, hj, hn⟩)
    rw [chars, tokens, List.append_assoc]
    exact (hopen.append (hitems.append_delimiter (by decide) hclose)).spells
  | object members ih =>
    have hopen : Scans ['{'] [.objectOpen] := fun _ => rfl
    have hclose : Scans ['}'] [.objectClose] := fun _ => rfl
    have hcolon : Scans [':'] [.colon] := fun _ => rfl
    have hmembers : Spells (membersChars members) (List.intercalate [.comma]
        (members.map fun m => [.text (some m.1), .colon] ++ m.2.tokens)) := by
      rw [membersChars_eq]
      refine Spells.intercalate fun m hm => ?_
      have hvalue : Spells m.2.chars m.2.tokens :=
        ih m hm fun n hn => h n (mem_numbers_object.2 ⟨m, hm, hn⟩)
      exact (scans_textChars m.1).append_spells (hcolon.append_spells hvalue)
    rw [chars, tokens, List.append_assoc]
    exact (hopen.append (hmembers.append_delimiter (by decide) hclose)).spells

/-! ### Building -/

/-- The builder puts a document where a value is expected when it takes the given tokens. -/
def Builds (ts : List Token) (d : Document) : Prop :=
  ∀ frames expected, expected = .value ∨ expected = .valueOrClose →
    ts.foldlM Builder.step ⟨frames, expected, none⟩ = Builder.place frames d

/-- The builder reads what stands between commas one after the other. Here `state` is a builder with
the given items or members read, the last one first. -/
theorem foldlM_intercalate {α β : Type} {tokens : α → List Token} {read : α → β}
    {state : List β → Expected → Builder} {next expected : Expected}
    (hcomma : ∀ bs, Builder.step (state bs .separator) .comma = some (state bs next))
    {a : α} {l : List α} (hread : ∀ b ∈ a :: l, ∀ bs, ∀ e ∈ [expected, next],
      (tokens b).foldlM Builder.step (state bs e) = some (state (read b :: bs) .separator))
    (bs : List β) :
    (List.intercalate [.comma] ((a :: l).map tokens)).foldlM Builder.step (state bs expected) =
      some (state (((a :: l).map read).reverse ++ bs) .separator) := by
  induction l generalizing a expected bs with
  | nil =>
    simp only [List.map_cons, List.map_nil, List.intercalate_singleton]
    exact hread a (by simp) bs expected (by simp)
  | cons b l ih =>
    obtain ⟨ha, hl⟩ := List.forall_mem_cons.1 hread
    have hnext : ∀ c ∈ b :: l, ∀ bs, ∀ e ∈ [next, next],
        (tokens c).foldlM Builder.step (state bs e) = some (state (read c :: bs) .separator) :=
      fun c hc bs e he => hl c hc bs e (by simp_all)
    rw [List.map_cons, List.map_cons, List.intercalate_cons_cons, List.append_assoc,
      List.foldlM_append, ha bs expected (by simp), Option.bind_eq_bind, Option.bind_some,
      List.singleton_append, List.foldlM_cons, hcomma, Option.bind_eq_bind, Option.bind_some]
    exact (ih hnext (read a :: bs)).trans (by simp)

/-- The builder reads what stands between brackets, in the way of `foldlM_intercalate`, and puts it
where it belongs at the closing bracket. -/
theorem foldlM_brackets {α β : Type} {tokens : α → List Token} {read : α → β}
    (state : List β → Expected → Builder) (first next : Expected) (place : List β → Option Builder)
    {start : Builder} {opening closing : Token}
    (hopen : start.step opening = some (state [] first))
    (hcomma : ∀ bs, Builder.step (state bs .separator) .comma = some (state bs next))
    (hclose : ∀ bs, ∀ e ∈ [first, .separator], (state bs e).step closing = place bs.reverse)
    {l : List α} (hread : ∀ a ∈ l, ∀ bs, ∀ e ∈ [first, next],
      (tokens a).foldlM Builder.step (state bs e) = some (state (read a :: bs) .separator)) :
    ([opening] ++ List.intercalate [.comma] (l.map tokens) ++ [closing]).foldlM Builder.step start =
      place (l.map read) := by
  rw [List.append_assoc, List.singleton_append, List.foldlM_cons, hopen, Option.bind_eq_bind,
    Option.bind_some, List.foldlM_append]
  cases l with
  | nil =>
    rw [List.map_nil, List.intercalate_nil, List.foldlM_nil, Option.pure_def, Option.bind_eq_bind,
      Option.bind_some, List.foldlM_cons, hclose [] first (by simp)]
    simp
  | cons a l =>
    rw [foldlM_intercalate hcomma hread, Option.bind_eq_bind, Option.bind_some, List.foldlM_cons,
      hclose _ .separator (by simp)]
    simp

/-- **The tokens of a value** build its document. -/
theorem builds_tokens (j : Json) : Builds j.tokens j.document := by
  intro frames expected hexpected
  induction j using induct generalizing frames expected with
  | null | bool | number | text =>
    rw [tokens, document]
    rcases hexpected with rfl | rfl <;> simp [Builder.step, Builder.takeValue]
  | list items ih =>
    rw [tokens, document]
    refine foldlM_brackets (fun ds e => ⟨.list ds :: frames, e, none⟩) .valueOrClose .value
      (fun ds => Builder.place frames (.list ds)) ?_ (fun _ => rfl) ?_ ?_
    · rcases hexpected with rfl | rfl <;> rfl
    · simp [Builder.step, Builder.closeList]
    · intro j hj ds e he
      exact ih j hj (.list ds :: frames) e (by simp_all [or_comm])
  | object members ih =>
    rw [tokens, document]
    refine foldlM_brackets (fun ms e => ⟨.object ms :: frames, e, none⟩) .nameOrClose .name
      (fun ms => Builder.place frames (.object ms)) ?_ (fun _ => rfl) ?_ ?_
    · rcases hexpected with rfl | rfl <;> rfl
    · simp [Builder.step, Builder.closeObject]
    · intro m hm ms e he
      have hname : [Token.text (some m.1), .colon].foldlM Builder.step
          ⟨.object ms :: frames, e, none⟩ =
            some ⟨.member ms (some m.1) :: frames, .value, none⟩ := by
        rcases List.mem_pair.1 he with rfl | rfl <;> rfl
      rw [List.foldlM_append, hname, Option.bind_eq_bind, Option.bind_some]
      exact ih m hm (.member ms (some m.1) :: frames) .value (Or.inl rfl)

/-- **The written form of a value** is read as the document of the value when the numbers in it are
read back. -/
theorem ofText?_render {j : Json} (h : ∀ n ∈ j.numbers, n.IsReadBack) :
    Document.ofText? j.render = some j.document := by
  rw [Document.ofText?, render, String.toList_ofList, tokens?_of_spells (spells_chars j h),
    Option.bind_some, Document.ofTokens?, builds_tokens j [] .value (Or.inl rfl)]
  rfl

/-! ### Objects of texts -/

/-- A field as a member of an object. -/
def fieldMember (f : String × String) : String × Json := (f.1, .text f.2)

/-- A field as it is read. -/
def fieldDocument (f : String × String) : Option String × Document := (some f.1, .text (some f.2))

theorem fieldDocument_injective : Function.Injective fieldDocument := by
  intro f g h
  simp only [fieldDocument, Prod.mk.injEq, Option.some.injEq, Document.text.injEq] at h
  exact Prod.ext h.1 h.2

/-- **An object of texts** is read as the document with its members in their order. -/
theorem ofText?_render_object (fields : List (String × String)) :
    Document.ofText? (render (.object (fields.map fieldMember))) =
      some (.object (fields.map fieldDocument)) := by
  have hnumbers : ∀ n ∈ (object (fields.map fieldMember)).numbers, n.IsReadBack := by
    intro n hn
    obtain ⟨m, hm, hn⟩ := mem_numbers_object.1 hn
    obtain ⟨f, -, rfl⟩ := List.mem_map.1 hm
    simp [fieldMember, numbers] at hn
  have hdocument : (object (fields.map fieldMember)).document =
      .object (fields.map fieldDocument) := by
    simp [document, fieldMember, fieldDocument]
  rw [ofText?_render hnumbers, hdocument]

theorem le_toNat_of_mem_memberChars {f : String × String} {d : Char}
    (h : d ∈ memberChars (fieldMember f)) : 0x20 ≤ d.toNat := by
  rw [memberChars, fieldMember, chars, List.mem_append, List.mem_cons] at h
  rcases h with h | rfl | h
  · exact le_toNat_of_mem_textChars h
  · decide
  · exact le_toNat_of_mem_textChars h

/-- **The written form** of an object of texts has no control characters. -/
theorem le_toNat_of_mem_render {fields : List (String × String)} {d : Char}
    (h : d ∈ (render (.object (fields.map fieldMember))).toList) : 0x20 ≤ d.toNat := by
  rw [render, String.toList_ofList, chars, membersChars_eq, List.map_map, List.cons_append,
    List.mem_cons, List.mem_append, List.mem_singleton] at h
  rcases h with rfl | h | rfl
  · decide
  · rcases mem_or_exists_mem_of_mem_intercalate h with hcomma | ⟨cs, hcs, hd⟩
    · rw [List.mem_singleton.1 hcomma]
      decide
    · obtain ⟨f, -, rfl⟩ := List.mem_map.1 hcs
      exact le_toNat_of_mem_memberChars hd
  · decide

end BucketPlanner.Json
