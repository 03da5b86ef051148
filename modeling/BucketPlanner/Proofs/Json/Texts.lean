import BucketPlanner.Json.Printer
import BucketPlanner.Json.Token

/-!
# Written texts

The written form of a text is one token, which holds the text (`Json.scans_textChars`), and it has no
control characters (`Json.le_toNat_of_mem_textChars`).
-/

namespace BucketPlanner.Json

/-! ### Characters -/

/-- The piece as which the written form of a character is read: control characters without a short
escape are given by number. -/
def pieceOf (c : Char) : Piece :=
  if c.toNat < 0x20 ∧ c ∉ ['\x08', '\t', '\n', '\x0c', '\r'] then .unit c.toNat else .char c

theorem hexDigit?_digitChar {n : Nat} (h : n < 16) :
    Scanner.hexDigit? (Nat.digitChar n) = some n := by
  revert n
  decide

/-- A hexadecimal digit continues the number of a unit. -/
theorem step_unit {d : Char} {n : Nat} (h : Scanner.hexDigit? d = some n) (pieces : List Piece)
    (missing value : Nat) (tokens : List Token) :
    Scanner.step ⟨.unit pieces missing value, tokens⟩ d =
      some (if missing ≤ 1 then ⟨.text (.unit (value * 16 + n) :: pieces), tokens⟩
        else ⟨.unit pieces (missing - 1) (value * 16 + n), tokens⟩) := by
  simp only [Scanner.step, h]
  rfl

/-- The scanner reads a written character as its piece. -/
theorem foldlM_escapedChar (pieces : List Piece) (tokens : List Token) (c : Char) :
    (escapedChar c).foldlM Scanner.step ⟨.text pieces, tokens⟩ =
      some ⟨.text (pieceOf c :: pieces), tokens⟩ := by
  unfold escapedChar
  split
  case h_8 _ hquote hbackslash hb hf hn hr ht =>
    split
    next hlt =>
      have hpiece : pieceOf c = .unit c.toNat := if_pos ⟨hlt, by simp_all⟩
      have hzero : Scanner.hexDigit? '0' = some 0 := rfl
      have hhigh := hexDigit?_digitChar (n := c.toNat / 16) (by omega)
      have hlow := hexDigit?_digitChar (n := c.toNat % 16) (by omega)
      have hbackslash : Scanner.step ⟨.text pieces, tokens⟩ '\\' =
          some ⟨.escape pieces, tokens⟩ := rfl
      have hu : Scanner.step ⟨.escape pieces, tokens⟩ 'u' = some ⟨.unit pieces 4 0, tokens⟩ := rfl
      have hvalue : c.toNat / 16 * 16 + c.toNat % 16 = c.toNat := by omega
      simp [List.foldlM_cons, hbackslash, hu, step_unit hzero, step_unit hhigh, step_unit hlow,
        hvalue, hpiece]
    next hge =>
      have hpiece : pieceOf c = .char c := if_neg fun h => hge h.1
      have hstep : Scanner.step ⟨.text pieces, tokens⟩ c =
          some ⟨.text (.char c :: pieces), tokens⟩ := by
        simp only [Scanner.step]
        rw [if_neg hquote, if_neg hbackslash, if_neg hge]
      simp [hstep, hpiece]
  all_goals rfl

theorem charsOfPieces?_unit {n : Nat} (h : n < 0xd800) (pieces : List Piece) :
    charsOfPieces? (.unit n :: pieces) = (Char.ofNat n :: ·) <$> charsOfPieces? pieces := by
  have hhigh : isHighSurrogate n = false := by
    have : ¬ 0xd800 ≤ n := by omega
    simp [isHighSurrogate, this]
  have hlow : isLowSurrogate n = false := by
    have : ¬ 0xdc00 ≤ n := by omega
    simp [isLowSurrogate, this]
  rcases pieces with _ | ⟨_ | low, rest⟩ <;> simp [charsOfPieces?, hhigh, hlow]

/-- The pieces of written characters denote the characters. -/
theorem charsOfPieces?_map_pieceOf (cs : List Char) :
    charsOfPieces? (cs.map pieceOf) = some cs := by
  induction cs with
  | nil => rfl
  | cons c cs ih =>
    rw [List.map_cons, pieceOf]
    split
    next hcontrol =>
      rw [charsOfPieces?_unit (by omega), ih, Char.ofNat_toNat]
      rfl
    · rw [charsOfPieces?, ih]
      rfl

theorem foldlM_flatMap_escapedChar (cs : List Char) (pieces : List Piece) (tokens : List Token) :
    (cs.flatMap escapedChar).foldlM Scanner.step ⟨.text pieces, tokens⟩ =
      some ⟨.text ((cs.map pieceOf).reverse ++ pieces), tokens⟩ := by
  induction cs generalizing pieces with
  | nil => rfl
  | cons c cs ih =>
    rw [List.flatMap_cons, List.foldlM_append, foldlM_escapedChar]
    simp [ih]

/-! ### Tokens -/

/-- The scanner takes characters between two tokens as the given tokens. -/
def Scans (cs : List Char) (ts : List Token) : Prop :=
  ∀ tokens, cs.foldlM Scanner.step ⟨.between, tokens⟩ = some ⟨.between, ts.reverse ++ tokens⟩

theorem Scans.append {cs cs' : List Char} {ts ts' : List Token} (h : Scans cs ts)
    (h' : Scans cs' ts') : Scans (cs ++ cs') (ts ++ ts') := by
  intro tokens
  rw [List.foldlM_append, h tokens, List.reverse_append, List.append_assoc]
  exact h' _

/-- **A written text** is one token. -/
theorem scans_textChars (s : String) : Scans (textChars s) [.text (some s)] := by
  intro tokens
  have hopen : Scanner.step ⟨.between, tokens⟩ '"' = some ⟨.text [], tokens⟩ := rfl
  have hclose : ∀ pieces, Scanner.step ⟨.text pieces, tokens⟩ '"' =
      some ⟨.between, .text ((charsOfPieces? pieces.reverse).map String.ofList) :: tokens⟩ :=
    fun _ => rfl
  rw [textChars, List.cons_append, List.foldlM_cons, hopen]
  simp [foldlM_flatMap_escapedChar, hclose, charsOfPieces?_map_pieceOf]

/-! ### Control characters -/

theorem le_toNat_digitChar {n : Nat} (h : n < 16) : 0x20 ≤ (Nat.digitChar n).toNat := by
  revert n
  decide

/-- No character of a written text is a control character. -/
theorem le_toNat_of_mem_escapedChar {c d : Char} (h : d ∈ escapedChar c) : 0x20 ≤ d.toNat := by
  unfold escapedChar at h
  split at h
  case h_8 =>
    split at h
    next hlt =>
      simp only [List.mem_cons, List.not_mem_nil, or_false] at h
      rcases h with rfl | rfl | rfl | rfl | rfl | rfl
      · decide
      · decide
      · decide
      · decide
      · exact le_toNat_digitChar (by omega)
      · exact le_toNat_digitChar (by omega)
    next hge =>
      rw [List.mem_singleton.1 h]
      exact Nat.le_of_not_lt hge
  all_goals
    simp only [List.mem_cons, List.not_mem_nil, or_false] at h
    rcases h with rfl | rfl <;> decide

theorem le_toNat_of_mem_textChars {s : String} {d : Char} (h : d ∈ textChars s) :
    0x20 ≤ d.toNat := by
  have hquote : 0x20 ≤ '"'.toNat := by decide
  rw [textChars, List.cons_append, List.mem_cons, List.mem_append, List.mem_singleton] at h
  rcases h with rfl | h | rfl
  · exact hquote
  · obtain ⟨c, -, hd⟩ := List.mem_flatMap.1 h
    exact le_toNat_of_mem_escapedChar hd
  · exact hquote

end BucketPlanner.Json
