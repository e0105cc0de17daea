import HtmlTree.Json.Reader
import HtmlTree.Json.Writer
import HtmlTree.Proofs.Text.Digits

/-! Strings written as JSON and read back. Every character is read by one step, whether it stands for
itself or behind a backslash, as one unit or as two. -/

namespace HtmlTree.Json

open Text (hex isHexDigit readDigits isHexDigit_of_mem_hex length_hex readDigits_hex)

theorem unit?_hex (n : Nat) (low : n < 0x10000) (rest : List Char) :
    unit? (hex 4 n ++ rest) = some (n, rest) := by
  have digits : (hex 4 n).all isHexDigit = true :=
    List.all_eq_true.mpr fun c member => isHexDigit_of_mem_hex 4 n c member
  have number : readDigits 16 (hex 4 n) = n := readDigits_hex 4 n
  obtain ⟨a, b, c, d, four⟩ : ∃ a b c d, hex 4 n = [a, b, c, d] := by
    match hex 4 n, length_hex n low with
    | [a, b, c, d], _ => exact ⟨a, b, c, d, rfl⟩
  rw [four] at digits number ⊢
  simp only [List.cons_append, List.nil_append, unit?]
  rw [if_pos digits, number]

theorem not_surrogate (c : Char) : isHighUnit c.toNat = false ∧ isLowUnit c.toNat = false := by
  have valid : c.toNat.isValidChar := c.valid
  simp only [Nat.isValidChar] at valid
  simp only [isHighUnit, isLowUnit, Bool.and_eq_false_iff, decide_eq_false_iff_not]
  omega

theorem pair_self (c : Char) (rest : List Char) : pair c.toNat rest = (.char c, rest) := by
  obtain ⟨notHigh, notLow⟩ := not_surrogate c
  unfold pair
  rw [if_neg (Bool.eq_false_iff.mp notHigh), if_neg (Bool.eq_false_iff.mp notLow),
    Char.ofNat_toNat]

/-- The two units of a character beyond the first plane are put together again. -/
theorem pair_units (c : Char) (beyond : 0x10000 ≤ c.toNat) (rest : List Char) :
    pair (0xD800 + (c.toNat - 0x10000) / 0x400)
      (unit (0xDC00 + (c.toNat - 0x10000) % 0x400) ++ rest) = (.char c, rest) := by
  have valid : c.toNat.isValidChar := c.valid
  simp only [Nat.isValidChar] at valid
  have high : isHighUnit (0xD800 + (c.toNat - 0x10000) / 0x400) = true := by
    simp only [isHighUnit, Bool.and_eq_true, decide_eq_true_eq]
    omega
  have low : isLowUnit (0xDC00 + (c.toNat - 0x10000) % 0x400) = true := by
    simp only [isLowUnit, Bool.and_eq_true, decide_eq_true_eq]
    omega
  have sum : 0x10000 + (0xD800 + (c.toNat - 0x10000) / 0x400 - 0xD800) * 0x400 +
      (0xDC00 + (c.toNat - 0x10000) % 0x400 - 0xDC00) = c.toNat := by
    omega
  unfold pair
  rw [if_pos high, unit, List.cons_append, List.cons_append]
  simp only [unit?_hex _ (show 0xDC00 + (c.toNat - 0x10000) % 0x400 < 0x10000 by omega)]
  rw [if_pos low, sum, Char.ofNat_toNat]

theorem stringBody_unit (fuel n : Nat) (low : n < 0x10000) (done : Points) (rest : List Char) :
    stringBody (fuel + 1) done (unit n ++ rest) =
      stringBody fuel ((pair n rest).1 :: done) (pair n rest).2 := by
  rw [unit, List.cons_append, List.cons_append, stringBody, if_neg (by decide), if_pos rfl]
  simp only
  rw [unit?_hex n low]

theorem stringBody_short {e c : Char} (short : shortEscape e = some c) (fuel : Nat)
    (done : Points) (rest : List Char) :
    stringBody (fuel + 1) done ('\\' :: e :: rest) = stringBody fuel (.char c :: done) rest := by
  have other : e ≠ 'u' := by
    rintro rfl
    cases short
  rw [stringBody, if_neg (by decide), if_pos rfl, short]
  exact other

theorem stringBody_plain {c : Char} (quote : c ≠ '"') (backslash : c ≠ '\\') (visible : ' ' ≤ c)
    (fuel : Nat) (done : Points) (rest : List Char) :
    stringBody (fuel + 1) done (c :: rest) = stringBody fuel (.char c :: done) rest := by
  have high : ¬ c.toNat < 0x20 := by
    rw [Char.le_def, UInt32.le_iff_toNat_le] at visible
    exact Nat.not_lt.mpr visible
  rw [stringBody.eq_def]
  simp only
  rw [if_neg quote, if_neg backslash, if_neg high]

theorem escape_cases (c : Char) :
    (∃ e, escape c = ['\\', e] ∧ shortEscape e = some c) ∨
      (escape c = [c] ∧ c ≠ '"' ∧ c ≠ '\\' ∧ ' ' ≤ c) ∨
      (escape c = unit c.toNat ∧ c.toNat < 0x10000) ∨
      (escape c = unit (0xD800 + (c.toNat - 0x10000) / 0x400) ++
        unit (0xDC00 + (c.toNat - 0x10000) % 0x400) ∧ 0x10000 ≤ c.toNat) := by
  by_cases short : c ∈ ['"', '\\', '\n', '\r', '\t', '\x0c', '\x08']
  · refine Or.inl ?_
    simp only [List.mem_cons, List.not_mem_nil, or_false] at short
    rcases short with rfl | rfl | rfl | rfl | rfl | rfl | rfl <;> exact ⟨_, rfl, rfl⟩
  · simp only [List.mem_cons, List.not_mem_nil, or_false, not_or] at short
    obtain ⟨quote, backslash, feed, carriage, tab, page, back⟩ := short
    simp only [escape, beq_iff_eq, if_neg quote, if_neg backslash, if_neg feed, if_neg carriage,
      if_neg tab, if_neg page, if_neg back]
    split
    · next visible =>
      rw [Bool.and_eq_true, decide_eq_true_eq, decide_eq_true_eq] at visible
      exact Or.inr (Or.inl ⟨rfl, quote, backslash, visible.1⟩)
    · split
      · next small => exact Or.inr (Or.inr (Or.inl ⟨rfl, small⟩))
      · next beyond => exact Or.inr (Or.inr (Or.inr ⟨rfl, Nat.le_of_not_lt beyond⟩))

theorem escape_ne_nil (c : Char) : escape c ≠ [] := by
  rcases escape_cases c with ⟨e, written, _⟩ | ⟨written, _⟩ | ⟨written, _⟩ | ⟨written, _⟩ <;>
    rw [written] <;> exact List.cons_ne_nil _ _

theorem stringBody_escape (fuel : Nat) (c : Char) (done : Points) (rest : List Char) :
    stringBody (fuel + 1) done (escape c ++ rest) = stringBody fuel (.char c :: done) rest := by
  rcases escape_cases c with ⟨e, written, short⟩ | ⟨written, quote, backslash, visible⟩ |
    ⟨written, small⟩ | ⟨written, beyond⟩
  · rw [written]
    exact stringBody_short short fuel done rest
  · rw [written]
    exact stringBody_plain quote backslash visible fuel done rest
  · rw [written, stringBody_unit fuel _ small, pair_self]
  · have valid : c.toNat.isValidChar := c.valid
    simp only [Nat.isValidChar] at valid
    rw [written, List.append_assoc, stringBody_unit fuel _ (by omega), pair_units c beyond]

theorem stringBody_escapes (chars : List Char) (fuel : Nat) (enough : chars.length < fuel)
    (done : Points) (rest : List Char) :
    stringBody fuel done (chars.flatMap escape ++ '"' :: rest) =
      some (done.reverse ++ chars.map .char, rest) := by
  induction chars generalizing fuel done with
  | nil =>
      obtain ⟨fuel, rfl⟩ := Nat.exists_eq_add_one.mpr enough
      rw [List.flatMap_nil, List.nil_append, stringBody.eq_def]
      simp only
      rw [if_pos trivial, List.map_nil, List.append_nil]
  | cons c chars ih =>
      obtain ⟨fuel, rfl⟩ := Nat.exists_eq_add_one.mpr (Nat.zero_lt_of_lt enough)
      rw [List.flatMap_cons, List.append_assoc, stringBody_escape,
        ih fuel (Nat.lt_of_succ_lt_succ enough), List.reverse_cons, List.append_assoc,
        List.singleton_append, List.map_cons]

theorem length_le_escapes (chars : List Char) : chars.length ≤ (chars.flatMap escape).length := by
  induction chars with
  | nil => exact Nat.le_refl 0
  | cons c chars ih =>
      have one := List.length_pos_iff.mpr (escape_ne_nil c)
      rw [List.flatMap_cons, List.length_append, List.length_cons]
      omega

theorem string?_string (s : String) (rest : List Char) :
    string? (s.toList.flatMap escape ++ '"' :: rest) = some (.ofString s, rest) := by
  have enough := length_le_escapes s.toList
  rw [string?, stringBody_escapes _ _ (by rw [List.length_append, List.length_cons]; omega),
    List.reverse_nil, List.nil_append, Points.ofString]

theorem replaceLone_ofString (s : String) : Points.replaceLone (.ofString s) = s := by
  rw [Points.ofString, Points.replaceLone, List.map_map]
  exact (congrArg String.ofList (List.map_id s.toList)).trans (String.ofList_toList)

end HtmlTree.Json
