import HtmlTree.Text.Ascii

/-! Numbers written in digits and read back, in any base up to sixteen. -/

namespace HtmlTree.Text

theorem digitValue_digitChar (d : Nat) (low : d < 16) : digitValue (Nat.digitChar d) = d := by
  revert d
  decide

theorem isHexDigit_digitChar (d : Nat) (low : d < 16) : isHexDigit (Nat.digitChar d) = true := by
  revert d
  decide

theorem isDigit_digitChar (d : Nat) (low : d < 10) : isDigit (Nat.digitChar d) = true := by
  revert d
  decide

variable {base : Nat}

theorem readDigits_append_singleton (base : Nat) (digits : List Char) (c : Char) :
    readDigits base (digits ++ [c]) = readDigits base digits * base + digitValue c := by
  rw [readDigits, List.foldl_append]
  rfl

theorem readDigits_toDigits (many : 1 < base) (few : base ≤ 16) (n : Nat) :
    readDigits base (Nat.toDigits base n) = n := by
  induction n using Nat.strongRecOn with
  | _ n ih =>
      rw [Nat.toDigits_eq_if many]
      split
      · next low => simp [readDigits, digitValue_digitChar n (by omega)]
      · next high =>
        have smaller : n / base < n := Nat.div_lt_self (by omega) many
        have digit : n % base < 16 := Nat.lt_of_lt_of_le (Nat.mod_lt n (by omega)) few
        rw [readDigits_append_singleton, ih _ smaller, digitValue_digitChar _ digit, Nat.mul_comm]
        exact Nat.div_add_mod n base

theorem exists_digit_of_mem_toDigits (many : 1 < base) (n : Nat) :
    ∀ c ∈ Nat.toDigits base n, ∃ d < base, c = Nat.digitChar d := by
  induction n using Nat.strongRecOn with
  | _ n ih =>
      intro c member
      rw [Nat.toDigits_eq_if many] at member
      split at member
      · next low => exact ⟨n, low, List.mem_singleton.mp member⟩
      · next high =>
        rcases List.mem_append.mp member with earlier | last
        · exact ih _ (Nat.div_lt_self (by omega) many) c earlier
        · exact ⟨n % base, Nat.mod_lt n (by omega), List.mem_singleton.mp last⟩

theorem isDigit_of_mem_toDigits (n : Nat) (c : Char) (member : c ∈ Nat.toDigits 10 n) :
    isDigit c = true := by
  obtain ⟨d, low, rfl⟩ := exists_digit_of_mem_toDigits (by omega) n c member
  exact isDigit_digitChar d low

theorem exists_first_digit (n : Nat) :
    ∃ c digits, Nat.toDigits 10 n = c :: digits ∧ isDigit c = true := by
  obtain ⟨c, digits, same⟩ := List.exists_cons_of_ne_nil (Nat.toDigits_ne_nil (b := 10) (n := n))
  refine ⟨c, digits, same, isDigit_of_mem_toDigits n c ?_⟩
  rw [same]
  exact List.mem_cons_self

theorem ne_of_isDigit {c d : Char} (digit : isDigit c = true) (other : isDigit d = false) : c ≠ d := by
  rintro rfl
  rw [digit] at other
  cases other

theorem head?_toDigits_ne_zero (many : 1 < base) (few : base ≤ 16) (n : Nat) (positive : 0 < n) :
    (Nat.toDigits base n).head? ≠ some '0' := by
  induction n using Nat.strongRecOn with
  | _ n ih =>
      rw [Nat.toDigits_eq_if many]
      split
      · next low =>
        intro zero
        have value := digitValue_digitChar n (by omega)
        rw [Option.some.inj zero] at value
        exact absurd value (by simp [digitValue, isDigit]; omega)
      · next high =>
        have further :=
          ih (n / base) (Nat.div_lt_self positive many) (Nat.div_pos (by omega) (by omega))
        obtain ⟨first, digits, same⟩ :=
          List.exists_cons_of_ne_nil (Nat.toDigits_ne_nil (b := base) (n := n / base))
        rw [same] at further ⊢
        exact further

theorem length_hex (n : Nat) (low : n < 0x10000) : (hex 4 n).length = 4 := by
  have short : (Nat.toDigits 16 n).length ≤ 4 :=
    (Nat.length_toDigits_le_iff (by omega) (by omega)).mpr low
  rw [hex, List.length_append, List.length_replicate]
  omega

theorem isHexDigit_of_mem_hex (width n : Nat) (c : Char) (member : c ∈ hex width n) :
    isHexDigit c = true := by
  rcases List.mem_append.mp member with filling | digit
  · rw [List.eq_of_mem_replicate filling]
    decide
  · obtain ⟨d, low, rfl⟩ := exists_digit_of_mem_toDigits (by omega) n c digit
    exact isHexDigit_digitChar d low

theorem readDigits_hex (width n : Nat) : readDigits 16 (hex width n) = n := by
  have zeros : ∀ (k : Nat) (digits : List Char),
      readDigits 16 (List.replicate k '0' ++ digits) = readDigits 16 digits := by
    intro k digits
    induction k with
    | zero => rfl
    | succ k ih => exact ih
  rw [hex, zeros, readDigits_toDigits (by omega) (by omega)]

end HtmlTree.Text
