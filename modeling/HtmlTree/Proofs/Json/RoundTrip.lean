import HtmlTree.Proofs.Json.Strings
import HtmlTree.Proofs.Values

/-! Values written as JSON and read back, whatever the layout. What stands behind a value has to close
it: behind an integer no further digit, fraction or exponent may stand. -/

namespace HtmlTree.Json

open Text (isDigit exists_first_digit head?_toDigits_ne_zero isDigit_of_mem_toDigits ne_of_isDigit
  readDigits_toDigits)
open Points (ofString replaceLone)
open Value (Proper noReal)

/-- What does not go on with a number that stands before it. -/
def Closed (rest : List Char) : Prop :=
  ∀ c ∈ rest.head?, isDigit c = false ∧ c ≠ '.' ∧ c ≠ 'e' ∧ c ≠ 'E'

theorem closed_cons {c : Char} (closes : isDigit c = false ∧ c ≠ '.' ∧ c ≠ 'e' ∧ c ≠ 'E')
    (rest : List Char) : Closed (c :: rest) := by
  intro d member
  cases member
  exact closes

section Numbers

variable {τ : Type} {rest : List Char}

theorem wholePart_toDigits (n : Nat) (closed : Closed rest) :
    wholePart (Nat.toDigits 10 n ++ rest) = some (Nat.toDigits 10 n, rest) := by
  rcases Nat.eq_zero_or_pos n with rfl | positive
  · rfl
  · have notZero : (Nat.toDigits 10 n).head? ≠ some '0' :=
      head?_toDigits_ne_zero (by omega) (by omega) n positive
    have digits := isDigit_of_mem_toDigits n
    have taken : (Nat.toDigits 10 n ++ rest).takeWhile isDigit = Nat.toDigits 10 n ∧
        (Nat.toDigits 10 n ++ rest).dropWhile isDigit = rest := by
      rw [List.takeWhile_append_of_pos digits, List.dropWhile_append_of_pos digits]
      cases rest with
      | nil => exact ⟨List.append_nil _, rfl⟩
      | cons c rest =>
          have stop : ¬ isDigit c = true := Bool.eq_false_iff.mp (closed c rfl).1
          rw [List.takeWhile_cons_of_neg stop, List.dropWhile_cons_of_neg stop, List.append_nil]
          exact ⟨rfl, rfl⟩
    have some := Nat.toDigits_ne_nil (b := 10) (n := n)
    unfold wholePart
    split
    · next same =>
      have first := congrArg List.head? same
      rw [List.head?_append_of_ne_nil _ some] at first
      exact absurd first notZero
    · simp only [taken.1, taken.2]
      rw [if_neg (Bool.eq_false_iff.mp (List.isEmpty_eq_false_iff.mpr some))]

theorem fractionPart_of_closed (closed : Closed rest) : fractionPart rest = ([], rest) := by
  unfold fractionPart
  split
  · exact absurd rfl (closed '.' rfl).2.1
  · rfl

theorem exponentPart_of_closed (closed : Closed rest) : exponentPart rest = (none, rest) := by
  unfold exponentPart
  split
  · rfl
  · next e more =>
    rw [if_neg (not_or.mpr (closed e rfl).2.2)]

theorem number_toDigits (τ : Type) (negative : Bool) (n : Nat) (closed : Closed rest) :
    number negative (Nat.toDigits 10 n ++ rest) =
      some ((.int (if negative then -(n : Int) else n) : Value τ), rest) := by
  unfold number
  simp only [wholePart_toDigits n closed, fractionPart_of_closed closed,
    exponentPart_of_closed closed, readDigits_toDigits (show 1 < 10 by omega) (show 10 ≤ 16 by omega)]

theorem words_of_digit (τ : Type) {c : Char} (digit : isDigit c = true) (rest : List Char) :
    ((words : List (List Char × Value τ)).findSome? fun (word, v) =>
      (dropLiteral word (c :: rest)).map fun rest => (v, rest)) = none ∧
      ((words : List (List Char × Value τ)).findSome? fun (word, v) =>
        (dropLiteral word ('-' :: c :: rest)).map fun rest => (v, rest)) = none := by
  have other : ∀ d, isDigit d = false → ¬ c = d := fun d => ne_of_isDigit digit
  simp [words, dropLiteral, other 'n' (by decide), other 't' (by decide), other 'f' (by decide),
    other 'N' (by decide), other 'I' (by decide), other '-' (by decide)]

theorem exists_first_integer (n : Int) :
    ∃ c more, Value.integer n = c :: more ∧ ∀ d, isDigit d = false → d ≠ '-' → c ≠ d := by
  obtain ⟨c, digits, same, digit⟩ := exists_first_digit n.natAbs
  unfold Value.integer
  split
  · exact ⟨_, _, rfl, fun d _ sign => Ne.symm sign⟩
  · exact ⟨c, digits, same, fun d none _ => ne_of_isDigit digit none⟩

theorem scalar?_integer (n : Int) (closed : Closed rest) :
    scalar? (Value.integer n ++ rest) = some ((.int n : Value τ), rest) := by
  obtain ⟨c, digits, same, digit⟩ := exists_first_digit n.natAbs
  have numbers := fun negative => number_toDigits τ negative n.natAbs closed
  obtain ⟨plain, signed⟩ := words_of_digit τ digit (digits ++ rest)
  rw [same, List.cons_append] at numbers
  unfold scalar?
  by_cases below : n < 0
  · have value : -(n.natAbs : Int) = n := by omega
    rw [Value.integer, if_pos below, same, List.cons_append, List.cons_append, signed]
    simp only [numbers, if_pos, value]
  · have value : (n.natAbs : Int) = n := by omega
    rw [Value.integer, if_neg below, same, List.cons_append, plain]
    simp only
    split
    · next minus =>
      rw [(List.cons.inj minus).1] at digit
      cases digit
    · simp only [numbers, Bool.false_eq_true, if_false, value]

end Numbers

section Gaps

theorem skipGap_cons {c : Char} (opens : isGap c = false) (rest : List Char) :
    skipGap (c :: rest) = c :: rest := List.dropWhile_cons_of_neg (Bool.eq_false_iff.mp opens)

theorem skipGap_break (layout : Layout) (rest : List Char) :
    skipGap (layout.break ++ rest) = skipGap rest := by
  have gap : ∀ c ∈ layout.break, isGap c = true := by
    intro c member
    cases layout with
    | line => cases member
    | level n =>
        rcases List.mem_cons.mp member with rfl | space
        · rfl
        · rw [List.eq_of_mem_replicate space]
          rfl
  rw [skipGap, List.dropWhile_append_of_pos gap]
  rfl

theorem closed_break (layout : Layout) {rest : List Char} (closed : Closed rest) :
    Closed (layout.break ++ rest) := by
  cases layout with
  | line => exact closed
  | level n =>
      intro c member
      cases member
      decide

end Gaps

section Values

variable {τ : Type} [DecidableEq τ] {kind : Points → τ} {fuel : Nat} {rest : List Char}

theorem exists_first {v : Value} (proper : Proper noReal v) (layout : Layout) :
    ∃ c more, value layout v = c :: more ∧ isGap c = false ∧ c ≠ ']' := by
  cases proper with
  | null => exact ⟨_, _, rfl, by decide, by decide⟩
  | bool b => cases b <;> exact ⟨_, _, rfl, by decide, by decide⟩
  | int n =>
      obtain ⟨c, more, same, other⟩ := exists_first_integer n
      refine ⟨c, more, same, ?_, other ']' (by decide) (by decide)⟩
      simp only [isGap, Bool.or_eq_false_iff, beq_eq_false_iff_ne]
      exact ⟨⟨⟨other ' ' (by decide) (by decide), other '\t' (by decide) (by decide)⟩,
        other '\n' (by decide) (by decide)⟩, other '\r' (by decide) (by decide)⟩
  | real x fit => cases fit
  | text s => exact ⟨_, _, rfl, by decide, by decide⟩
  | list items _ => cases items <;> exact ⟨_, _, rfl, by decide, by decide⟩
  | dict entries _ _ => cases entries <;> exact ⟨_, _, rfl, by decide, by decide⟩

theorem skipGap_value {v : Value} (proper : Proper noReal v) (layout : Layout) (rest : List Char) :
    skipGap (value layout v ++ rest) = value layout v ++ rest := by
  obtain ⟨c, more, start, notGap, _⟩ := exists_first proper layout
  rw [start]
  exact skipGap_cons notGap _

theorem value?_string (s : String) (rest : List Char) :
    value? kind (fuel + 1) (string s ++ rest) = some (.text (kind (ofString s)), rest) := by
  rw [string, List.cons_append, List.cons_append, List.append_assoc, List.singleton_append, value?,
    string?_string, Option.map_some]

theorem value?_scalar {c : Char} (quote : c ≠ '"') (bracket : c ≠ '[') (brace : c ≠ '\x7b') :
    value? kind (fuel + 1) (c :: rest) = scalar? (c :: rest) := by
  rw [value?.eq_def]
  simp only
  split
  · next same => exact absurd (List.cons.inj same).1 quote
  · next same => exact absurd (List.cons.inj same).1 bracket
  · next same => exact absurd (List.cons.inj same).1 brace
  · rfl

theorem value?_list {c : Char} {more : List Char} (opened : skipGap rest = c :: more)
    (further : c ≠ ']') : value? kind (fuel + 1) ('[' :: rest) =
      (items? kind fuel (c :: more)).map fun (items, rest) => (.list items, rest) := by
  rw [value?.eq_def]
  simp only [opened]
  split
  · next same => exact absurd (List.cons.inj same).1 further
  · rfl

theorem value?_dict {c : Char} {more : List Char} (opened : skipGap rest = c :: more)
    (further : c ≠ '\x7d') : value? kind (fuel + 1) ('\x7b' :: rest) =
      (entries? kind fuel (c :: more)).map fun (entries, rest) => (.dict (collect entries), rest) := by
  rw [value?.eq_def]
  simp only [opened]
  split
  · next same => exact absurd (List.cons.inj same).1 further
  · rfl

/-- A value is read back from what it is written as. -/
def ReadBack (kind : Points → τ) (v : Value) : Prop :=
  ∀ (layout : Layout) (fuel : Nat) (rest : List Char), Closed rest →
    (value layout v).length ≤ fuel → value? kind fuel (value layout v ++ rest) =
      some (v.mapTexts (kind ∘ ofString), rest)

/-- A value takes at least one step, since something is written for it. -/
theorem ReadBack.of_step {v : Value} (proper : Proper noReal v)
    (step : ∀ layout fuel rest, Closed rest → (value layout v).length ≤ fuel + 1 →
      value? kind (fuel + 1) (value layout v ++ rest) = some (v.mapTexts (kind ∘ ofString), rest)) :
    ReadBack kind v := by
  intro layout fuel rest closed enough
  obtain ⟨c, more, start, _⟩ := exists_first proper layout
  have written : 0 < (value layout v).length := by
    rw [start]
    exact Nat.succ_pos _
  obtain ⟨fuel, rfl⟩ := Nat.exists_eq_add_one.mpr (Nat.lt_of_lt_of_le written enough)
  exact step layout fuel rest closed enough

theorem items?_written (layout outer : Layout) (items : List Value) (rest : List Char) :
    ∀ (item : Value) (fuel : Nat), (∀ v ∈ item :: items, Proper noReal v ∧ ReadBack kind v) →
      (value layout item).length + (moreItems layout items).length < fuel →
      items? kind fuel (value layout item ++ (moreItems layout items ++ (outer.break ++ ']' :: rest))) =
        some (Value.mapItems (kind ∘ ofString) (item :: items), rest) := by
  induction items with
  | nil =>
      intro item fuel readable enough
      obtain ⟨fuel, rfl⟩ := Nat.exists_eq_add_one.mpr (Nat.zero_lt_of_lt enough)
      have closed : Closed (outer.break ++ ']' :: rest) :=
        closed_break outer (closed_cons (by decide) rest)
      rw [moreItems, List.nil_append, items?,
        (readable item List.mem_cons_self).2 layout fuel _ closed (by omega)]
      simp only
      rw [skipGap_break, skipGap_cons (by decide)]
      rfl
  | cons next items ih =>
      intro item fuel readable enough
      obtain ⟨fuel, rfl⟩ := Nat.exists_eq_add_one.mpr (Nat.zero_lt_of_lt enough)
      rw [List.forall_mem_cons] at readable
      simp only [moreItems, List.length_append, List.length_cons] at enough
      simp only [moreItems, List.cons_append, List.append_assoc]
      rw [items?, readable.1.2 layout fuel _ (closed_cons (by decide) _) (by omega)]
      simp only
      rw [skipGap_cons (by decide)]
      simp only
      rw [skipGap_break, skipGap_value (readable.2 next List.mem_cons_self).1,
        ih next fuel readable.2 (by omega)]
      rfl

theorem readBack_list {items : List Value} (readable : ∀ v ∈ items, Proper noReal v ∧ ReadBack kind v) :
    ReadBack kind (.list items) := by
  apply ReadBack.of_step (.list items fun v member => (readable v member).1)
  intro layout fuel rest closed enough
  cases items with
  | nil => rfl
  | cons item items =>
      simp only [value, List.length_cons, List.length_append] at enough
      simp only [value, List.cons_append, List.nil_append, List.append_assoc]
      obtain ⟨c, more, start, notGap, notClosing⟩ :=
        exists_first (readable item List.mem_cons_self).1 layout.deeper
      have items := items?_written layout.deeper layout items rest item fuel readable (by omega)
      rw [start, List.cons_append] at items
      rw [value?_list _ notClosing, items]
      · rfl
      · rw [skipGap_break, start, List.cons_append, skipGap_cons notGap]

def entriesAfter (kind : Points → τ) (fuel : Nat) (entry : τ × Value τ) :
    List Char → Option (Entries τ × List Char)
  | ',' :: rest => (entries? kind fuel (skipGap rest)).map fun (entries, rest) => (entry :: entries, rest)
  | '\x7d' :: rest => some ([entry], rest)
  | _ => none

theorem entries?_entry {v : Value} (proper : Proper noReal v) {layout : Layout} {after : List Char}
    (back : value? kind fuel (value layout v ++ after) = some (v.mapTexts (kind ∘ ofString), after)) (key : String) :
    entries? kind (fuel + 1) (string key ++ (':' :: ' ' :: (value layout v ++ after))) =
      entriesAfter kind fuel (kind (ofString key), v.mapTexts (kind ∘ ofString)) (skipGap after) := by
  have space : skipGap (' ' :: (value layout v ++ after)) = value layout v ++ after :=
    skipGap_value proper layout after
  rw [string, List.cons_append, List.cons_append, List.append_assoc, List.singleton_append,
    entries?, string?_string]
  simp only
  rw [skipGap_cons (by decide)]
  simp only [space, back]
  rfl

theorem entries?_written (layout outer : Layout) (entries : Entries) (rest : List Char) :
    ∀ (key : String) (v : Value) (fuel : Nat),
      (∀ e ∈ (key, v) :: entries, Proper noReal e.2 ∧ ReadBack kind e.2) →
      (value layout v).length + (moreEntries layout entries).length < fuel →
      entries? kind fuel (string key ++ (':' :: ' ' :: (value layout v ++
        (moreEntries layout entries ++ (outer.break ++ '\x7d' :: rest))))) =
        some (Value.mapEntries (kind ∘ ofString) ((key, v) :: entries), rest) := by
  induction entries with
  | nil =>
      intro key v fuel readable enough
      obtain ⟨fuel, rfl⟩ := Nat.exists_eq_add_one.mpr (Nat.zero_lt_of_lt enough)
      obtain ⟨proper, back⟩ : Proper noReal v ∧ ReadBack kind v := readable (key, v) List.mem_cons_self
      have closed : Closed (outer.break ++ '\x7d' :: rest) :=
        closed_break outer (closed_cons (by decide) rest)
      rw [moreEntries, List.nil_append,
        entries?_entry proper (back layout fuel _ closed (by omega)), skipGap_break,
        skipGap_cons (by decide)]
      rfl
  | cons next entries ih =>
      intro key v fuel readable enough
      obtain ⟨fuel, rfl⟩ := Nat.exists_eq_add_one.mpr (Nat.zero_lt_of_lt enough)
      rw [List.forall_mem_cons] at readable
      obtain ⟨⟨proper, back⟩, readable⟩ : (Proper noReal v ∧ ReadBack kind v) ∧ _ := readable
      simp only [moreEntries, List.length_append, List.length_cons] at enough
      simp only [moreEntries, List.cons_append, List.nil_append, List.append_assoc]
      rw [entries?_entry proper (back layout fuel _ (closed_cons (by decide) _) (by omega)),
        skipGap_cons (by decide), entriesAfter, skipGap_break, string, List.cons_append, List.cons_append, skipGap_cons (by decide),
        ← List.cons_append, ← List.cons_append, ← string,
        ih next.1 next.2 fuel readable (by omega)]
      rfl

theorem readBack_dict (apart : Function.Injective (kind ∘ ofString)) {entries : Entries}
    (distinct : (entries.map (·.1)).Nodup)
    (readable : ∀ e ∈ entries, Proper noReal e.2 ∧ ReadBack kind e.2) : ReadBack kind (.dict entries) := by
  apply ReadBack.of_step (.dict entries distinct fun e member => (readable e member).1)
  intro layout fuel rest closed enough
  cases entries with
  | nil => rfl
  | cons entry entries =>
      obtain ⟨key, v⟩ := entry
      simp only [value, List.length_cons, List.length_append] at enough
      simp only [value, List.cons_append, List.nil_append, List.append_assoc]
      have read := entries?_written layout.deeper layout entries rest key v fuel readable (by omega)
      rw [string, List.cons_append, List.cons_append] at read ⊢
      rw [value?_dict (c := '"') _ (by decide), read]
      · have proper : Proper noReal (.dict ((key, v) :: entries)) :=
          .dict _ distinct fun e member => (readable e member).1
        have kept := (proper.mapTexts apart).distinct
        simp only [Option.map_some, collect_of_nodup _ kept]
        rfl
      · rw [skipGap_break, skipGap_cons (by decide)]

theorem readBack_int (n : Int) : ReadBack kind (.int n) := by
  apply ReadBack.of_step (.int n)
  intro layout fuel rest closed _
  obtain ⟨c, more, start, other⟩ := exists_first_integer n
  have written : value layout (.int n) = Value.integer n := rfl
  rw [written, start, List.cons_append, value?_scalar (other '"' (by decide) (by decide))
    (other '[' (by decide) (by decide)) (other '\x7b' (by decide) (by decide)),
    ← List.cons_append, ← start, scalar?_integer n closed]
  rfl

theorem readBack (apart : Function.Injective (kind ∘ ofString)) {v : Value} (proper : Proper noReal v) :
    ReadBack kind v := by
  induction proper with
  | null => exact ReadBack.of_step .null fun _ _ _ _ _ => rfl
  | bool b => cases b <;> exact ReadBack.of_step (.bool _) fun _ _ _ _ _ => rfl
  | int n => exact readBack_int n
  | real x fit => cases fit
  | text s => exact ReadBack.of_step (.text s) fun _ _ rest _ _ => value?_string s rest
  | list items proper ih => exact readBack_list fun v member => ⟨proper v member, ih v member⟩
  | dict entries distinct proper ih =>
      exact readBack_dict apart distinct fun e member => ⟨proper e member, ih e member⟩

end Values

/-- What is written as a file is read as what it was written from, with texts of the kind read. -/
theorem readAs_document {τ : Type} [DecidableEq τ] {kind : Points → τ}
    (apart : Function.Injective (kind ∘ ofString)) {v : Value} (proper : Proper noReal v) :
    readAs kind (document v) = some (v.mapTexts (kind ∘ ofString)) := by
  have back := readBack apart proper (.level 0) (2 * (value (.level 0) v).length + 2) []
    (by intro c member; cases member) (by omega)
  have start := skipGap_value proper (.level 0) []
  rw [List.append_nil] at back start
  rw [readAs, document, String.toList_ofList, start]
  simp only [back]
  rfl

theorem read?_document {v : Value} (proper : Proper noReal v) : read? (document v) = some v := by
  have same : replaceLone ∘ ofString = id := funext replaceLone_ofString
  rw [read?, readAs_document (same ▸ Function.injective_id) proper, same, Value.mapTexts_id v proper]

end HtmlTree.Json
