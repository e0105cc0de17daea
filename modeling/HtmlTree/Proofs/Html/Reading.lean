import HtmlTree.Html.Lexer
import Mathlib.Data.List.TakeWhile

/-! Rounds of the lexer. What a round does depends on the state, the token under construction and
the text that is left; where in the text that is counts for positions only. -/

namespace HtmlTree.Html

open Text (isSpace isLetter isLower isDigit lower)

theorem ne_of_isLower {c d : Char} (letter : isLower c = true) (other : isLower d = false) :
    c ≠ d := by
  rintro rfl
  rw [other] at letter
  cases letter

theorem isSpace_of_isLower {c : Char} (letter : isLower c = true) : isSpace c = false := by
  simp only [isSpace, beq_eq_false_iff_ne.mpr (ne_of_isLower letter (d := ' ') rfl),
    beq_eq_false_iff_ne.mpr (ne_of_isLower letter (d := '\n') rfl),
    beq_eq_false_iff_ne.mpr (ne_of_isLower letter (d := '\t') rfl),
    beq_eq_false_iff_ne.mpr (ne_of_isLower letter (d := '\x0c') rfl),
    beq_eq_false_iff_ne.mpr (ne_of_isLower letter (d := '\r') rfl), Bool.or_self]

theorem isLetter_of_isLower {c : Char} (letter : isLower c = true) : isLetter c = true := by
  rw [isLetter, letter, Bool.or_true]

theorem lower_of_isLower {c : Char} (letter : isLower c = true) : lower c = c := by
  have small : Text.isUpper c = false := by
    simp only [isLower, Text.isUpper, Bool.and_eq_true, decide_eq_true_eq, Bool.and_eq_false_iff,
      decide_eq_false_iff_not] at letter ⊢
    right
    intro large
    exact absurd (Char.le_trans letter.1 large) (by decide)
  rw [lower, small, if_neg Bool.false_ne_true]

theorem unifyLines_eq (text : List Char) (free : '\r' ∉ text) : unifyLines text = text := by
  induction text with
  | nil => rfl
  | cons c text ih =>
      rw [List.mem_cons, not_or] at free
      rw [unifyLines, ih free.2]
      · intro _ same
        exact absurd same.symm free.1
      · exact Ne.symm free.1

namespace Input

theorem rest_refill (i : Input) : i.refill.rest = i.rest := by
  unfold refill load
  split
  · cases i.later <;> rfl
  · rfl

theorem rest_unread (i : Input) (c : Char) : (i.unread (some c)).rest = c :: i.rest := rfl

theorem exists_read {i : Input} {c : Char} {rest : List Char} (left : i.rest = c :: rest) :
    ∃ j : Input, i.read = (some c, j) ∧ j.rest = rest := by
  have same := i.rest_refill.trans left
  refine ⟨i.refill.take c rest, ?_, rfl⟩
  rw [read]
  split
  · next ended =>
    rw [ended] at same
    cases same
  · next d others found =>
    rw [found] at same
    cases same
    rfl

theorem read_of_end {i : Input} (ended : i.rest = []) : i.read.1 = none := by
  have same := i.rest_refill.trans ended
  rw [read]
  split
  · rfl
  · next found =>
    rw [found] at same
    cases same

theorem rest_read (i : Input) : i.read.2.rest = i.rest.tail := by
  cases left : i.rest with
  | nil =>
      have same := i.rest_refill.trans left
      rw [read]
      split
      · exact same
      · next found =>
        rw [found] at same
        cases same
  | cons c rest =>
      obtain ⟨j, found, after⟩ := exists_read left
      rw [found]
      exact after

theorem rest_advance (p : Char → Bool) (text : List Char) : ∀ i : Input, i.rest = text →
    (advance p text i).rest = text.dropWhile p := by
  induction text with
  | nil =>
      intro i left
      exact i.rest_refill.trans left
  | cons c text ih =>
      intro i left
      rw [advance, List.dropWhile_cons]
      split
      · exact ih _ rfl
      · exact i.rest_refill.trans left

theorem exists_readWhile {i : Input} {text : List Char} (left : i.rest = text) (p : Char → Bool) :
    ∃ j : Input, i.readWhile p = (text.takeWhile p, j) ∧ j.rest = text.dropWhile p := by
  refine ⟨advance p i.rest i, ?_, ?_⟩
  · rw [readWhile, left]
  · rw [left]
    exact rest_advance p text i left

end Input

/-- A lexer apart from its place in the text and from what it has put out. -/
structure Reading where
  state : LexState
  draft : Draft
  buffer : List Char
  rest : List Char

/-- One round leads from one reading to another and puts tokens out, at any place in a text. -/
def Reads (r : Reading) (out : List Token) (q : Reading) : Prop :=
  ∀ (foreign : Bool) (i : Input), i.rest = r.rest → ∃ j : Input, j.rest = q.rest ∧
    Lexer.step foreign ⟨r.state, i, r.draft, r.buffer, []⟩ =
      some ⟨q.state, j, q.draft, q.buffer, (out.map Item.token).reverse⟩

/-- A round that takes one character has only to say what it makes of it. -/
theorem reads_of_char {state : LexState} {draft : Draft} {buffer rest : List Char} {c : Char}
    {out : List Token} {q : Reading} (after : q.rest = rest)
    (makes : ∀ (foreign : Bool) (i j : Input), i.read = (some c, j) →
      Lexer.step foreign ⟨state, i, draft, buffer, []⟩ =
        some ⟨q.state, j, q.draft, q.buffer, (out.map Item.token).reverse⟩) :
    Reads ⟨state, draft, buffer, c :: rest⟩ out q := by
  intro foreign i left
  obtain ⟨j, read, beyond⟩ := Input.exists_read left
  exact ⟨j, beyond.trans after.symm, makes foreign i j read⟩

section Steps

variable {draft : Draft} {buffer rest : List Char} {c : Char}

theorem reads_ampersand :
    Reads ⟨.data, draft, buffer, '&' :: rest⟩ [] ⟨.dataReference, draft, buffer, rest⟩ := by
  refine reads_of_char rfl fun foreign i j read => ?_
  simp only [Lexer.step, Lexer.dataStep, Lexer.read, read]
  rfl

theorem reads_bracket :
    Reads ⟨.data, draft, buffer, '<' :: rest⟩ [] ⟨.tagOpen, draft, buffer, rest⟩ := by
  refine reads_of_char rfl fun foreign i j read => ?_
  simp only [Lexer.step, Lexer.dataStep, Lexer.read, read]
  rfl

theorem dataStep_of_plain {l : Lexer} {rest : List Char} (left : l.input.rest = c :: rest)
    (plain : Lexer.isPlainData c = true) : ∃ j : Input, j.rest = rest ∧
      l.dataStep = some ({ l with input := j }.textRun c) := by
  obtain ⟨j, read, after⟩ := Input.exists_read left
  refine ⟨j, after, ?_⟩
  simp only [Lexer.isPlainData, Bool.and_eq_true, decide_eq_true_eq] at plain
  obtain ⟨⟨ampersand, bracket⟩, nul⟩ := plain
  simp only [Lexer.dataStep, Lexer.read, read]

theorem reads_spaces (space : isSpace c = true) :
    Reads ⟨.data, draft, buffer, c :: rest⟩ [.spaces (String.ofList (c :: rest.takeWhile isSpace))]
      ⟨.data, draft, buffer, rest.dropWhile isSpace⟩ := by
  intro foreign i left
  have plain : Lexer.isPlainData c = true := by
    simp only [isSpace, Bool.or_eq_true, beq_iff_eq] at space
    rcases space with (((rfl | rfl) | rfl) | rfl) | rfl <;> rfl
  obtain ⟨j, after, stepped⟩ :=
    dataStep_of_plain (l := ⟨.data, i, draft, buffer, []⟩) left plain
  obtain ⟨k, run, beyond⟩ := Input.exists_readWhile after isSpace
  refine ⟨k, beyond, ?_⟩
  rw [Lexer.step, stepped, Lexer.textRun, if_pos space]
  simp only [Lexer.readWhile, run]
  rfl

theorem reads_characters (plain : Lexer.isPlainData c = true) (visible : isSpace c = false) :
    Reads ⟨.data, draft, buffer, c :: rest⟩
      [.characters (String.ofList (c :: rest.takeWhile Lexer.isPlainData))]
      ⟨.data, draft, buffer, rest.dropWhile Lexer.isPlainData⟩ := by
  intro foreign i left
  obtain ⟨j, after, stepped⟩ :=
    dataStep_of_plain (l := ⟨.data, i, draft, buffer, []⟩) left plain
  obtain ⟨k, run, beyond⟩ := Input.exists_readWhile after Lexer.isPlainData
  refine ⟨k, beyond, ?_⟩
  rw [Lexer.step, stepped, Lexer.textRun, if_neg (by rw [visible]; exact Bool.false_ne_true)]
  simp only [Lexer.readWhile, run]
  rfl

end Steps

/-- What follows a name makes no difference where no longer name goes on from it. -/
theorem Reference.scanFrom_append (name more : List Char) : ∀ (names : Candidates) (s : Scan),
    (name.foldl (fun names c => narrow c names) names).all (·.1.isEmpty) = true →
      scanFrom names s (name ++ more) = scanFrom names s name := by
  induction name with
  | nil =>
      intro names s ended
      cases more with
      | nil => rfl
      | cons c more =>
          have nothing : narrow c names = [] := by
            rw [narrow, List.filterMap_eq_nil_iff]
            rintro ⟨name, text⟩ member
            obtain rfl : name = [] := List.isEmpty_iff.mp (List.all_eq_true.mp ended _ member)
            rfl
          simp only [List.nil_append, scanFrom, nothing]
  | cons c name ih =>
      intro names s ended
      rw [List.cons_append, scanFrom, scanFrom]
      split
      · rfl
      · exact ih _ _ ended

theorem Reference.scan_eq {first : Char} {rest : List Char} {found : Scan}
    (whole : ((first :: rest).foldl (fun names c => narrow c names) (candidates first)).all
      (·.1.isEmpty) = true ∧ scan (first :: rest) = found) (more : List Char) :
    scan (first :: rest ++ more) = found :=
  (scanFrom_append (first :: rest) more (candidates first) ⟨0, none⟩ whole.1).trans whole.2

/-- A name behind an ampersand, with its semicolon, and the character that it stands for. -/
structure StandsFor (name : List Char) (c : Char) : Prop where
  scan : ∀ more, Reference.scan (name ++ more) = ⟨name.length, some ⟨name.length, [c]⟩⟩
  closed : ∀ more, ((name ++ more).drop (name.length - 1)).head? = some ';'
  named : ∃ first others, name = first :: others ∧ isLower first = true
  shown : isSpace c = false

theorem standsFor_ampersand : StandsFor ['a', 'm', 'p', ';'] '&' where
  scan := Reference.scan_eq (by decide +kernel)
  closed _ := rfl
  named := ⟨'a', _, rfl, rfl⟩
  shown := rfl

theorem standsFor_less : StandsFor ['l', 't', ';'] '<' where
  scan := Reference.scan_eq (by decide +kernel)
  closed _ := rfl
  named := ⟨'l', _, rfl, rfl⟩
  shown := rfl

theorem standsFor_greater : StandsFor ['g', 't', ';'] '>' where
  scan := Reference.scan_eq (by decide +kernel)
  closed _ := rfl
  named := ⟨'g', _, rfl, rfl⟩
  shown := rfl

theorem standsFor_quote : StandsFor ['q', 'u', 'o', 't', ';'] '"' where
  scan := Reference.scan_eq (by decide +kernel)
  closed _ := rfl
  named := ⟨'q', _, rfl, rfl⟩
  shown := rfl

theorem exists_skip (n : Nat) : ∀ l : Lexer, ∃ j : Input,
    Lexer.skip n l = { l with input := j } ∧ j.rest = l.input.rest.drop n := by
  induction n with
  | zero => exact fun l => ⟨l.input, rfl, rfl⟩
  | succ n ih =>
      intro l
      obtain ⟨j, skipped, after⟩ := ih l.read.2
      refine ⟨j, skipped, ?_⟩
      rw [after, Lexer.read]
      change l.input.read.2.rest.drop n = _
      rw [Input.rest_read, ← List.drop_one, List.drop_drop, Nat.add_comm]

theorem exists_peek (l : Lexer) : ∃ j : Input,
    (Lexer.peek l).2 = { l with input := j } ∧ j.rest = l.input.rest := by
  cases left : l.input.rest with
  | nil =>
      have nothing : l.input.read.1 = none := by
        rw [Input.read]
        split
        · rfl
        · next found =>
          rw [l.input.rest_refill, left] at found
          cases found
      refine ⟨l.input.read.2, ?_, ?_⟩
      · simp only [Lexer.peek, Lexer.read, Lexer.unread, nothing, Input.unread]
      · rw [Input.rest_read, left]
        rfl
  | cons c rest =>
      obtain ⟨j, read, after⟩ := Input.exists_read left
      refine ⟨j.unread (some c), ?_, ?_⟩
      · simp only [Lexer.peek, Lexer.read, Lexer.unread, read]
      · rw [Input.rest_unread, after]

theorem exists_named {name : List Char} {c : Char} (stands : StandsFor name c) (l : Lexer)
    (more : List Char) (left : l.input.rest = name ++ more) (inAttr : Bool) :
    ∃ j : Input, l.namedReference inAttr = ([c], { l with input := j }) ∧ j.rest = more := by
  obtain ⟨j, skipped, after⟩ := exists_skip name.length l
  obtain ⟨k, peeked, still⟩ := exists_peek { l with input := j }
  refine ⟨k, ?_, ?_⟩
  · simp only [Lexer.namedReference, left, stands.scan, stands.closed, skipped, peeked,
      decide_true, if_true, Bool.not_true, Bool.false_and, Bool.false_eq_true, if_false,
      List.take_left, List.drop_length, List.append_nil]
  · rw [still, after, left, List.drop_left]

theorem exists_reference {name : List Char} {c : Char} (stands : StandsFor name c) (l : Lexer)
    (more : List Char) (left : l.input.rest = name ++ more) (stop : Option Char)
    (further : ∀ d ∈ stop, isLower d = false) (inAttr : Bool) :
    ∃ j : Input, l.reference stop inAttr = ([c], { l with input := j }) ∧ j.rest = more := by
  obtain ⟨first, others, rfl, letter⟩ := stands.named
  obtain ⟨j, read, after⟩ := Input.exists_read left
  obtain ⟨k, found, beyond⟩ := exists_named stands { l with input := j.unread (some first) } more
    (by rw [Input.rest_unread, after]; rfl) inAttr
  have plain : (isSpace first || decide (first = '<') || decide (first = '&') ||
      decide (stop = some first)) = false := by
    have apart : stop ≠ some first := by
      intro same
      rw [further first same] at letter
      cases letter
    simp only [isSpace_of_isLower letter, ne_of_isLower letter (d := '<') rfl,
      ne_of_isLower letter (d := '&') rfl, apart, decide_false, Bool.or_self]
  have number : first ≠ '#' := ne_of_isLower letter rfl
  refine ⟨k, ?_, beyond⟩
  simp only [Lexer.reference, Lexer.read, read, plain, Lexer.unread, Bool.false_eq_true, if_false]
  exact found

section Steps

variable {draft : Draft} {buffer rest : List Char} {c : Char}

theorem reads_reference {name : List Char} (stands : StandsFor name c) :
    Reads ⟨.dataReference, draft, buffer, name ++ rest⟩ [.characters (String.ofList [c])]
      ⟨.data, draft, buffer, rest⟩ := by
  intro foreign i left
  obtain ⟨j, found, after⟩ :=
    exists_reference stands ⟨.dataReference, i, draft, buffer, []⟩ rest left none
      (fun _ absurd => nomatch absurd) false
  refine ⟨j, after, ?_⟩
  simp only [Lexer.step, Lexer.textReference, found, stands.shown, Bool.false_eq_true, if_false]
  rfl

end Steps

end HtmlTree.Html
