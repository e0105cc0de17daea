import HtmlTree.Proofs.Html.Reading

/-! Rounds of the lexer inside tags. -/

namespace HtmlTree.Html

open Text (isSpace isLetter isLower isDigit lower)

def tagDraft (isEnd : Bool) (name : List Char) (attrs : List AttrDraft) : Draft :=
  .tag ⟨isEnd, name, attrs, false⟩

def finishedTag (isEnd : Bool) (name : List Char) (attrs : List AttrDraft) : Token :=
  if isEnd then .endTag (textOf name) else .startTag ⟨textOf name, Lexer.finishAttrs attrs, false⟩

variable {draft : Draft} {buffer name rest : List Char} {attrs : List AttrDraft} {isEnd : Bool}
  {c : Char}

theorem reads_startName (letter : isLower c = true) :
    Reads ⟨.tagOpen, draft, buffer, c :: rest⟩ [] ⟨.tagName, tagDraft false [c] [], buffer, rest⟩ := by
  refine reads_of_char rfl fun foreign i j read => ?_
  have other : ∀ d, isLower d = false → some c ≠ some d :=
    fun d unlike same => ne_of_isLower letter unlike (Option.some.inj same)
  have bang := other '!' rfl
  have solidus := other '/' rfl
  have bracket := other '>' rfl
  have question := other '?' rfl
  simp only [Lexer.step, Lexer.tagOpenStep, Lexer.read, read, Option.filter_some,
    isLetter_of_isLower letter, if_true]
  rfl

theorem reads_solidus :
    Reads ⟨.tagOpen, draft, buffer, '/' :: rest⟩ [] ⟨.endTagOpen, draft, buffer, rest⟩ := by
  refine reads_of_char rfl fun foreign i j read => ?_
  simp only [Lexer.step, Lexer.tagOpenStep, Lexer.read, read]
  rfl

theorem reads_bang :
    Reads ⟨.tagOpen, draft, buffer, '!' :: rest⟩ [] ⟨.declaration, draft, buffer, rest⟩ := by
  refine reads_of_char rfl fun foreign i j read => ?_
  simp only [Lexer.step, Lexer.tagOpenStep, Lexer.read, read]
  rfl

theorem reads_endName (letter : isLower c = true) :
    Reads ⟨.endTagOpen, draft, buffer, c :: rest⟩ [] ⟨.tagName, tagDraft true [c] [], buffer, rest⟩ := by
  refine reads_of_char rfl fun foreign i j read => ?_
  have bracket : c ≠ '>' := ne_of_isLower letter rfl
  simp only [Lexer.step, Lexer.endTagOpenStep, Lexer.read, read, isLetter_of_isLower letter, if_true]
  rfl

theorem reads_nameChar (letter : isLower c = true) :
    Reads ⟨.tagName, tagDraft isEnd name attrs, buffer, c :: rest⟩ []
      ⟨.tagName, tagDraft isEnd (c :: name) attrs, buffer, rest⟩ := by
  refine reads_of_char rfl fun foreign i j read => ?_
  have bracket : c ≠ '>' := ne_of_isLower letter rfl
  have solidus : c ≠ '/' := ne_of_isLower letter rfl
  have nul : c ≠ '\x00' := ne_of_isLower letter rfl
  simp only [Lexer.step, Lexer.tagNameStep, Lexer.read, read, isSpace_of_isLower letter,
    Bool.false_eq_true, if_false]
  rfl

def IsGap (state : LexState) : Prop := state = .tagName ∨ state = .afterAttrValue

theorem reads_gap {state : LexState} (gap : IsGap state) :
    Reads ⟨state, draft, buffer, ' ' :: rest⟩ [] ⟨.beforeAttrName, draft, buffer, rest⟩ := by
  refine reads_of_char rfl fun foreign i j read => ?_
  rcases gap with rfl | rfl
  · simp only [Lexer.step, Lexer.tagNameStep, Lexer.read, read]
    rfl
  · simp only [Lexer.step, Lexer.afterAttrValueStep, Lexer.read, read]
    rfl

theorem map_lower {text : List Char} (small : ∀ d ∈ text, isLower d = true) :
    text.map lower = text := by
  rw [List.map_congr_left fun d member => lower_of_isLower (small d member), List.map_id']

theorem putTag_eq (state : LexState) (j : Input) (small : ∀ d ∈ name, isLower d = true)
    (bare : isEnd = true → attrs = []) :
    Lexer.putTag ⟨state, j, tagDraft isEnd name attrs, buffer, []⟩ =
      ⟨.data, j, tagDraft isEnd name attrs, buffer, [.token (finishedTag isEnd name attrs)]⟩ := by
  cases isEnd with
  | true =>
      rw [bare rfl]
      simp only [Lexer.putTag, tagDraft, map_lower small]
      rfl
  | false =>
      simp only [Lexer.putTag, tagDraft, map_lower small]
      rfl

theorem reads_tagEnd {state : LexState} (gap : IsGap state) (small : ∀ d ∈ name, isLower d = true)
    (bare : isEnd = true → attrs = []) :
    Reads ⟨state, tagDraft isEnd name attrs, buffer, '>' :: rest⟩ [finishedTag isEnd name attrs]
      ⟨.data, tagDraft isEnd name attrs, buffer, rest⟩ := by
  refine reads_of_char rfl fun foreign i j read => ?_
  rcases gap with rfl | rfl
  · simp only [Lexer.step, Lexer.tagNameStep, Lexer.read, read, putTag_eq _ j small bare]
    rfl
  · simp only [Lexer.step, Lexer.afterAttrValueStep, Lexer.read, read, putTag_eq _ j small bare]
    rfl

theorem reads_firstChar (letter : isLower c = true) :
    Reads ⟨.beforeAttrName, tagDraft isEnd name attrs, buffer, c :: rest⟩ []
      ⟨.attrName, tagDraft isEnd name (⟨[c], []⟩ :: attrs), buffer, rest⟩ := by
  refine reads_of_char rfl fun foreign i j read => ?_
  have bracket : c ≠ '>' := ne_of_isLower letter rfl
  have solidus : c ≠ '/' := ne_of_isLower letter rfl
  have nul : c ≠ '\x00' := ne_of_isLower letter rfl
  have plain : (decide (c = '\'') || decide (c = '"') || decide (c = '=') || decide (c = '<')) =
      false := by
    simp only [ne_of_isLower letter (d := '\'') rfl, ne_of_isLower letter (d := '"') rfl,
      ne_of_isLower letter (d := '=') rfl, ne_of_isLower letter (d := '<') rfl, decide_false,
      Bool.or_self]
  simp only [Lexer.step, Lexer.beforeAttrNameStep, Lexer.read, read, isSpace_of_isLower letter, plain,
    Bool.false_eq_true, if_false]
  rfl

def isNameMark (c : Char) : Bool := isDigit c || c == '-'

theorem ne_of_isNameMark {d : Char} (mark : isNameMark c = true) (other : isNameMark d = false) :
    c ≠ d := by
  rintro rfl
  rw [other] at mark
  cases mark

theorem isLetter_of_isNameMark (mark : isNameMark c = true) : isLetter c = false := by
  simp only [isNameMark, isDigit, Bool.or_eq_true, Bool.and_eq_true, decide_eq_true_eq,
    beq_iff_eq] at mark
  rcases mark with ⟨_, low⟩ | rfl
  · simp only [isLetter, Text.isUpper, isLower, Bool.or_eq_false_iff, Bool.and_eq_false_iff,
      decide_eq_false_iff_not]
    constructor
    · left
      exact fun high => absurd (Char.le_trans high low) (by decide)
    · left
      exact fun high => absurd (Char.le_trans high low) (by decide)
  · rfl

theorem isSpace_of_isNameMark (mark : isNameMark c = true) : isSpace c = false := by
  simp only [isSpace, beq_eq_false_iff_ne.mpr (ne_of_isNameMark mark (d := ' ') rfl),
    beq_eq_false_iff_ne.mpr (ne_of_isNameMark mark (d := '\n') rfl),
    beq_eq_false_iff_ne.mpr (ne_of_isNameMark mark (d := '\t') rfl),
    beq_eq_false_iff_ne.mpr (ne_of_isNameMark mark (d := '\x0c') rfl),
    beq_eq_false_iff_ne.mpr (ne_of_isNameMark mark (d := '\r') rfl), Bool.or_self]

theorem lower_of_isNameMark (mark : isNameMark c = true) : lower c = c := by
  have capital : Text.isUpper c = false := (Bool.or_eq_false_iff.mp (isLetter_of_isNameMark mark)).1
  rw [lower, capital, if_neg Bool.false_ne_true]

variable {done value : List Char}

theorem reads_nameRun (letter : isLower c = true) :
    Reads ⟨.attrName, tagDraft isEnd name (⟨done, value⟩ :: attrs), buffer, c :: rest⟩ []
      ⟨.attrName, tagDraft isEnd name (⟨(c :: rest.takeWhile isLetter).reverse ++ done, value⟩ :: attrs),
        buffer, rest.dropWhile isLetter⟩ := by
  intro foreign i left
  obtain ⟨j, read, after⟩ := Input.exists_read left
  obtain ⟨k, run, beyond⟩ := Input.exists_readWhile after isLetter
  have equals : c ≠ '=' := ne_of_isLower letter rfl
  have bracket : c ≠ '>' := ne_of_isLower letter rfl
  have solidus : c ≠ '/' := ne_of_isLower letter rfl
  have nul : c ≠ '\x00' := ne_of_isLower letter rfl
  refine ⟨k, beyond, ?_⟩
  simp only [Lexer.step, Lexer.attrNameStep, Lexer.read, read, isLetter_of_isLower letter, if_true,
    Lexer.readWhile, run]
  rfl

theorem reads_nameMark (mark : isNameMark c = true) :
    Reads ⟨.attrName, tagDraft isEnd name (⟨done, value⟩ :: attrs), buffer, c :: rest⟩ []
      ⟨.attrName, tagDraft isEnd name (⟨c :: done, value⟩ :: attrs), buffer, rest⟩ := by
  refine reads_of_char rfl fun foreign i j read => ?_
  have equals : c ≠ '=' := ne_of_isNameMark mark rfl
  have bracket : c ≠ '>' := ne_of_isNameMark mark rfl
  have solidus : c ≠ '/' := ne_of_isNameMark mark rfl
  have nul : c ≠ '\x00' := ne_of_isNameMark mark rfl
  have plain : (decide (c = '\'') || decide (c = '"') || decide (c = '<')) = false := by
    simp only [ne_of_isNameMark mark (d := '\'') rfl, ne_of_isNameMark mark (d := '"') rfl,
      ne_of_isNameMark mark (d := '<') rfl, decide_false, Bool.or_self]
  simp only [Lexer.step, Lexer.attrNameStep, Lexer.read, read, isLetter_of_isNameMark mark,
    isSpace_of_isNameMark mark, plain, Bool.false_eq_true, if_false]
  rfl

theorem reads_equals (small : done.map lower = done) (fresh : ∀ a ∈ attrs, a.name ≠ done) :
    Reads ⟨.attrName, tagDraft isEnd name (⟨done, value⟩ :: attrs), buffer, '=' :: rest⟩ []
      ⟨.beforeAttrValue, tagDraft isEnd name (⟨done, value⟩ :: attrs), buffer, rest⟩ := by
  refine reads_of_char rfl fun foreign i j read => ?_
  have unique : (attrs.any fun b => decide (b.name = done)) = false := by
    rw [List.any_eq_false]
    intro a member
    rw [decide_eq_true_eq]
    exact fresh a member
  simp only [Lexer.step, Lexer.attrNameStep, Lexer.read, read, Lexer.endAttrName, Lexer.withAttr,
    Lexer.withTag, Lexer.goto, tagDraft, small, unique, Bool.false_eq_true, if_false]
  rfl

theorem reads_openQuote :
    Reads ⟨.beforeAttrValue, draft, buffer, '"' :: rest⟩ [] ⟨.quotedValue '"', draft, buffer, rest⟩ := by
  refine reads_of_char rfl fun foreign i j read => ?_
  simp only [Lexer.step, Lexer.beforeAttrValueStep, Lexer.read, read]
  rfl

theorem reads_closeQuote :
    Reads ⟨.quotedValue '"', draft, buffer, '"' :: rest⟩ [] ⟨.afterAttrValue, draft, buffer, rest⟩ := by
  refine reads_of_char rfl fun foreign i j read => ?_
  simp only [Lexer.step, Lexer.quotedValueStep, Lexer.read, read, if_true]
  rfl

def isPlainValue (c : Char) : Bool := c ≠ '"' && c ≠ '&' && c ≠ '\x00'

theorem reads_valueRun (plain : isPlainValue c = true) :
    Reads ⟨.quotedValue '"', tagDraft isEnd name (⟨done, value⟩ :: attrs), buffer, c :: rest⟩ []
      ⟨.quotedValue '"',
        tagDraft isEnd name (⟨done, (c :: rest.takeWhile isPlainValue).reverse ++ value⟩ :: attrs),
        buffer, rest.dropWhile isPlainValue⟩ := by
  intro foreign i left
  obtain ⟨j, read, after⟩ := Input.exists_read left
  obtain ⟨k, run, beyond⟩ := Input.exists_readWhile after isPlainValue
  have known := plain
  simp only [isPlainValue, Bool.and_eq_true, decide_eq_true_eq] at known
  obtain ⟨⟨quote, ampersand⟩, nul⟩ := known
  have written : j.readWhile (fun e => e ≠ '"' && e ≠ '&' && e ≠ '\x00') =
      (rest.takeWhile isPlainValue, k) := run
  refine ⟨k, beyond, ?_⟩
  simp only [Lexer.step, Lexer.quotedValueStep, Lexer.read, read, quote, if_false, Lexer.readWhile,
    written]
  rfl

theorem reads_valueReference {text : List Char} (stands : StandsFor text c) :
    Reads ⟨.quotedValue '"', tagDraft isEnd name (⟨done, value⟩ :: attrs), buffer, '&' :: (text ++ rest)⟩
      [] ⟨.quotedValue '"', tagDraft isEnd name (⟨done, c :: value⟩ :: attrs), buffer, rest⟩ := by
  intro foreign i left
  obtain ⟨j, read, after⟩ := Input.exists_read left
  obtain ⟨k, found, beyond⟩ := exists_reference stands
    ⟨.quotedValue '"', j, tagDraft isEnd name (⟨done, value⟩ :: attrs), buffer, []⟩ rest after (some '"')
    (by rintro d ⟨⟩; rfl) true
  refine ⟨k, beyond, ?_⟩
  simp only [Lexer.step, Lexer.quotedValueStep, Lexer.read, read, Lexer.valueReference, found]
  rfl

end HtmlTree.Html
