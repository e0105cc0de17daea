import HtmlTree.Proofs.Html.ReadingTags

/-! Rounds of the lexer inside comments and inside elements whose text is read as it stands. -/

namespace HtmlTree.Html

open Text (isSpace isLetter isLower lower)

variable {draft : Draft} {buffer name rest data : List Char} {attrs : List AttrDraft}
  {isEnd : Bool} {c : Char}

theorem reads_openComment :
    Reads ⟨.declaration, draft, buffer, '-' :: '-' :: rest⟩ []
      ⟨.commentStart, .comment [], buffer, rest⟩ := by
  intro foreign i left
  obtain ⟨j, read, after⟩ := Input.exists_read left
  obtain ⟨k, again, beyond⟩ := Input.exists_read after
  refine ⟨k, beyond, ?_⟩
  simp only [Lexer.step, Lexer.declarationStep, Lexer.read, read, again, if_true]
  rfl

theorem reads_commentFirst (dash : c ≠ '-') (bracket : c ≠ '>') (nul : c ≠ '\x00') :
    Reads ⟨.commentStart, .comment data, buffer, c :: rest⟩ []
      ⟨.comment, .comment (c :: data), buffer, rest⟩ := by
  refine reads_of_char rfl fun foreign i j read => ?_
  simp only [Lexer.step, Lexer.commentStartStep, Lexer.read, read]
  rfl

theorem reads_commentStartDash :
    Reads ⟨.commentStart, draft, buffer, '-' :: rest⟩ [] ⟨.commentStartDash, draft, buffer, rest⟩ := by
  refine reads_of_char rfl fun foreign i j read => ?_
  simp only [Lexer.step, Lexer.commentStartStep, Lexer.read, read]
  rfl

theorem reads_commentStartEnd :
    Reads ⟨.commentStartDash, draft, buffer, '-' :: rest⟩ [] ⟨.commentEnd, draft, buffer, rest⟩ := by
  refine reads_of_char rfl fun foreign i j read => ?_
  simp only [Lexer.step, Lexer.commentStartDashStep, Lexer.read, read]
  rfl

def isPlainComment (c : Char) : Bool := c ≠ '-' && c ≠ '\x00'

theorem reads_commentRun (plain : isPlainComment c = true) :
    Reads ⟨.comment, .comment data, buffer, c :: rest⟩ []
      ⟨.comment, .comment ((c :: rest.takeWhile isPlainComment).reverse ++ data), buffer,
        rest.dropWhile isPlainComment⟩ := by
  intro foreign i left
  obtain ⟨j, read, after⟩ := Input.exists_read left
  obtain ⟨k, run, beyond⟩ := Input.exists_readWhile after isPlainComment
  have written : j.readWhile (fun e => e ≠ '-' && e ≠ '\x00') =
      (rest.takeWhile isPlainComment, k) := run
  simp only [isPlainComment, Bool.and_eq_true, decide_eq_true_eq] at plain
  obtain ⟨dash, nul⟩ := plain
  refine ⟨k, beyond, ?_⟩
  simp only [Lexer.step, Lexer.commentStep, Lexer.read, read, Lexer.readWhile, written]
  rfl

theorem reads_commentDash :
    Reads ⟨.comment, draft, buffer, '-' :: rest⟩ [] ⟨.commentEndDash, draft, buffer, rest⟩ := by
  refine reads_of_char rfl fun foreign i j read => ?_
  simp only [Lexer.step, Lexer.commentStep, Lexer.read, read]
  rfl

theorem reads_commentOn (dash : c ≠ '-') (nul : c ≠ '\x00') :
    Reads ⟨.commentEndDash, .comment data, buffer, c :: rest⟩ []
      ⟨.comment, .comment (c :: '-' :: data), buffer, rest⟩ := by
  refine reads_of_char rfl fun foreign i j read => ?_
  simp only [Lexer.step, Lexer.commentEndDashStep, Lexer.read, read]
  rfl

theorem reads_commentDashes :
    Reads ⟨.commentEndDash, draft, buffer, '-' :: rest⟩ [] ⟨.commentEnd, draft, buffer, rest⟩ := by
  refine reads_of_char rfl fun foreign i j read => ?_
  simp only [Lexer.step, Lexer.commentEndDashStep, Lexer.read, read]
  rfl

theorem reads_closeComment :
    Reads ⟨.commentEnd, .comment data, buffer, '>' :: rest⟩ [.comment (textOf data)]
      ⟨.data, .comment data, buffer, rest⟩ := by
  refine reads_of_char rfl fun foreign i j read => ?_
  simp only [Lexer.step, Lexer.commentEndStep, Lexer.read, read]
  rfl

def IsRawKind (kind : RawKind) : Prop := kind = .script ∨ kind = .plain

theorem step_home {kind : RawKind} (isRaw : IsRawKind kind) (foreign : Bool) (l : Lexer)
    (home : l.state = Lexer.RawKind.home kind) : Lexer.step foreign l = Lexer.rawStep kind l := by
  rcases isRaw with rfl | rfl
  · simp only [Lexer.step, home, Lexer.RawKind.home]
  · simp only [Lexer.step, home, Lexer.RawKind.home]

theorem reads_rawBracket {kind : RawKind} (isRaw : IsRawKind kind) :
    Reads ⟨Lexer.RawKind.home kind, draft, buffer, '<' :: rest⟩ [] ⟨.rawLess kind, draft, buffer, rest⟩ := by
  refine reads_of_char rfl fun foreign i j read => ?_
  rw [step_home isRaw foreign _ rfl]
  simp only [Lexer.rawStep, Lexer.read, read]
  rfl

theorem reads_rawRun {kind : RawKind} (isRaw : IsRawKind kind) (plain : Lexer.isPlainRaw c = true) :
    Reads ⟨Lexer.RawKind.home kind, draft, buffer, c :: rest⟩
      [.characters (String.ofList (c :: rest.takeWhile Lexer.isPlainRaw))]
      ⟨Lexer.RawKind.home kind, draft, buffer, rest.dropWhile Lexer.isPlainRaw⟩ := by
  intro foreign i left
  obtain ⟨j, read, after⟩ := Input.exists_read left
  obtain ⟨k, run, beyond⟩ := Input.exists_readWhile after Lexer.isPlainRaw
  simp only [Lexer.isPlainRaw, Bool.and_eq_true, decide_eq_true_eq] at plain
  obtain ⟨bracket, nul⟩ := plain
  refine ⟨k, beyond, ?_⟩
  rw [step_home isRaw foreign _ rfl]
  simp only [Lexer.rawStep, Lexer.read, read, Lexer.readWhile, run]
  rfl

theorem reads_rawLess {kind : RawKind} (isRaw : IsRawKind kind) (solidus : c ≠ '/') (bang : c ≠ '!') :
    Reads ⟨.rawLess kind, draft, buffer, c :: rest⟩ [.characters (String.ofList ['<'])]
      ⟨Lexer.RawKind.home kind, draft, buffer, c :: rest⟩ := by
  intro foreign i left
  obtain ⟨j, read, after⟩ := Input.exists_read left
  refine ⟨j.unread (some c), ?_, ?_⟩
  · rw [Input.rest_unread, after]
  · rcases isRaw with rfl | rfl
    · simp only [Lexer.step, Lexer.rawLessStep, Lexer.read, read, Option.some.injEq, solidus, bang,
        decide_false, Bool.and_false, Bool.false_eq_true, if_false]
      rfl
    · simp only [Lexer.step, Lexer.rawLessStep, Lexer.read, read, Option.some.injEq, solidus, if_false]
      rfl

theorem reads_rawSolidus {kind : RawKind} :
    Reads ⟨.rawLess kind, draft, buffer, '/' :: rest⟩ [] ⟨.rawEndTagOpen kind, draft, [], rest⟩ := by
  refine reads_of_char rfl fun foreign i j read => ?_
  simp only [Lexer.step, Lexer.rawLessStep, Lexer.read, read, if_true]
  rfl

theorem reads_rawEndFirst {kind : RawKind} (letter : isLower c = true) :
    Reads ⟨.rawEndTagOpen kind, draft, buffer, c :: rest⟩ []
      ⟨.rawEndTagName kind, draft, c :: buffer, rest⟩ := by
  refine reads_of_char rfl fun foreign i j read => ?_
  simp only [Lexer.step, Lexer.rawEndTagOpenStep, Lexer.read, read, Option.filter_some,
    isLetter_of_isLower letter, if_true]
  rfl

theorem reads_rawEndChar {kind : RawKind} (letter : isLower c = true) :
    Reads ⟨.rawEndTagName kind, draft, buffer, c :: rest⟩ []
      ⟨.rawEndTagName kind, draft, c :: buffer, rest⟩ := by
  refine reads_of_char rfl fun foreign i j read => ?_
  have solidus : c ≠ '/' := ne_of_isLower letter rfl
  have bracket : c ≠ '>' := ne_of_isLower letter rfl
  simp only [Lexer.step, Lexer.rawEndTagNameStep, Lexer.read, read, isSpace_of_isLower letter,
    Bool.false_and, Bool.false_eq_true, if_false, solidus, bracket, decide_false,
    isLetter_of_isLower letter, if_true]
  rfl

theorem reads_rawEnd {kind : RawKind} (small : ∀ d ∈ name, isLower d = true) :
    Reads ⟨.rawEndTagName kind, tagDraft isEnd name attrs, name, '>' :: rest⟩ [.endTag (textOf name)]
      ⟨.data, tagDraft true name [], name, rest⟩ := by
  refine reads_of_char rfl fun foreign i j read => ?_
  have fits : Lexer.appropriate ⟨.rawEndTagName kind, i, tagDraft isEnd name attrs, name, []⟩ = true :=
    decide_eq_true rfl
  have shut : Lexer.putTag ⟨.rawEndTagName kind, j, tagDraft true name [], name, []⟩ = _ :=
    putTag_eq (.rawEndTagName kind) j small fun _ => rfl
  simp only [Lexer.step, Lexer.rawEndTagNameStep, Lexer.read, read, fits]
  exact congrArg some shut

end HtmlTree.Html
