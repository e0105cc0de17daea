import HtmlTree.Proofs.Html.Regime

/-! Comments, doctypes and sections: however they are read, no tags are put out, and text goes on
behind them. -/

namespace HtmlTree.Html

def Token.isTag : Token → Bool
  | .startTag _ | .endTag _ => true
  | _ => false

namespace LexState

def isPlain : LexState → Bool
  | .data | .dataReference | .plaintext | .bogusComment | .declaration | .commentStart
  | .commentStartDash | .comment | .commentEndDash | .commentEnd | .commentEndBang | .doctype
  | .beforeDoctypeName | .doctypeName | .afterDoctypeName | .afterPublicWord | .beforePublicId
  | .publicId _ | .afterPublicId | .betweenIds | .afterSystemWord | .beforeSystemId | .systemId _
  | .afterSystemId | .bogusDoctype | .cdata => true
  | _ => false

end LexState

/-- Text goes on, or something else than a tag is read. -/
def Regime.plain (text : List Char) : Regime where
  text := text
  admits t := !t.isTag
  states := LexState.isPlain
  drafts _ := True

namespace Under

variable {g : Regime} {text held : List Char} {l : Lexer} {c : Option Char}

theorem turn {state : LexState} (h : Under (.plain text) held l) (known : state.isPlain = true) :
    Under (.plain text) held (l.goto state) := h.goto known

theorem withComment (h : Under (.plain text) held l) (more : List Char) :
    Under (.plain text) held (l.withComment more) := by
  rw [Lexer.withComment]
  split
  · exact ⟨h.rest, h.out, h.state, trivial⟩
  · exact h

theorem putComment (h : Under (.plain text) held l) : Under (.plain text) held l.putComment := by
  rw [Lexer.putComment]
  split
  · exact (h.put rfl).goto rfl
  · exact h.goto rfl

theorem withDoctype (h : Under (.plain text) held l) (f : DoctypeDraft → DoctypeDraft) :
    Under (.plain text) held (l.withDoctype f) := by
  rw [Lexer.withDoctype]
  split
  · exact ⟨h.rest, h.out, h.state, trivial⟩
  · exact h

theorem putDoctype (h : Under (.plain text) held l) : Under (.plain text) held l.putDoctype := by
  rw [Lexer.putDoctype]
  split
  · exact (h.put rfl).goto rfl
  · exact h.goto rfl

theorem endComment (h : Under (.plain text) held l) (f : Fault) :
    Under (.plain text) held (l.endComment f) := (h.fault f).putComment

theorem commentNul (h : Under (.plain text) held l) (done : List Char) :
    Under (.plain text) held (l.commentNul done) := (h.fault _).withComment _


attribute [grind ←] Under.turn withComment putComment endComment commentNul withDoctype putDoctype

section Words

theorem readWord_from (word : List (List Char)) : ∀ {l : Lexer} {c : Option Char}
    {done : List (Option Char)}, Under g ((c :: done).reverse.flatMap Option.toList) l →
      ∃ whole d others m, Lexer.readWord word (c :: done) l = (whole, d :: others, m) ∧
        Under g ((d :: others).reverse.flatMap Option.toList) m := by
  induction word with
  | nil => exact fun h => ⟨_, _, _, _, rfl, h⟩
  | cons forms word ih =>
      intro l c done h
      obtain ⟨d, m, read, onward, _⟩ := h.read
      have shape : (c :: done).reverse.flatMap Option.toList ++ d.toList =
          (d :: c :: done).reverse.flatMap Option.toList := by
        rw [List.reverse_cons (a := d), List.flatMap_append, List.flatMap_singleton]
      rw [shape] at onward
      simp only [Lexer.readWord, read]
      split
      · exact ih onward
      · exact ⟨_, _, _, _, rfl, onward⟩

theorem readWord (h : Under g c.toList l) (word : List (List Char)) :
    ∃ whole d others m, Lexer.readWord word [c] l = (whole, d :: others, m) ∧
      Under g ((d :: others).reverse.flatMap Option.toList) m := by
  have first : [c].reverse.flatMap Option.toList = c.toList := List.flatMap_singleton ..
  exact readWord_from word (first ▸ h)

theorem last {d : Option Char} {others : List (Option Char)}
    (h : Under g ((d :: others).reverse.flatMap Option.toList) l) : Under g d.toList l := by
  rw [List.reverse_cons, List.flatMap_append, List.flatMap_singleton] at h
  exact h.drop

end Words

-- No step below compares numbers, so grind need not look whether the types it meets are ordered rings.

section Comments

variable (h : Under (.plain text) [] l)
include h

theorem bogusCommentStep : Under (.plain text) [] l.bogusCommentStep := by
  have put := (h.readWhile (· ≠ '>')).put (t := .comment (String.ofList
    ((l.readWhile (· ≠ '>')).1.map fun c => if c = '\x00' then Lexer.lost else c))) rfl
  obtain ⟨c, n, next, last, _⟩ := put.read
  simp only [Lexer.bogusCommentStep, next]
  exact last.weaken.turn rfl

theorem commentStartStep : Under (.plain text) [] l.commentStartStep := by
  obtain ⟨c, m, read, onward, _⟩ := h.read
  have onward := onward.weaken
  simp only [Lexer.commentStartStep, read]
  split <;> grind -linarith [= LexState.isPlain.eq_def]

theorem commentStartDashStep : Under (.plain text) [] l.commentStartDashStep := by
  obtain ⟨c, m, read, onward, _⟩ := h.read
  have onward := onward.weaken
  simp only [Lexer.commentStartDashStep, read]
  split <;> grind -linarith [= LexState.isPlain.eq_def]

theorem commentStep : Under (.plain text) [] l.commentStep := by
  obtain ⟨c, m, read, onward, _⟩ := h.read
  have onward := onward.weaken
  simp only [Lexer.commentStep, read]
  split <;> grind -linarith [= LexState.isPlain.eq_def]

theorem commentEndDashStep : Under (.plain text) [] l.commentEndDashStep := by
  obtain ⟨c, m, read, onward, _⟩ := h.read
  have onward := onward.weaken
  simp only [Lexer.commentEndDashStep, read]
  split <;> grind -linarith [= LexState.isPlain.eq_def]

theorem commentEndStep : Under (.plain text) [] l.commentEndStep := by
  obtain ⟨c, m, read, onward, _⟩ := h.read
  have onward := onward.weaken
  simp only [Lexer.commentEndStep, read]
  split <;> grind -linarith [= LexState.isPlain.eq_def]

theorem commentEndBangStep : Under (.plain text) [] l.commentEndBangStep := by
  obtain ⟨c, m, read, onward, _⟩ := h.read
  have onward := onward.weaken
  simp only [Lexer.commentEndBangStep, read]
  split <;> grind -linarith [= LexState.isPlain.eq_def]

end Comments

section Doctypes

variable (h : Under (.plain text) [] l)

theorem incorrect (h : Under (.plain text) held l) : Under (.plain text) held l.incorrect :=
  h.withDoctype _

theorem lowerName (h : Under (.plain text) held l) : Under (.plain text) held l.lowerName :=
  h.withDoctype _

theorem breakDoctype (h : Under (.plain text) held l) (f : Fault) :
    Under (.plain text) held (l.breakDoctype f) := (h.fault f).incorrect.putDoctype

theorem spoilDoctype (h : Under (.plain text) held l) (f : Fault) :
    Under (.plain text) held (l.spoilDoctype f) := (h.fault f).incorrect.turn rfl

theorem noWord (h : Under (.plain text) c.toList l) : Under (.plain text) [] (l.noWord c) :=
  (h.unread.fault _).incorrect.turn rfl

theorem beginPublicId (h : Under (.plain text) held l) (quote : Char) :
    Under (.plain text) held (l.beginPublicId quote) := (h.withDoctype _).turn rfl

theorem beginSystemId (h : Under (.plain text) held l) (quote : Char) :
    Under (.plain text) held (l.beginSystemId quote) := (h.withDoctype _).turn rfl

theorem wordStep (h : Under (.plain text) c.toList l) (word : List (List Char)) {state : LexState}
    (known : state.isPlain = true) : Under (.plain text) []
      (if (Lexer.readWord word [c] l).1 then (Lexer.readWord word [c] l).2.2.goto state
      else (Lexer.readWord word [c] l).2.2.noWord ((Lexer.readWord word [c] l).2.1.head?.getD c)) := by
  obtain ⟨whole, d, others, m, read, onward⟩ := h.readWord word
  rw [read]
  split
  · exact onward.weaken.turn known
  · exact onward.last.noWord

attribute [grind ←] incorrect lowerName breakDoctype spoilDoctype noWord beginPublicId beginSystemId

include h

theorem doctypeStep : Under (.plain text) [] l.doctypeStep := by
  obtain ⟨c, m, read, onward, _⟩ := h.read
  have kept := onward.weaken
  simp only [Lexer.doctypeStep, read]
  repeat' split
  all_goals grind -linarith [= LexState.isPlain.eq_def]

theorem beforeDoctypeNameStep : Under (.plain text) [] l.beforeDoctypeNameStep := by
  obtain ⟨c, m, read, onward, _⟩ := h.read
  have kept := onward.weaken
  simp only [Lexer.beforeDoctypeNameStep, read]
  repeat' split
  all_goals grind -linarith [= LexState.isPlain.eq_def]

theorem doctypeNameStep : Under (.plain text) [] l.doctypeNameStep := by
  obtain ⟨c, m, read, onward, _⟩ := h.read
  have kept := onward.weaken
  simp only [Lexer.doctypeNameStep, read]
  repeat' split
  all_goals grind -linarith [= LexState.isPlain.eq_def]

theorem afterDoctypeNameStep : Under (.plain text) [] l.afterDoctypeNameStep := by
  obtain ⟨c, m, read, onward, _⟩ := h.read
  have kept := onward.weaken
  simp only [Lexer.afterDoctypeNameStep, read]
  split
  · exact kept.breakDoctype _
  · exact kept.putDoctype
  · split
    · exact kept
    · split
      · exact onward.wordStep _ rfl
      · split
        · exact onward.wordStep _ rfl
        · exact onward.noWord

theorem afterWordStep {next : LexState} (known : next.isPlain = true) :
    Under (.plain text) [] (l.afterWordStep next) := by
  obtain ⟨c, m, read, onward, _⟩ := h.read
  have kept := onward.weaken
  simp only [Lexer.afterWordStep, read]
  repeat' split
  all_goals grind -linarith

theorem beforePublicIdStep : Under (.plain text) [] l.beforePublicIdStep := by
  obtain ⟨c, m, read, onward, _⟩ := h.read
  have kept := onward.weaken
  simp only [Lexer.beforePublicIdStep, read]
  repeat' split
  all_goals grind -linarith

theorem idStep (quote : Char) (add : Char → DoctypeDraft → DoctypeDraft) {next : LexState}
    (known : next.isPlain = true) : Under (.plain text) [] (Lexer.idStep quote add next l) := by
  obtain ⟨c, m, read, onward, _⟩ := h.read
  have kept := onward.weaken
  simp only [Lexer.idStep, read]
  repeat' split
  all_goals grind -linarith

theorem afterPublicIdStep : Under (.plain text) [] l.afterPublicIdStep := by
  obtain ⟨c, m, read, onward, _⟩ := h.read
  have kept := onward.weaken
  simp only [Lexer.afterPublicIdStep, read]
  repeat' split
  all_goals grind -linarith [= LexState.isPlain.eq_def]

theorem betweenIdsStep : Under (.plain text) [] l.betweenIdsStep := by
  obtain ⟨c, m, read, onward, _⟩ := h.read
  have kept := onward.weaken
  simp only [Lexer.betweenIdsStep, read]
  repeat' split
  all_goals grind -linarith

theorem beforeSystemIdStep : Under (.plain text) [] l.beforeSystemIdStep := by
  obtain ⟨c, m, read, onward, _⟩ := h.read
  have kept := onward.weaken
  simp only [Lexer.beforeSystemIdStep, read]
  repeat' split
  all_goals grind -linarith

theorem afterSystemIdStep : Under (.plain text) [] l.afterSystemIdStep := by
  obtain ⟨c, m, read, onward, _⟩ := h.read
  have kept := onward.weaken
  simp only [Lexer.afterSystemIdStep, read]
  repeat' split
  all_goals grind -linarith [= LexState.isPlain.eq_def]

theorem bogusDoctypeStep : Under (.plain text) [] l.bogusDoctypeStep := by
  obtain ⟨c, m, read, onward, _⟩ := h.read
  have kept := onward.weaken
  simp only [Lexer.bogusDoctypeStep, read]
  split <;> grind -linarith

end Doctypes

section Declarations

variable (h : Under (.plain text) [] l)

theorem noDeclaration {done : List (Option Char)}
    (h : Under (.plain text) (done.reverse.flatMap Option.toList) l) :
    Under (.plain text) [] (l.noDeclaration done) := by
  have held : Under (.plain text) ([] ++ done.reverse.flatMap Option.toList)
      (l.fault .expectedDashesOrDoctype) := h.fault _
  exact (unread_all done held).turn rfl

include h

theorem declarationStep (foreign : Bool) : Under (.plain text) [] (l.declarationStep foreign) := by
  obtain ⟨c, m, read, onward, _⟩ := h.read
  simp only [Lexer.declarationStep, read]
  split
  · obtain ⟨d, n, next, second, _⟩ := onward.read
    have kept := second.weaken
    simp only [next]
    split
    · exact ⟨kept.rest, kept.out, rfl, trivial⟩
    · apply noDeclaration
      simpa using second
  · split
    · obtain ⟨whole, d, others, n, word, further⟩ := onward.readWord Lexer.doctypeWord
      have kept := further.weaken
      simp only [word]
      split
      · exact ⟨kept.rest, kept.out, rfl, trivial⟩
      · exact further.noDeclaration
    · split
      · obtain ⟨whole, d, others, n, word, further⟩ := onward.readWord Lexer.cdataWord
        simp only [word]
        split
        · exact further.weaken.turn rfl
        · exact further.noDeclaration
      · apply noDeclaration
        simpa using onward

omit h in
theorem readSection (fuel : Nat) : ∀ {l : Lexer} (done : List Char), Under (.plain text) [] l →
    Under (.plain text) [] (l.readSection fuel done).2 := by
  induction fuel with
  | zero => exact fun _ h => h
  | succ fuel ih =>
      intro l done h
      obtain ⟨c, m, read, onward, _⟩ := ((h.readWhile (· ≠ ']')).readWhile (· ≠ '>')).read
      simp only [Lexer.readSection, read]
      split
      · exact onward.weaken
      · split
        · exact onward.weaken
        · exact ih _ onward.weaken

theorem cdataStep : Under (.plain text) [] l.cdataStep := by
  have faulted : ∀ (nuls : List Char) {m : Lexer}, Under (.plain text) [] m →
      Under (.plain text) [] (nuls.foldl (fun m _ => m.fault .invalidCodepoint) m) := by
    intro nuls
    induction nuls with
    | nil => exact fun kept => kept
    | cons c nuls ih => exact fun kept => ih (kept.fault _)
  have onward := fun nuls => faulted nuls (readSection (l.input.rest.length + 1) [] h)
  rw [Lexer.cdataStep]
  dsimp only
  split
  · exact (onward _).turn rfl
  · exact ((onward _).put rfl).turn rfl

end Declarations

end Under
end HtmlTree.Html
