import HtmlTree.Proofs.Html.Declaring

/-! Tags behind their names, and raw text. A tag keeps its name until it is put out or the text ends
within it; raw text ends at an end tag only. -/

namespace HtmlTree.Html

namespace LexState

def isInTag : LexState → Bool
  | .beforeAttrName | .attrName | .afterAttrName | .beforeAttrValue | .quotedValue _ | .bareValue
  | .afterAttrValue | .selfClosing => true
  | _ => false

def isRaw : LexState → Bool
  | .escapableText | .escapableReference | .rawText | .script | .rawLess _ | .rawEndTagOpen _
  | .rawEndTagName _ | .scriptEscapeStart | .scriptEscapeStartDash | .scriptEscaped
  | .scriptEscapedDash | .scriptEscapedDashDash | .scriptDoubleStart | .scriptDouble
  | .scriptDoubleDash | .scriptDoubleDashDash | .scriptDoubleLess | .scriptDoubleEnd => true
  | _ => false

end LexState

namespace Regime

def tag (text : List Char) (isEnd : Bool) (name : List Char) : Regime where
  text := text
  admits _ := false
  states := LexState.isInTag
  drafts d := ∃ t, d = .tag t ∧ t.isEnd = isEnd ∧ t.name = name

def raw (text : List Char) : Regime where
  text := text
  admits t := !t.isTag
  states := LexState.isRaw
  drafts _ := True

end Regime

structure Becomes (isEnd : Bool) (name : List Char) (t : Token) : Prop where
  ends : isEnd = true → ∃ written, t = .endTag written
  starts : isEnd = false → ∃ tag, t = .startTag tag ∧ tag.name = Lexer.lowerText name

/-- Where a tag leads: it goes on, the text ends, or it is put out. -/
inductive Tagged (text : List Char) (isEnd : Bool) (name : List Char) (l : Lexer) : Prop
  | on (h : Under (.tag text isEnd name) [] l)
  | broken (h : Under (.plain text) [] l) (state : l.state = .data) (ended : l.input.rest = [])
  | done (t : Token) (becomes : Becomes isEnd name t)
      (out : ∃ earlier, l.out = .token t :: earlier ∧ ∀ u, Item.token u ∉ earlier)
      (state : l.state = .data) (rest : l.input.rest <:+ text)

section Tags

variable {text held name : List Char} {isEnd : Bool} {l : Lexer}

theorem Lexer.endAttrName_goto (l : Lexer) (state : LexState) :
    (l.goto state).endAttrName = l.endAttrName.goto state ∧
      l.endAttrName.input.rest = l.input.rest := by
  obtain ⟨_, input, draft, buffer, out⟩ := l
  simp only [endAttrName, withAttr, withTag, goto]
  cases draft with
  | tag t =>
      rcases attrs : t.attrs with _ | ⟨a, earlier⟩
      · simp only [attrs, and_self]
      · simp only [attrs]
        split <;> exact ⟨rfl, rfl⟩
  | _ => exact ⟨rfl, rfl⟩

namespace Under

theorem withTag (h : Under (.tag text isEnd name) held l) {f : TagDraft → TagDraft}
    (kept : ∀ t, (f t).isEnd = t.isEnd ∧ (f t).name = t.name) :
    Under (.tag text isEnd name) held (l.withTag f) := by
  obtain ⟨t, draft, ends, named⟩ := h.draft
  rw [Lexer.withTag, draft]
  exact ⟨h.rest, h.out, h.state, f t, rfl, (kept t).1.trans ends, (kept t).2.trans named⟩

theorem withAttr (h : Under (.tag text isEnd name) held l) (f : AttrDraft → AttrDraft) :
    Under (.tag text isEnd name) held (l.withAttr f) := by
  apply h.withTag
  intro t
  split <;> exact ⟨rfl, rfl⟩

theorem beginAttr (h : Under (.tag text isEnd name) held l) (c : Char) :
    Under (.tag text isEnd name) held (l.beginAttr c) := by
  refine goto (h.withTag ?_) rfl
  exact fun _ => ⟨rfl, rfl⟩

theorem attrName (h : Under (.tag text isEnd name) held l) (more : List Char) :
    Under (.tag text isEnd name) held (l.attrName more) := h.withAttr _

theorem attrValue (h : Under (.tag text isEnd name) held l) (more : List Char) :
    Under (.tag text isEnd name) held (l.attrValue more) := h.withAttr _

theorem endAttrName (h : Under (.tag text isEnd name) held l) :
    Under (.tag text isEnd name) held l.endAttrName := by
  have lowered := h.withAttr fun a => { a with name := a.name.map Text.lower }
  rw [Lexer.endAttrName]
  repeat' split
  all_goals first
    | exact lowered
    | exact lowered.fault _

theorem valueReference (h : Under (.tag text isEnd name) [] l) (stop : Char) :
    Under (.tag text isEnd name) [] (l.valueReference stop) := (h.reference _ _).attrValue _

theorem within {state : LexState} (h : Under (.tag text isEnd name) held l)
    (known : state.isInTag = true) : Under (.tag text isEnd name) held (l.goto state) := h.goto known

attribute [grind ←] within beginAttr attrName attrValue endAttrName valueReference

theorem no_token (h : Under (.tag text isEnd name) held l) (t : Token) : Item.token t ∉ l.out :=
  fun inside => Bool.false_ne_true (h.out t inside)

theorem leave (h : Under (.tag text isEnd name) [] l) (ended : l.input.rest = []) :
    Tagged text isEnd name (l.goto .data) :=
  .broken ⟨h.rest, fun t inside => (h.no_token t inside).elim, rfl, trivial⟩ rfl ended

@[grind ←]
theorem broken (h : Under (.tag text isEnd name) [] l) (ended : l.input.rest = []) (f : Fault) :
    Tagged text isEnd name ((l.fault f).goto .data) := (h.fault f).leave ended

@[grind ←]
theorem putTag (h : Under (.tag text isEnd name) [] l) : Tagged text isEnd name l.putTag := by
  have earlier : ∀ u, Item.token u ∉ l.out := h.no_token
  obtain ⟨t, draft, rfl, rfl⟩ := h.draft
  rw [Lexer.putTag, draft]
  dsimp only
  split
  · next ends =>
    have becomes : Becomes t.isEnd t.name (.endTag (textOf (t.name.map Text.lower))) :=
      ⟨fun _ => ⟨_, rfl⟩, fun starts => absurd (starts.symm.trans ends) Bool.false_ne_true⟩
    -- An end tag may come with faults for what it should not have.
    repeat' split
    all_goals
      refine .done _ becomes ⟨_, rfl, fun u inside => earlier u ?_⟩ rfl h.rest
      simpa [Lexer.fault] using inside
  · next starts =>
    have becomes : Becomes t.isEnd t.name (.startTag ⟨textOf (t.name.map Text.lower),
        Lexer.finishAttrs t.attrs, t.selfClosing⟩) :=
      ⟨fun ends => (starts ends).elim, fun _ => ⟨_, rfl, rfl⟩⟩
    exact .done _ becomes ⟨_, rfl, earlier⟩ rfl h.rest

end Under

attribute [grind ←] Tagged.on

-- As for declarations, numbers do not come into these steps.

section Steps

variable (h : Under (.tag text isEnd name) [] l)
include h

theorem beforeAttrNameStep : Tagged text isEnd name l.beforeAttrNameStep := by
  obtain ⟨c, m, read, onward, ended⟩ := h.read
  have kept := onward.weaken
  simp only [Lexer.beforeAttrNameStep, read]
  repeat' split
  all_goals grind -linarith [= LexState.isInTag.eq_def]

theorem attrNameStep : Tagged text isEnd name l.attrNameStep := by
  obtain ⟨c, m, read, onward, ended⟩ := h.read
  have kept := onward.weaken
  simp only [Lexer.attrNameStep, read]
  split
  · obtain ⟨left, rest⟩ := (m.fault .eofInAttrName).endAttrName_goto .data
    rw [left]
    exact (kept.fault _).endAttrName.leave (rest.trans (ended rfl))
  all_goals
    repeat' split
    all_goals grind -linarith [= LexState.isInTag.eq_def]

theorem afterAttrNameStep : Tagged text isEnd name l.afterAttrNameStep := by
  obtain ⟨c, m, read, onward, ended⟩ := h.read
  have kept := onward.weaken
  simp only [Lexer.afterAttrNameStep, read]
  repeat' split
  all_goals grind -linarith [= LexState.isInTag.eq_def]

theorem beforeAttrValueStep : Tagged text isEnd name l.beforeAttrValueStep := by
  obtain ⟨c, m, read, onward, ended⟩ := h.read
  have kept := onward.weaken
  simp only [Lexer.beforeAttrValueStep, read]
  repeat' split
  all_goals grind -linarith [= LexState.isInTag.eq_def]

theorem quotedValueStep (quote : Char) : Tagged text isEnd name (l.quotedValueStep quote) := by
  obtain ⟨c, m, read, onward, ended⟩ := h.read
  have kept := onward.weaken
  simp only [Lexer.quotedValueStep, read]
  repeat' split
  all_goals grind -linarith [= LexState.isInTag.eq_def]

theorem bareValueStep : Tagged text isEnd name l.bareValueStep := by
  obtain ⟨c, m, read, onward, ended⟩ := h.read
  have kept := onward.weaken
  simp only [Lexer.bareValueStep, read]
  repeat' split
  all_goals grind -linarith [= LexState.isInTag.eq_def]

theorem afterAttrValueStep : Tagged text isEnd name l.afterAttrValueStep := by
  obtain ⟨c, m, read, onward, ended⟩ := h.read
  have kept := onward.weaken
  simp only [Lexer.afterAttrValueStep, read]
  repeat' split
  all_goals grind -linarith [= LexState.isInTag.eq_def]

theorem selfClosingStep : Tagged text isEnd name l.selfClosingStep := by
  obtain ⟨c, m, read, onward, ended⟩ := h.read
  have kept := onward.weaken
  simp only [Lexer.selfClosingStep, read]
  split
  · exact kept.broken (ended rfl) _
  · refine Under.putTag (kept.withTag ?_)
    exact fun _ => ⟨rfl, rfl⟩
  · exact .on ((onward.fault _).unread.within rfl)

end Steps

end Tags

/-- Where raw text leads: it goes on, the text ends, or an end tag begins. -/
inductive Rawed (text : List Char) (l : Lexer) : Prop
  | on (h : Under (.raw text) [] l)
  | spent (h : Under (.plain text) [] l) (state : l.state = .data) (ended : l.input.rest = [])
  | closing (name : List Char) (h : Tagged text true name l)

theorem isRaw_home (kind : RawKind) : (Lexer.RawKind.home kind).isRaw = true := by
  cases kind <;> rfl

section Raw

variable {text held : List Char} {l next : Lexer} {c : Option Char}

namespace Under

theorem stay {state : LexState} (h : Under (.raw text) held l) (known : state.isRaw = true) :
    Under (.raw text) held (l.goto state) := h.goto known

theorem rawCharacters (h : Under (.raw text) held l) (data : List Char) :
    Under (.raw text) held (l.characters data) := h.put rfl

theorem rawSpaces (h : Under (.raw text) held l) (data : List Char) :
    Under (.raw text) held (l.spaces data) := h.put rfl

theorem rawNul (h : Under (.raw text) held l) : Under (.raw text) held l.nul :=
  (h.fault _).rawCharacters _

theorem rebuffer (h : Under (.raw text) held l) (buffer : List Char) {state : LexState}
    (known : state.isRaw = true) : Under (.raw text) held { l with buffer, state } :=
  ⟨h.rest, h.out, known, trivial⟩

theorem backToRaw (h : Under (.raw text) c.toList l) (kind : RawKind) (data : List Char) :
    Under (.raw text) [] (l.backToRaw kind data c) :=
  (h.rawCharacters data).unread.stay (isRaw_home kind)

theorem spent (h : Under (.raw text) [] l) (ended : l.input.rest = []) : Rawed text (l.goto .data) :=
  .spent ⟨h.rest, h.out, rfl, trivial⟩ rfl ended

theorem spentWith (h : Under (.raw text) [] l) (ended : l.input.rest = []) (f : Fault) :
    Rawed text ((l.fault f).goto .data) := (h.fault f).spent ended

theorem beginEnd (h : Under (.raw text) [] l) (quiet : ∀ t, Item.token t ∉ l.out)
    (name : List Char) (state : LexState) (known : state.isInTag = true) :
    Under (.tag text true name) [] ((l.beginTag true name).goto state) :=
  ⟨h.rest, fun t inside => (quiet t inside).elim, known, _, rfl, rfl, rfl⟩

attribute [grind ←] stay rawCharacters rawSpaces rawNul backToRaw spent spentWith

end Under

attribute [grind ←] Rawed.on

section Steps

variable (h : Under (.raw text) [] l)
include h

theorem Under.rawTextRun (c : Char) : Under (.raw text) [] (l.textRun c) := by
  simp only [Lexer.textRun]
  split <;> grind -linarith

theorem escapableStep (stepped : l.escapableStep = some next) : Rawed text next := by
  obtain ⟨c, m, read, onward, _⟩ := h.read
  have kept := onward.weaken
  simp only [Lexer.escapableStep, read] at stepped
  split at stepped <;> cases stepped
  · exact .on (kept.stay rfl)
  · exact .on (kept.stay rfl)
  · exact .on kept.rawNul
  · exact .on (kept.rawTextRun _)

theorem textReference {state : LexState} (known : state.isRaw = true) :
    Rawed text (l.textReference state) := by
  have passed := h.reference none false
  simp only [Lexer.textReference]
  repeat' split
  all_goals grind -linarith

theorem rawStep (kind : RawKind) (stepped : l.rawStep kind = some next) : Rawed text next := by
  obtain ⟨c, m, read, onward, _⟩ := h.read
  have kept := onward.weaken
  simp only [Lexer.rawStep, read] at stepped
  split at stepped <;> cases stepped
  · exact .on (kept.stay rfl)
  · exact .on kept.rawNul
  · exact .on ((kept.readWhile _).rawCharacters _)

theorem rawLessStep (kind : RawKind) : Rawed text (l.rawLessStep kind) := by
  obtain ⟨c, m, read, onward, _⟩ := h.read
  have kept := onward.weaken
  simp only [Lexer.rawLessStep, read]
  split
  · exact .on (kept.rebuffer _ rfl)
  · split
    · exact .on ((kept.rawCharacters _).stay rfl)
    · split
      · split
        · exact .on ((kept.rawCharacters _).rebuffer _ rfl)
        · exact .on (onward.backToRaw _ _)
      · exact .on (onward.backToRaw _ _)

theorem rawEndTagOpenStep (kind : RawKind) : Rawed text (l.rawEndTagOpenStep kind) := by
  obtain ⟨c, m, read, onward, _⟩ := h.read
  simp only [Lexer.rawEndTagOpenStep, read]
  split
  · exact .on (onward.weaken.rebuffer _ rfl)
  · exact .on (onward.backToRaw _ _)

theorem rawEndTagNameStep (quiet : l.out = []) (kind : RawKind) (state : l.state = .rawEndTagName kind) :
    Rawed text (l.rawEndTagNameStep kind) := by
  obtain ⟨c, m, read, onward, _⟩ := h.read
  have kept := onward.weaken
  have same : m.out = [] ∧ m.state = .rawEndTagName kind := by
    rw [Lexer.read] at read
    cases read
    exact ⟨quiet, state⟩
  have none : ∀ t, Item.token t ∉ m.out := by
    rw [same.1]
    exact fun _ absurd => by cases absurd
  simp only [Lexer.rawEndTagNameStep, read]
  split
  · exact .on (onward.backToRaw _ _)
  · split
    · exact .closing _ (.on (kept.beginEnd none _ _ rfl))
    · split
      · exact .closing _ (.on (kept.beginEnd none _ _ rfl))
      · split
        · have begun := kept.beginEnd none m.buffer .beforeAttrName rfl
          exact .closing _ (begun.putTag)
        · split
          · exact .on ⟨kept.rest, kept.out, kept.state, trivial⟩
          · exact .on (onward.backToRaw _ _)

theorem escapeStartStep {state : LexState} (known : state.isRaw = true) :
    Rawed text (l.escapeStartStep state) := by
  obtain ⟨c, m, read, onward, _⟩ := h.read
  have kept := onward.weaken
  simp only [Lexer.escapeStartStep, read]
  split
  · exact .on ((kept.rawCharacters _).stay known)
  · exact .on (onward.unread.stay rfl)

theorem escapedStep : Rawed text l.escapedStep := by
  obtain ⟨c, m, read, onward, ended⟩ := h.read
  have kept := onward.weaken
  simp only [Lexer.escapedStep, read]
  split <;> grind -linarith [= LexState.isRaw.eq_def]

theorem escapedDashStep (two : Bool) : Rawed text (l.escapedDashStep two) := by
  obtain ⟨c, m, read, onward, ended⟩ := h.read
  have kept := onward.weaken
  simp only [Lexer.escapedDashStep, read]
  split <;> grind -linarith [= LexState.isRaw.eq_def]

theorem scriptWordStep {ifScript otherwise : LexState} (known : ifScript.isRaw = true)
    (other : otherwise.isRaw = true) : Rawed text (l.scriptWordStep ifScript otherwise) := by
  obtain ⟨c, m, read, onward, _⟩ := h.read
  have kept := onward.weaken
  simp only [Lexer.scriptWordStep, read]
  split
  · exact .on (kept.stay other)
  · split
    · refine .on ((kept.rawCharacters _).stay ?_)
      split
      · exact known
      · exact other
    · split
      · next d _ _ _ =>
        have put := kept.rawCharacters [d]
        exact .on ⟨put.rest, put.out, put.state, trivial⟩
      · exact .on (onward.unread.stay other)

theorem doubleStep : Rawed text l.doubleStep := by
  obtain ⟨c, m, read, onward, ended⟩ := h.read
  have kept := onward.weaken
  simp only [Lexer.doubleStep, read]
  split <;> grind -linarith [= LexState.isRaw.eq_def]

theorem doubleDashStep (two : Bool) : Rawed text (l.doubleDashStep two) := by
  obtain ⟨c, m, read, onward, ended⟩ := h.read
  have kept := onward.weaken
  simp only [Lexer.doubleDashStep, read]
  split <;> grind -linarith [= LexState.isRaw.eq_def]

theorem doubleLessStep : Rawed text l.doubleLessStep := by
  obtain ⟨c, m, read, onward, _⟩ := h.read
  have kept := onward.weaken
  simp only [Lexer.doubleLessStep, read]
  split
  · exact .on ((kept.rawCharacters _).rebuffer _ rfl)
  · exact .on (onward.unread.stay rfl)

end Steps

end Raw

end HtmlTree.Html
