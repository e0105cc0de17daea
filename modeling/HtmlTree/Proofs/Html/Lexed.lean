import HtmlTree.Proofs.Html.BodySteps
import HtmlTree.Proofs.Html.Tagging

/-! The lexer from round to round. A start tag is put out alone, and its name stands in the text
behind an angle bracket; none is put out in raw text, which only an end tag ends. -/

namespace HtmlTree.Html

open Text (lower isLetter isSpace)

namespace Regime

def any (text : List Char) : Regime where
  text := text
  admits t := !t.isTag
  states _ := true
  drafts _ := True

end Regime

def shown (c : Char) : Char := if c = '\x00' then Lexer.lost else c

theorem shown_of_ne {c : Char} (other : c ≠ '\x00') : shown c = c := if_neg other

/-- A name, last character first, is what stands behind an angle bracket. -/
def Opened (text name : List Char) : Prop :=
  ∃ written, '<' :: written <:+: text ∧ name.reverse = written.map shown

/-- What was read of a start tag is the bracket and its name so far. -/
def Begins (held : List Char) (t : TagDraft) : Prop :=
  t.isEnd = true ∨ ∃ written, held = '<' :: written ∧ t.name.reverse = written.map shown

theorem Begins.longer {held : List Char} {t : TagDraft} (begun : Begins held t) (c : Char) :
    Begins (held ++ [c]) { t with name := shown c :: t.name } := by
  rcases begun with ends | ⟨written, before, named⟩
  · exact Or.inl ends
  · refine Or.inr ⟨written ++ [c], ?_, ?_⟩
    · rw [before]
      rfl
    · rw [List.reverse_cons, List.map_append, named]
      rfl

/-- Where the lexer is between two rounds. -/
inductive Lexed (text : List Char) (l : Lexer) : Prop
  | plain (h : Under (.plain text) [] l)
  | bracket (h : Under (.any text) ['<'] l) (state : l.state = .tagOpen)
  | solidus (h : Under (.any text) [] l) (state : l.state = .endTagOpen)
  | name {held : List Char} (h : Under (.any text) held l) (t : TagDraft) (state : l.state = .tagName)
      (draft : l.draft = .tag t) (begun : Begins held t)
  | tag {isEnd : Bool} {name : List Char} (h : Under (.tag text isEnd name) [] l)
      (opened : isEnd = true ∨ Opened text name)
  | raw (h : Under (.raw text) [] l)

def Item.token? : Item → Option Token
  | token t => some t
  | fault _ => none

/-- What is put out in one round holds no start tag, or else one and no other token. -/
def Emits (text : List Char) (out : List Item) : Prop :=
  (∀ tag, Item.token (.startTag tag) ∉ out) ∨
    ∃ tag name, out.filterMap Item.token? = [.startTag tag] ∧ tag.name = Lexer.lowerText name ∧
      Opened text name

/-- What one round comes to. -/
structure Yields (text : List Char) (l : Lexer) : Prop where
  lexed : Lexed text l.drain.2
  emits : Emits text l.out

section Rounds

variable {text held name : List Char} {isEnd : Bool} {l next : Lexer} {c : Option Char}

namespace Under

theorem clear {g : Regime} (h : Under g held l) : Under g held l.drain.2 :=
  ⟨h.rest, (fun _ absurd => by cases absurd), h.state, h.draft⟩

theorem no_start {g : Regime} (h : Under g held l) (quiet : ∀ t, g.admits t = true → t.isTag = false)
    (tag : Tag) : Item.token (.startTag tag) ∉ l.out := by
  intro inside
  have absurd := quiet _ (h.out _ inside)
  cases absurd

theorem no_start_any (h : Under (.any text) held l) (tag : Tag) : Item.token (.startTag tag) ∉ l.out :=
  h.no_start (fun t admitted => by simpa [Regime.any] using admitted) tag

theorem any_of_plain (h : Under (.plain text) held l) : Under (.any text) held l :=
  ⟨h.rest, h.out, rfl, trivial⟩

theorem any_of_raw (h : Under (.raw text) held l) : Under (.any text) held l :=
  ⟨h.rest, h.out, rfl, trivial⟩

theorem any_of_tag (h : Under (.tag text isEnd name) held l) : Under (.any text) held l :=
  ⟨h.rest, fun t inside => (h.no_token t inside).elim, rfl, trivial⟩

theorem plain_of_any (h : Under (.any text) held l) {state : LexState} (known : state.isPlain = true) :
    Under (.plain text) held (l.goto state) :=
  ⟨h.rest, h.out, known, trivial⟩

theorem yields_plain (h : Under (.plain text) [] l) : Yields text l :=
  ⟨.plain h.clear, Or.inl h.any_of_plain.no_start_any⟩

end Under

theorem Tagged.yields (h : Tagged text isEnd name l) (opened : isEnd = true ∨ Opened text name) :
    Yields text l := by
  cases h with
  | on h => exact ⟨.tag h.clear opened, Or.inl h.any_of_tag.no_start_any⟩
  | broken h => exact h.yields_plain
  | done t becomes out state rest =>
      obtain ⟨earlier, out, none⟩ := out
      constructor
      case lexed =>
        refine .plain ⟨rest, (fun _ absurd => by cases absurd), ?_, trivial⟩
        change l.state.isPlain = true
        rw [state]
        rfl
      case emits =>
        rw [out]
        cases isEnd with
        | true =>
            left
            obtain ⟨written, rfl⟩ := becomes.ends rfl
            intro tag inside
            rcases List.mem_cons.mp inside with same | inside
            · cases same
            · exact none _ inside
        | false =>
            right
            obtain ⟨tag, rfl, named⟩ := becomes.starts rfl
            have silent : earlier.filterMap Item.token? = [] := by
              rw [List.filterMap_eq_nil_iff]
              intro item inside
              cases item with
              | token t => exact (none t inside).elim
              | fault f => rfl
            refine ⟨tag, name, ?_, named, opened.resolve_left Bool.false_ne_true⟩
            rw [List.filterMap_cons, silent]
            rfl

theorem Rawed.yields (h : Rawed text l) : Yields text l := by
  cases h with
  | on h => exact ⟨.raw h.clear, Or.inl h.any_of_raw.no_start_any⟩
  | spent h => exact h.yields_plain
  | closing name h => exact h.yields (Or.inl rfl)

namespace Under

theorem step_tag {foreign : Bool} (h : Under (.tag text isEnd name) [] l)
    (stepped : l.step foreign = some next) : Tagged text isEnd name next := by
  have state : l.state.isInTag = true := h.state
  rw [Lexer.step] at stepped
  split at stepped
  all_goals try (next here => rw [here] at state; cases state)
  all_goals cases stepped
  · exact beforeAttrNameStep h
  · exact attrNameStep h
  · exact afterAttrNameStep h
  · exact beforeAttrValueStep h
  · exact quotedValueStep h _
  · exact bareValueStep h
  · exact afterAttrValueStep h
  · exact selfClosingStep h

theorem step_raw {foreign : Bool} (h : Under (.raw text) [] l) (quiet : l.out = [])
    (stepped : l.step foreign = some next) : Rawed text next := by
  have state : l.state.isRaw = true := h.state
  rw [Lexer.step] at stepped
  split at stepped
  all_goals try (next here => rw [here] at state; cases state)
  · exact escapableStep h stepped
  · cases stepped
    exact textReference h rfl
  · exact rawStep h _ stepped
  · exact rawStep h _ stepped
  all_goals cases stepped
  · exact rawLessStep h _
  · exact rawEndTagOpenStep h _
  · next here => exact rawEndTagNameStep h quiet _ here
  · exact escapeStartStep h rfl
  · exact escapeStartStep h rfl
  · exact escapedStep h
  · exact escapedDashStep h _
  · exact escapedDashStep h _
  · exact scriptWordStep h rfl rfl
  · exact doubleStep h
  · exact doubleDashStep h _
  · exact doubleDashStep h _
  · exact doubleLessStep h
  · exact scriptWordStep h rfl rfl

section Text

variable (h : Under (.plain text) [] l)
include h

theorem characters (data : List Char) : Under (.plain text) [] (l.characters data) := h.put rfl

theorem textRun (c : Char) : Under (.plain text) [] (l.textRun c) := by
  simp only [Lexer.textRun]
  split
  · exact (h.readWhile _).put rfl
  · exact (h.readWhile _).put rfl

theorem dataStep (stepped : l.dataStep = some next) : Yields text next := by
  obtain ⟨c, m, read, onward, _⟩ := h.read
  have kept := onward.weaken
  simp only [Lexer.dataStep, read] at stepped
  split at stepped <;> cases stepped
  · exact (kept.turn rfl).yields_plain
  · have bracket : Under (.any text) ['<'] (m.goto .tagOpen) :=
      ⟨onward.rest, onward.out, rfl, trivial⟩
    exact ⟨.bracket bracket.clear rfl, Or.inl bracket.no_start_any⟩
  · exact ((kept.fault _).characters _).yields_plain
  · exact (kept.textRun _).yields_plain

theorem dataReferenceStep : Yields text (l.textReference .data) := by
  have passed := h.reference none false
  simp only [Lexer.textReference]
  repeat' split
  · exact ((passed.put rfl).turn rfl).yields_plain
  · exact ((passed.put rfl).turn rfl).yields_plain
  · exact ((passed.put rfl).turn rfl).yields_plain

theorem plaintextStep (stepped : l.plaintextStep = some next) : Yields text next := by
  obtain ⟨c, m, read, onward, _⟩ := h.read
  have kept := onward.weaken
  simp only [Lexer.plaintextStep, read] at stepped
  split at stepped <;> cases stepped
  · exact ((kept.fault _).characters _).yields_plain
  · exact ((kept.readWhile _).characters _).yields_plain

theorem step_plain {foreign : Bool} (stepped : l.step foreign = some next) : Yields text next := by
  have state : l.state.isPlain = true := h.state
  rw [Lexer.step] at stepped
  split at stepped
  all_goals try (next here => rw [here] at state; cases state)
  · exact h.dataStep stepped
  · cases stepped
    exact h.dataReferenceStep
  · exact h.plaintextStep stepped
  all_goals
    cases stepped
    apply yields_plain
  · exact h.bogusCommentStep
  · exact h.declarationStep foreign
  · exact h.commentStartStep
  · exact h.commentStartDashStep
  · exact h.commentStep
  · exact h.commentEndDashStep
  · exact h.commentEndStep
  · exact h.commentEndBangStep
  · exact h.doctypeStep
  · exact h.beforeDoctypeNameStep
  · exact h.doctypeNameStep
  · exact h.afterDoctypeNameStep
  · exact h.afterWordStep rfl
  · exact h.beforePublicIdStep
  · exact h.idStep _ _ rfl
  · exact h.afterPublicIdStep
  · exact h.betweenIdsStep
  · exact h.afterWordStep rfl
  · exact h.beforeSystemIdStep
  · exact h.idStep _ _ rfl
  · exact h.afterSystemIdStep
  · exact h.bogusDoctypeStep
  · exact h.cdataStep

end Text

theorem tagOpenStep (h : Under (.any text) ['<'] l) : Yields text l.tagOpenStep := by
  obtain ⟨c, m, read, onward, _⟩ := h.read
  have kept := onward.weaken
  simp only [Lexer.tagOpenStep, read]
  split
  · exact (kept.plain_of_any rfl).yields_plain
  · have solidus : Under (.any text) [] (m.goto .endTagOpen) := kept.goto rfl
    exact ⟨.solidus solidus.clear rfl, Or.inl solidus.no_start_any⟩
  · exact (((kept.fault _).put rfl).plain_of_any rfl).yields_plain
  · exact ((((onward.fault _).unread).weaken).plain_of_any rfl).yields_plain
  · split
    · next d found =>
      obtain ⟨rfl, letter⟩ := Option.filter_eq_some_iff.mp found
      have other : d ≠ '\x00' := by
        rintro rfl
        cases letter
      have begun : Under (.any text) ['<', d] ((m.beginTag false [d]).goto .tagName) :=
        ⟨onward.rest, onward.out, rfl, trivial⟩
      refine ⟨.name begun.clear _ rfl rfl (Or.inr ⟨[d], rfl, ?_⟩), Or.inl begun.no_start_any⟩
      exact congrArg (fun c => [c]) (shown_of_ne other).symm
    · exact (((((onward.fault _).put rfl).unread).weaken).plain_of_any rfl).yields_plain

theorem endTagOpenStep (h : Under (.any text) [] l) : Yields text l.endTagOpenStep := by
  obtain ⟨c, m, read, onward, _⟩ := h.read
  have kept := onward.weaken
  simp only [Lexer.endTagOpenStep, read]
  split
  · exact (((kept.fault _).put rfl).plain_of_any rfl).yields_plain
  · exact ((kept.fault _).plain_of_any rfl).yields_plain
  · split
    · next d _ _ _ =>
      have begun : Under (.any text) [] ((m.beginTag true [d]).goto .tagName) :=
        ⟨kept.rest, kept.out, rfl, trivial⟩
      exact ⟨.name begun.clear _ rfl rfl (Or.inl rfl), Or.inl begun.no_start_any⟩
    · exact ((onward.fault _).unread.plain_of_any rfl).yields_plain

theorem putTag_goto (l : Lexer) (state : LexState) : (l.goto state).putTag = l.putTag := by
  simp only [Lexer.putTag, Lexer.goto]

theorem tag_of_name {t : TagDraft} (h : Under (.any text) held l) (quiet : l.out = [])
    (draft : l.draft = .tag t) {state : LexState} (known : state.isInTag = true) :
    Under (.tag text t.isEnd t.name) [] (l.goto state) := by
  refine ⟨h.weaken.rest, fun u inside => ?_, known, t, draft, rfl, rfl⟩
  have inside : Item.token u ∈ l.out := inside
  rw [quiet] at inside
  cases inside

theorem nameChar {t : TagDraft} {c : Char} (h : Under (.any text) (held ++ [c]) l)
    (state : l.state = .tagName) (draft : l.draft = .tag t) (begun : Begins held t) :
    Yields text (l.nameChar (shown c)) := by
  have shape : l.nameChar (shown c) = { l with draft := .tag { t with name := shown c :: t.name } } := by
    rw [Lexer.nameChar, Lexer.withTag, draft]
  have named : Under (.any text) (held ++ [c]) (l.nameChar (shown c)) := by
    rw [shape]
    exact ⟨h.rest, h.out, rfl, trivial⟩
  refine ⟨.name named.clear { t with name := shown c :: t.name } ?_ ?_ (begun.longer c),
    Or.inl named.no_start_any⟩
  · rw [shape]
    exact state
  · rw [shape]
    rfl

theorem tagNameStep (h : Under (.any text) held l) (quiet : l.out = []) {t : TagDraft}
    (state : l.state = .tagName) (draft : l.draft = .tag t) (begun : Begins held t) :
    Yields text l.tagNameStep := by
  obtain ⟨c, m, read, onward, _⟩ := h.read
  have kept := onward.weaken
  obtain ⟨quiet, state, draft⟩ : m.out = [] ∧ m.state = .tagName ∧ m.draft = .tag t := by
    rw [Lexer.read] at read
    cases read
    exact ⟨quiet, state, draft⟩
  have opened : t.isEnd = true ∨ Opened text t.name := by
    rcases begun with ends | ⟨written, before, named⟩
    · exact Or.inl ends
    · refine Or.inr ⟨written, ?_, named⟩
      rw [← before]
      exact (List.prefix_append held l.input.rest).isInfix.trans h.rest.isInfix
  have behind : ∀ {state : LexState}, state.isInTag = true → Yields text (m.goto state) :=
    fun known => (Tagged.on (kept.tag_of_name quiet draft known)).yields opened
  simp only [Lexer.tagNameStep, read]
  split
  · exact ((kept.fault _).plain_of_any rfl).yields_plain
  · rw [← putTag_goto m .beforeAttrName]
    exact (kept.tag_of_name quiet draft rfl).putTag.yields opened
  · exact behind rfl
  · exact (onward.fault _).nameChar state draft begun
  · split
    · exact behind rfl
    · next d _ _ other _ _ =>
      rw [← shown_of_ne other]
      exact onward.nameChar state draft begun

end Under

/-- Each round leads to where the next one can begin. -/
theorem Lexed.step {foreign : Bool} (h : Lexed text l) (quiet : l.out = [])
    (stepped : l.step foreign = some next) : Yields text next := by
  cases h with
  | plain h => exact h.step_plain stepped
  | bracket h state =>
      rw [Lexer.step, state] at stepped
      cases stepped
      exact h.tagOpenStep
  | solidus h state =>
      rw [Lexer.step, state] at stepped
      cases stepped
      exact h.endTagOpenStep
  | name h t state draft begun =>
      rw [Lexer.step, state] at stepped
      cases stepped
      exact h.tagNameStep quiet state draft begun
  | tag h opened => exact (h.step_tag stepped).yields opened
  | raw h => exact (h.step_raw quiet stepped).yields

theorem Lexed.rest (h : Lexed text l) : l.input.rest <:+ text := by
  cases h with
  | plain h => exact h.rest
  | bracket h _ => exact h.weaken.rest
  | solidus h _ => exact h.rest
  | name h _ _ _ _ => exact h.weaken.rest
  | tag h _ => exact h.rest
  | raw h => exact h.rest

/-- The lexer is in raw text, in its end tag, or at the end of the text behind that. -/
inductive Confined (text : List Char) (l : Lexer) : Prop
  | raw (h : Under (.raw text) [] l)
  | closing {name : List Char} (h : Under (.tag text true name) [] l)
  | spent (state : l.state = .data) (ended : l.input.rest = [])

theorem Lexed.goto (h : Lexed text l) (quiet : l.out = []) (kind : TextKind) :
    Lexed text (l.goto kind.state) ∧ (kind.isVerbatim = true → Confined text (l.goto kind.state)) := by
  have none : ∀ {t} {p : Prop}, Item.token t ∈ l.out → p := by
    rw [quiet]
    exact fun absurd => by cases absurd
  have raw : kind.state.isRaw = true → Under (.raw text) [] (l.goto kind.state) := fun known =>
    ⟨h.rest, fun _ inside => none inside, known, trivial⟩
  have plain : kind.state.isPlain = true → Under (.plain text) [] (l.goto kind.state) := fun known =>
    ⟨h.rest, fun _ inside => none inside, known, trivial⟩
  cases kind with
  | plaintext => exact ⟨.plain (plain rfl), fun absurd => by cases absurd⟩
  | _ => exact ⟨.raw (raw rfl), fun _ => .raw (raw rfl)⟩

theorem Tagged.confined (h : Tagged text true name l) :
    (∀ tag, Item.token (.startTag tag) ∉ l.out) ∧
      (Confined text l.drain.2 ∨ ∃ written, Item.token (.endTag written) ∈ l.out) := by
  cases h with
  | on h => exact ⟨h.any_of_tag.no_start_any, Or.inl (.closing h.clear)⟩
  | broken h state ended => exact ⟨h.any_of_plain.no_start_any, Or.inl (.spent state ended)⟩
  | done t becomes out _ _ =>
      obtain ⟨earlier, out, none⟩ := out
      obtain ⟨written, rfl⟩ := becomes.ends rfl
      rw [out]
      refine ⟨fun tag inside => ?_, Or.inr ⟨written, List.mem_cons_self⟩⟩
      rcases List.mem_cons.mp inside with same | inside
      · cases same
      · exact none _ inside

/-- Raw text has no start tags, and it goes on unless an end tag is put out. -/
theorem Confined.step {foreign : Bool} (h : Confined text l) (quiet : l.out = [])
    (stepped : l.step foreign = some next) : (∀ tag, Item.token (.startTag tag) ∉ next.out) ∧
      (Confined text next.drain.2 ∨ ∃ written, Item.token (.endTag written) ∈ next.out) := by
  cases h with
  | raw h =>
      cases h.step_raw quiet stepped with
      | on h => exact ⟨h.any_of_raw.no_start_any, Or.inl (.raw h.clear)⟩
      | spent h state ended => exact ⟨h.any_of_plain.no_start_any, Or.inl (.spent state ended)⟩
      | closing name h => exact h.confined
  | closing h => exact (h.step_tag stepped).confined
  | spent state ended =>
      rw [Lexer.step, state] at stepped
      simp only [Lexer.dataStep, Lexer.read, Input.read_of_end ended] at stepped
      cases stepped

end Rounds

end HtmlTree.Html
