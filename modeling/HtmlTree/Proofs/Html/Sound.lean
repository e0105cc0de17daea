import HtmlTree.Proofs.Html.Framing
import HtmlTree.Proofs.Html.Stages

/-! Construction does not break down, from its first token to the end of the text, if nothing opens
foreign content and there are no start tags in raw text. Where raw text begins, the lexer is told. -/

namespace HtmlTree.Html

variable {k : Anchors} {b c : Builder}

theorem seated_body {body root : Open} (bodyName : body.name = "body") (rootName : root.name = "html") :
    Seated [body, root] := by
  have onRoot : Fits "body" [root] := by
    constructor
    case root => exact fun other => absurd other (by decide)
    case body => exact fun _ => congrArg (fun name => [name]) rootName
    case tight => exact fun _ absurd => by cases absurd
    case loose => exact fun _ absurd => by cases absurd
  have outermost : Fits "html" [] := by
    constructor
    case root => exact fun _ => rfl
    case body => exact fun other => absurd other (by decide)
    case tight => exact fun _ absurd => by cases absurd
    case loose => exact fun _ absurd => by cases absurd
  rw [Seated, Seated, Seated, bodyName, rootName]
  exact ⟨onRoot, outermost, trivial⟩

theorem Fresh.fit (h : Fresh b) (rooted : Rooted k b) (alive : b.collapse = none) : Fit b := by
  obtain ⟨body, rest, shape⟩ := List.exists_cons_of_ne_nil rooted.stack_ne
  have names := h.names
  rw [shape, List.map_cons, List.cons.injEq, List.map_eq_singleton_iff] at names
  obtain ⟨bodyName, root, rfl, rootName⟩ := names
  have plain : ∀ o ∈ b.stack, o.name ≠ "table" := by
    rw [shape, List.forall_mem_cons, List.forall_mem_singleton, bodyName, rootName]
    decide
  have ordered : Ordered b := by
    constructor
    case seated => exact shape ▸ seated_body bodyName rootName
    case html => exact h.html
    case named => exact rooted.named
    case tables => exact fun o inside table => (plain o inside table).elim
    case formatting =>
      rw [h.unformatted]
      exact fun _ absurd => by cases absurd
    case form =>
      rw [h.formless]
      exact fun _ absurd => by cases absurd
    case context => exact rooted.context
    case standard => exact rooted.standard
  apply fit_of_isWide ordered alive
  · rw [h.mode]
    rfl
  · rw [h.mode, shape, seat_cons_of (by rw [Open.isSeat, bodyName]; decide), bodyName]
    decide

namespace Builder

theorem collapse_ordinary (mode : b.mode = .text) {t : Token} (other : ∀ tag, t ≠ .startTag tag) :
    (b.ordinary t).collapse = b.collapse := by
  cases t with
  | startTag tag => exact (other tag rfl).elim
  | endTag name => rw [ordinary, endTag, mode]; rfl
  | characters text => rw [ordinary, characters, mode]; exact b.collapse_insertText text
  | spaces text => rw [ordinary, spaces, mode]; exact b.collapse_insertText text
  | comment data => rw [ordinary, comment, mode]; rfl
  | doctype d => rw [ordinary, doctype, mode]; exact b.collapse_report _

theorem lexerState_ordinary (mode : b.mode = .text) {t : Token} (other : ∀ tag, t ≠ .startTag tag) :
    (b.ordinary t).lexerState = b.lexerState := by
  have inserted : ∀ text, (b.insertText text).lexerState = b.lexerState := fun text => by
    obtain ⟨a, shape, _⟩ := b.exists_insertText text
    rw [shape]
  cases t with
  | startTag tag => exact (other tag rfl).elim
  | endTag name => rw [ordinary, endTag, mode]; rfl
  | characters text => rw [ordinary, characters, mode]; exact inserted text
  | spaces text => rw [ordinary, spaces, mode]; exact inserted text
  | comment data => rw [ordinary, comment, mode]; rfl
  | doctype d =>
      rw [ordinary, doctype, mode]
      change (b.report _).lexerState = b.lexerState
      rw [report]
      split <;> rfl

/-- Raw text is read as such after a token: it begins, and the lexer is told, or it goes on. -/
def Heeds (b : Builder) (t : Token) (c : Builder) : Prop :=
  c.Tells ∨ b.mode = .text ∧ c.lexerState = b.lexerState ∧ ∀ name, t ≠ .endTag name

theorem tells_of_ne (other : b.mode ≠ .text) : b.Tells := fun text => (other text).elim

end Builder

namespace InRawText

variable (h : InRawText b)
include h

theorem rebuild {a : Arena} (keeps : Arena.Keeps b.arena a) : InRawText { b with arena := a } :=
  ⟨h.mode, h.space, h.back.rebuild keeps⟩

theorem consume (t : Token) : b.consume t = b.ordinary t := by
  rw [Builder.consume, if_neg fun foreign => Builder.space_of_isForeign foreign h.space]

theorem report (f : Fault) : InRawText (b.report f) := by
  rw [Builder.report]
  split
  · exact h
  · exact h.adjust rfl rfl rfl rfl rfl

theorem ordinary {t : Token} (other : ∀ tag, t ≠ .startTag tag) :
    Settled (b.ordinary t) ∨ InRawText (b.ordinary t) ∧ ∀ name, t ≠ .endTag name := by
  have inserted : ∀ text, InRawText (b.insertText text) := by
    intro text
    obtain ⟨a, shape, keeps⟩ := b.exists_insertText text
    rw [shape]
    exact h.rebuild keeps
  cases t with
  | startTag tag => exact (other tag rfl).elim
  | endTag name =>
      rw [Builder.ordinary, Builder.endTag, h.mode]
      exact Or.inl h.back
  | characters text =>
      rw [Builder.ordinary, Builder.characters, h.mode]
      exact Or.inr ⟨inserted text, fun _ absurd => by cases absurd⟩
  | spaces text =>
      rw [Builder.ordinary, Builder.spaces, h.mode]
      exact Or.inr ⟨inserted text, fun _ absurd => by cases absurd⟩
  | comment data =>
      rw [Builder.ordinary, Builder.comment, h.mode]
      exact Or.inr ⟨h.rebuild ((Arena.keeps_make ..).trans (Arena.moved_append ..).keeps),
        fun _ absurd => by cases absurd⟩
  | doctype d =>
      rw [Builder.ordinary, Builder.doctype, h.mode]
      exact Or.inr ⟨h.report _, fun _ absurd => by cases absurd⟩

theorem finishMode : Settled b.finishMode := by
  have back := (h.report (.eofForEndTag b.current.name)).back
  have same : (b.report (.eofForEndTag b.current.name)).textReturn = b.textReturn := by
    rw [Builder.report]
    split <;> rfl
  rw [same] at back
  rw [Builder.finishMode, h.mode]
  exact back.adjust rfl rfl rfl rfl

end InRawText

/-- How far construction is, which has not broken down. -/
inductive Sound (b : Builder) : Prop
  | blank (h : Blank b) (alive : b.collapse = none)
  | early {k : Anchors} (h : Early k b) (alive : b.collapse = none)
  | raw {k : Anchors} (h : InRaw k (Early k) b) (once : b.again = false) (alive : b.collapse = none)
  | settled (h : Settled b)
  | inRawText (h : InRawText b) (once : b.again = false)

theorem Stage.sound {lost : Prop} (h : Stage lost b) (alive : b.collapse = none) : Sound b := by
  cases h with
  | blank h => exact .blank h alive
  | early h => exact .early h alive
  | raw h once => exact .raw h once alive
  | body h fresh =>
      rcases fresh with framed | fresh
      · exact .settled (.framed framed alive)
      · exact .settled (.fit (fresh.fit h.toRooted alive))

/-- A token that does not lead to a breakdown. -/
def Builder.Bears (b : Builder) (t : Token) : Prop :=
  ∀ tag, t = .startTag tag → b.mode ≠ .text ∧ tag.name ≠ "math" ∧ tag.name ≠ "svg"

namespace Sound

variable (h : Sound b)
include h

theorem alive : b.collapse = none := by
  cases h with
  | blank _ alive => exact alive
  | early _ alive => exact alive
  | raw _ _ alive => exact alive
  | settled h => exact h.alive
  | inRawText h _ => exact h.back.alive

theorem adjust (core : c.core = b.core) (head : c.head = b.head) (mode : c.mode = b.mode)
    (textReturn : c.textReturn = b.textReturn) (tableReturn : c.tableReturn = b.tableReturn)
    (collapse : c.collapse = b.collapse) (again : b.again = false → c.again = false) : Sound c := by
  cases h with
  | blank h alive => exact .blank (h.adjust core (mode ▸ h.mode)) (collapse.trans alive)
  | early h alive => exact .early (h.adjust core head mode) (collapse.trans alive)
  | raw h once alive =>
      exact .raw (h.adjust lasting_early core head mode textReturn tableReturn
        fun alive => collapse.symm.trans alive) (again once) (collapse.trans alive)
  | settled h => exact .settled (h.adjust core mode tableReturn collapse)
  | inRawText h once => exact .inRawText (h.adjust core mode textReturn tableReturn collapse) (again once)

theorem report (f : Fault) : Sound (b.report f) := by
  rw [Builder.report]
  split
  · exact h
  · exact h.adjust rfl rfl rfl rfl rfl rfl id

theorem mode_ne_of_again (again : b.again = true) : b.mode ≠ .text := by
  intro text
  cases h with
  | blank h _ => rcases h.mode with mode | mode <;> rw [text] at mode <;> cases mode
  | early h _ =>
      have early := h.mode
      rw [text] at early
      cases early
  | raw _ once _ =>
      rw [once] at again
      cases again
  | settled h => exact h.mode_ne text
  | inRawText _ once =>
      rw [once] at again
      cases again

theorem consume (once : b.again = false) {t : Token} (bears : b.Bears t) :
    Sound (b.consume t) ∧ b.Heeds t (b.consume t) := by
  have proceeds : ∀ {d}, Proceeds True b d → b.collapse = none → Sound d ∧ b.Heeds t d :=
    fun onward alive => ⟨onward.stage.sound (onward.collapse.trans alive), Or.inl onward.tells⟩
  have notStart : b.mode = .text → ∀ tag, t ≠ .startTag tag := fun text tag start =>
    (bears tag start).1 text
  cases h with
  | blank h alive =>
      rw [h.consume]
      exact proceeds (h.ordinary t) alive
  | early h alive =>
      rw [h.consume]
      exact proceeds (h.ordinary once t fun _ _ _ => trivial) alive
  | @raw k h _ alive =>
      have again := (Builder.again_ordinary h.mode t).trans once
      have alive := (Builder.collapse_ordinary h.mode (notStart h.mode)).trans alive
      rw [h.consume]
      by_cases ends : ∃ name, t = .endTag name
      · obtain ⟨name, rfl⟩ := ends
        have back : Early k (b.ordinary (.endTag name)) := by
          rw [Builder.ordinary, Builder.endTag, h.mode]
          exact h.back
        have led : Proceeds True _ _ := back.proceeds rfl
        exact ⟨.early back alive, Or.inl led.tells⟩
      · have goesOn : ∀ name, t ≠ .endTag name := fun name same => ends ⟨name, same⟩
        have untold := Builder.lexerState_ordinary h.mode (notStart h.mode)
        rcases h.ordinary lasting_early t with raw | early
        · exact ⟨.raw raw again alive, Or.inr ⟨h.mode, untold, goesOn⟩⟩
        · exact ⟨.early early alive, Or.inr ⟨h.mode, untold, goesOn⟩⟩
  | settled h =>
      have shape : b.consume t = b.ordinary t := by
        rw [Builder.consume, h.isForeign_eq, if_neg Bool.false_ne_true]
      rw [shape]
      by_cases start : ∃ tag, t = .startTag tag
      · obtain ⟨tag, rfl⟩ := start
        rcases h.startTag once (bears tag rfl).2 with settled | ⟨inRawText, once, tells⟩
        · exact ⟨.settled settled, Or.inl (Builder.tells_of_ne settled.mode_ne)⟩
        · exact ⟨.inRawText inRawText once, Or.inl tells⟩
      · have settled := h.ordinary fun tag same => start ⟨tag, same⟩
        exact ⟨.settled settled, Or.inl (Builder.tells_of_ne settled.mode_ne)⟩
  | inRawText h _ =>
      have again := (Builder.again_ordinary h.mode t).trans once
      have untold := Builder.lexerState_ordinary h.mode (notStart h.mode)
      rw [h.consume]
      rcases h.ordinary (notStart h.mode) with settled | ⟨inRawText, goesOn⟩
      · exact ⟨.settled settled, Or.inl (Builder.tells_of_ne settled.mode_ne)⟩
      · exact ⟨.inRawText inRawText again, Or.inr ⟨h.mode, untold, goesOn⟩⟩

omit h in
theorem consumeWithin {t : Token} (n : Nat) : ∀ {b : Builder}, Sound b → b.Bears t →
    Sound (Builder.consumeWithin n t b) ∧ (0 < n → b.Heeds t (Builder.consumeWithin n t b)) := by
  induction n with
  | zero => exact fun h _ => ⟨h, fun absurd => by cases absurd⟩
  | succ n ih =>
      intro b h bears
      have once := h.adjust (c := { b with again := false }) rfl rfl rfl rfl rfl rfl fun _ => rfl
      obtain ⟨consumed, heeds⟩ := once.consume rfl bears
      rw [Builder.consumeWithin]
      split
      · next more =>
        have other := consumed.mode_ne_of_again (Bool.and_eq_true_iff.mp more).1
        obtain ⟨sound, later⟩ := ih consumed fun tag start => ⟨other, (bears tag start).2⟩
        refine ⟨sound, fun _ => ?_⟩
        cases n with
        | zero => exact Or.inl (Builder.tells_of_ne other)
        | succ n => exact (later (Nat.succ_pos n)).imp_right fun absurd => (other absurd.1).elim
      · exact ⟨consumed, fun _ => heeds⟩

/-- Each token takes construction on. -/
theorem step {t : Token} (bears : b.Bears t) : Sound (b.step t) ∧ b.Heeds t (b.step t) := by
  have begun := h.adjust (c := { b with acknowledged := false }) rfl rfl rfl rfl rfl rfl id
  have some : 0 < b.turns := Nat.mul_pos (by decide) (Nat.succ_pos _)
  obtain ⟨consumed, heeds⟩ := consumeWithin b.turns begun bears
  have heeds := heeds some
  have reported : ∀ {d : Builder} f, b.Heeds t d → b.Heeds t (d.report f) := by
    intro d f heeds
    rw [Builder.report]
    split
    · exact heeds
    · exact heeds
  rw [Builder.step, Builder.checkSolidus.eq_def]
  split
  · split
    · exact ⟨consumed.report _, reported _ heeds⟩
    · exact ⟨consumed, heeds⟩
  · exact ⟨consumed, heeds⟩

theorem finishMode : Sound b.finishMode := by
  have proceeds : ∀ {d}, Proceeds True b d → b.collapse = none → Sound d :=
    fun onward alive => onward.stage.sound (onward.collapse.trans alive)
  cases h with
  | blank h alive => exact proceeds h.finishMode.1 alive
  | early h alive => exact proceeds h.finishMode.1 alive
  | raw h _ alive =>
      have collapse : b.finishMode.collapse = b.collapse := by
        rw [Builder.finishMode, h.mode]
        exact b.collapse_report _
      exact .early (h.finishMode lasting_early) (collapse.trans alive)
  | settled h => exact .settled h.finishMode
  | inRawText h _ => exact .settled h.finishMode

omit h in
theorem finishWithin (n : Nat) : ∀ {b : Builder}, Sound b → Sound (Builder.finishWithin n b) := by
  induction n with
  | zero => exact fun h => h
  | succ n ih =>
      intro b h
      have once := h.adjust (c := { b with again := false }) rfl rfl rfl rfl rfl rfl fun _ => rfl
      rw [Builder.finishWithin]
      split
      · exact ih once.finishMode
      · exact once.finishMode

theorem finish : Sound b.finish := h.finishWithin Builder.modeCount

end Sound

end HtmlTree.Html
