import HtmlTree.Proofs.Html.FitStarts

/-! Text and the end of the text where the mode goes with what is open, every token where framesets
have taken the place of the body, and raw text in either case. -/

namespace HtmlTree.Html

open Arena (Keeps)

variable {b c : Builder} {o : Open}

namespace Fit

section Texts

variable (h : Fit b)
include h

theorem enterTableText (holds : b.mode.holdsText = true) : Fit b.enterTableText := by
  have notText : b.mode ≠ .inTableText := by
    intro text
    rw [text] at holds
    cases holds
  constructor
  case toOrdered => exact h.toOrdered.same rfl
  case alive => exact h.alive
  case place => exact h.seats rfl notText
  case columns => exact fun absurd => by cases absurd
  case select => exact fun absurd => by rcases absurd with absurd | absurd <;> cases absurd
  case tableReturn => exact fun _ => holds

theorem holdText (text : String) : Fit (b.holdText text) := h.adjust rfl rfl rfl rfl

theorem characters (text : String) : Fit (b.characters text) := by
  have back : ∀ f, seat b.stack = "body" → Fit (((b.report f).goto .inBody).retry) := fun f body =>
    ((h.start.report f).fit_goto h.alive rfl (by rw [body]; decide)).retry
  have body : ∀ {mode : Mode}, b.mode = mode → mode.isWide = true → Fit (b.bodyText text) :=
    fun here wide => h.seatKept (h.start.bodyText text) (h.free_of_mode here wide)
  have table : b.mode.holdsText = true → Fit
      (if text == Builder.nul then b.enterTableText else b.enterTableText.holdText text) := by
    intro holds
    split
    · exact h.enterTableText holds
    · exact (h.enterTableText holds).holdText text
  have select : Fit (if text == Builder.nul then b else b.insertText text) := by
    split
    · exact h
    · exact h.insertText text
  rw [Builder.characters]
  split
  all_goals try (next mode => exact absurd (h.seats mode (by decide)) Bool.false_ne_true)
  · next mode => exact body mode rfl
  · next mode => exact body mode rfl
  · next mode => exact body mode rfl
  · next mode => exact table (by rw [mode]; rfl)
  · next mode => exact table (by rw [mode]; rfl)
  · next mode => exact table (by rw [mode]; rfl)
  · split
    · exact h
    · exact h.holdText text
  · next mode => exact h.passColumns mode
  · exact select
  · exact select
  · next mode => exact back _ (h.seat_eq mode rfl)
  · next mode => exact back _ (h.seat_eq mode rfl)

theorem spaces (text : String) : Fit (b.spaces text) := by
  have body : ∀ {mode : Mode}, b.mode = mode → mode.isWide = true → Fit (b.bodySpaces text) :=
    fun here wide => h.seatKept (h.start.bodySpaces text) (h.free_of_mode here wide)
  rw [Builder.spaces]
  split
  all_goals try (next mode => exact absurd (h.seats mode (by decide)) Bool.false_ne_true)
  all_goals first
    | exact h.insertText text
    | exact h.holdText text
    | next mode => exact body mode rfl
    | next mode => exact (h.enterTableText (by rw [mode]; rfl)).holdText text

theorem comment (data : String) : Fit (b.comment data) := by
  rw [Builder.comment]
  split
  on_goal 6 => next mode => exact (h.closeTableText mode).retry
  all_goals exact h.insertComment _ data

theorem doctype (d : Doctype) : Fit (b.doctype d) := by
  rw [Builder.doctype]
  split
  · next mode => exact absurd (h.seats mode (by decide)) Bool.false_ne_true
  · exact h.report _

theorem not_isRoot : b.isCurrent "html" = false := by
  have none : ∀ m : Mode, m.seats.contains "html" = false := by
    intro m
    cases m <;> decide
  rw [Builder.isCurrent, beq_eq_false_iff_ne]
  intro root
  have place := h.place
  cases shape : b.stack with
  | nil =>
      rw [Builder.current, shape] at root
      exact absurd root (by decide)
  | cons o rest =>
      have name : o.name = "html" := by
        rw [Builder.current, shape] at root
        exact root
      rw [shape, seat_cons_of, name, none] at place
      · cases place
      · rw [Open.isSeat, name]
        decide

theorem finishMode : Fit b.finishMode := by
  have checkedRoot : ∀ f, Fit (b.checkRoot f) := by
    intro f
    rw [Builder.checkRoot, h.not_isRoot, if_neg Bool.false_ne_true]
    exact h.report f
  have checked : Fit b.checkClosed := by
    rw [Builder.checkClosed]
    split
    · exact h
    · exact h.report _
  rw [Builder.finishMode]
  split
  all_goals try (next mode => exact absurd (h.seats mode (by decide)) Bool.false_ne_true)
  · exact checked
  · exact checked
  · exact checked
  · exact checkedRoot _
  · exact checkedRoot _
  · exact checkedRoot _
  · next mode => exact (h.closeTableText mode).retry
  · next mode =>
    rw [h.not_isRoot, if_neg Bool.false_ne_true]
    exact (h.closeColumns mode).retry
  · exact checkedRoot _
  · exact checkedRoot _
  · exact h
  · exact h

end Texts

end Fit

namespace Framed

variable (h : Framed b)
include h

theorem rebuild (a : Arena) : Framed { b with arena := a } :=
  ⟨h.html, h.formatting, h.context, h.standard, h.mode⟩

theorem report (f : Fault) : Framed (b.report f) := h.adjust (b.core_report f) (b.mode_report f)

theorem insertText (text : String) : Framed (b.insertText text) := by
  obtain ⟨a, inserted, _⟩ := b.exists_insertText text
  rw [inserted]
  exact h.rebuild a

theorem insertVoid (t : Tag) : Framed (b.insertVoid t) := by
  obtain ⟨a, inserted, _⟩ := b.exists_insertPart t.name b.standard
    (Foreign.builtAttrs b.standard false t.attrs)
  have shape : b.insertVoid t = { b with arena := a } :=
    congrArg (fun d : Builder => { d with stack := d.stack.tail }) inserted
  rw [shape]
  exact h.rebuild a

theorem startRoot (t : Tag) : Framed (b.startRoot t) := by
  rw [Builder.startRoot]
  split
  · exact (h.rebuild _).adjust rfl rfl
  · exact ((h.report _).rebuild _).adjust rfl rfl

theorem insertFrameset (mode : b.mode = .inFrameset) {t : Tag} (name : t.name = "frameset") :
    Framed (b.insert t) := by
  obtain ⟨a, inserted, _⟩ := b.exists_insertPart t.name b.standard
    (Foreign.builtAttrs b.standard false t.attrs)
  rw [Builder.insert, inserted]
  exact ⟨List.forall_mem_cons.mpr ⟨h.standard, h.html⟩, h.formatting, h.context, h.standard,
    Or.inl ⟨mode, name⟩⟩

theorem reopen (after : b.mode = .afterAfterFrameset) (entries : List (Option Open))
    (html : ∀ o, some o ∈ entries → o.space = .html) :
    Framed (b.reopen entries) ∧ (b.reopen entries).collapse = b.collapse := by
  induction entries generalizing b with
  | nil => exact ⟨h, rfl⟩
  | cons entry entries ih =>
      have others : ∀ o, some o ∈ entries → o.space = .html := fun o inside =>
        html o (List.mem_cons_of_mem entry inside)
      cases entry with
      | none => exact ih h after others
      | some o =>
          have space := html o List.mem_cons_self
          obtain ⟨a, inserted, _⟩ := b.exists_insertPart o.name o.space (b.arena.attrs o.id)
          rw [Builder.reopen, inserted]
          refine ih ⟨List.forall_mem_cons.mpr ⟨space, h.html⟩, fun p inside => ?_, h.context,
            h.standard, Or.inr (Or.inr after)⟩ after others
          rcases List.mem_append.mp inside with before | new
          · exact h.formatting p before
          · cases List.mem_singleton.mp new
            exact space

theorem reconstruct (after : b.mode = .afterAfterFrameset) :
    Framed b.reconstruct ∧ b.reconstruct.collapse = b.collapse := by
  have remaining : ∀ n, Framed { b with formatting := b.formatting.take n } := fun n =>
    ⟨h.html, fun o inside => h.formatting o (List.mem_of_mem_take inside), h.context, h.standard, h.mode⟩
  rw [Builder.reconstruct]
  split
  · exact ⟨h, rfl⟩
  · refine reopen (remaining _) after _ fun o inside => ?_
    rw [List.mem_reverse] at inside
    exact h.formatting o (List.mem_reverse.mp ((List.takeWhile_subset _) inside))

theorem bodySpaces (after : b.mode = .afterAfterFrameset) (text : String) :
    Framed (b.bodySpaces text) ∧ (b.bodySpaces text).collapse = b.collapse := by
  have kept : Framed { b with dropNewline := false } := h.adjust rfl rfl
  rw [Builder.bodySpaces]
  split
  · exact ⟨kept, rfl⟩
  · obtain ⟨framed, collapse⟩ := kept.reconstruct after
    exact ⟨framed.insertText _, (Builder.collapse_insertText _ _).trans collapse⟩

theorem endFrameset (mode : b.mode = .inFrameset) (name : String) :
    Framed (b.endInFrameset name) ∧ (b.endInFrameset name).collapse = b.collapse := by
  have frameset : b.current.name = "frameset" := by
    rcases h.mode with here | after | after
    · exact here.2
    · rw [mode] at after
      cases after
    · rw [mode] at after
      cases after
  have other : b.isCurrent "html" = false := by
    rw [Builder.isCurrent, frameset]
    decide
  have popped : ∀ o ∈ b.pop.stack, o.space = .html := fun o inside =>
    h.html o (List.mem_of_mem_tail inside)
  have context : b.pop.context.isNone = true := Option.isNone_iff_eq_none.mpr h.context
  rw [Builder.endInFrameset, other, if_neg Bool.false_ne_true]
  split
  · dsimp only
    rw [context, Bool.true_and]
    split
    · exact ⟨⟨popped, h.formatting, h.context, h.standard, Or.inr (Or.inl rfl)⟩, rfl⟩
    · next inner =>
      rw [Bool.not_eq_true, Bool.not_eq_false'] at inner
      exact ⟨⟨popped, h.formatting, h.context, h.standard, Or.inl ⟨mode, eq_of_beq inner⟩⟩, rfl⟩
  · exact ⟨h.report _, b.collapse_report _⟩

variable (alive : b.collapse = none)
include alive

theorem settled_report (f : Fault) : Settled (b.report f) :=
  .framed (h.report f) ((b.collapse_report f).trans alive)

theorem startTag (once : b.again = false) (t : Tag) : SettledOrRaw (b.startTag t) := by
  have root : SettledOrRaw (b.startRoot t) :=
    (Settled.framed (h.startRoot t) ((b.collapse_startRoot t).trans alive)).settledOrRaw
  have reported : ∀ f, SettledOrRaw (b.report f) := fun f => (h.settled_report alive f).settledOrRaw
  have raw : ∀ {kind : TextKind}, kind.isVerbatim = true → SettledOrRaw (b.insertRaw t kind) :=
    fun verbatim => (Settled.framed h alive).insertRaw once t verbatim
  have rule : Builder.ruleFor Builder.bodyStarts "noframes" = some .rawText := by decide +kernel
  rw [Builder.startTag]
  rcases h.mode with ⟨mode, _⟩ | mode | mode
  · rw [mode]
    dsimp only
    rw [Builder.startInFrameset]
    split
    · exact root
    · next name =>
      exact (Settled.framed (h.insertFrameset mode name) ((b.collapse_insert t).trans alive)).settledOrRaw
    · exact (Settled.framed (h.insertVoid t) ((b.collapse_insert t).trans alive)).settledOrRaw
    · next name =>
      rw [Builder.bodyStart, name, rule]
      exact raw rfl
    · exact reported _
  all_goals
    rw [mode]
    dsimp only
    split
    · exact root
    · next name =>
      rw [Builder.startInHead, name]
      exact raw rfl
    · exact reported _

theorem endTag (name : String) : Settled (b.endTag name) := by
  rw [Builder.endTag]
  rcases h.mode with ⟨mode, _⟩ | mode | mode
  · rw [mode]
    obtain ⟨framed, collapse⟩ := h.endFrameset mode name
    exact .framed framed (collapse.trans alive)
  · rw [mode]
    dsimp only
    split
    · exact .framed ⟨h.html, h.formatting, h.context, h.standard, Or.inr (Or.inr rfl)⟩ alive
    · exact h.settled_report alive _
  · rw [mode]
    exact h.settled_report alive _

theorem characters (text : String) : Settled (b.characters text) := by
  rw [Builder.characters]
  rcases h.mode with ⟨mode, _⟩ | mode | mode
  all_goals
    rw [mode]
    exact h.settled_report alive _

theorem spaces (text : String) : Settled (b.spaces text) := by
  have inserted : Settled (b.insertText text) :=
    .framed (h.insertText text) ((b.collapse_insertText text).trans alive)
  rw [Builder.spaces]
  rcases h.mode with ⟨mode, _⟩ | mode | mode
  · rw [mode]
    exact inserted
  · rw [mode]
    exact inserted
  · rw [mode]
    obtain ⟨framed, collapse⟩ := h.bodySpaces mode text
    exact .framed framed (collapse.trans alive)

theorem comment (data : String) : Settled (b.comment data) := by
  have inserted : ∀ i, Settled (b.insertComment i data) := fun i => .framed (h.rebuild _) alive
  rw [Builder.comment]
  rcases h.mode with ⟨mode, _⟩ | mode | mode
  all_goals
    rw [mode]
    exact inserted _

theorem doctype (d : Doctype) : Settled (b.doctype d) := by
  rw [Builder.doctype]
  rcases h.mode with ⟨mode, _⟩ | mode | mode
  all_goals
    rw [mode]
    exact h.settled_report alive _

theorem finishMode : Settled b.finishMode := by
  rw [Builder.finishMode]
  rcases h.mode with ⟨mode, frameset⟩ | mode | mode
  · have other : b.isCurrent "html" = false := by
      rw [Builder.isCurrent, frameset]
      decide
    rw [mode]
    dsimp only
    rw [Builder.checkRoot, other, if_neg Bool.false_ne_true]
    exact h.settled_report alive _
  · rw [mode]
    exact .framed h alive
  · rw [mode]
    exact .framed h alive

end Framed

namespace Settled

variable (h : Settled b)
include h

theorem mode_ne : b.mode ≠ .text := by
  intro text
  cases h with
  | fit h => exact absurd (h.seats text (by decide)) Bool.false_ne_true
  | framed h _ => rcases h.mode with ⟨mode, _⟩ | mode | mode <;> rw [text] at mode <;> cases mode

theorem isForeign_eq (t : Token) : b.isForeign t = false := by
  have html : ∀ o ∈ b.stack, o.space = b.standard := by
    cases h with
    | fit h => exact fun o inside => (h.html o inside).trans h.standard.symm
    | framed h _ => exact fun o inside => (h.html o inside).trans h.standard.symm
  simp only [Builder.isForeign.eq_def]
  cases shape : b.stack with
  | nil => rfl
  | cons o rest =>
      have same : b.current.space = b.standard := by
        rw [Builder.current, shape]
        exact html o (shape ▸ List.mem_cons_self)
      simp only [same, beq_self_eq_true, Bool.or_true, if_true]

theorem startTag (once : b.again = false) {t : Tag} (html : t.name ≠ "math" ∧ t.name ≠ "svg") :
    SettledOrRaw (b.startTag t) := by
  cases h with
  | fit h => exact h.startTag once html
  | framed h alive => exact h.startTag alive once t

theorem ordinary {t : Token} (other : ∀ tag, t ≠ .startTag tag) : Settled (b.ordinary t) := by
  cases t with
  | startTag tag => exact (other tag rfl).elim
  | endTag name =>
      cases h with
      | fit h => exact .fit (h.endTag name)
      | framed h alive => exact h.endTag alive name
  | characters text =>
      cases h with
      | fit h => exact .fit (h.characters text)
      | framed h alive => exact h.characters alive text
  | spaces text =>
      cases h with
      | fit h => exact .fit (h.spaces text)
      | framed h alive => exact h.spaces alive text
  | comment data =>
      cases h with
      | fit h => exact .fit (h.comment data)
      | framed h alive => exact h.comment alive data
  | doctype d =>
      cases h with
      | fit h => exact .fit (h.doctype d)
      | framed h alive => exact h.doctype alive d

theorem finishMode : Settled b.finishMode := by
  cases h with
  | fit h => exact .fit h.finishMode
  | framed h alive => exact h.finishMode alive

end Settled

end HtmlTree.Html
