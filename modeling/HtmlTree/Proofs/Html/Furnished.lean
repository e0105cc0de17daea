import HtmlTree.Proofs.Html.InRaw

/-! A document that has its parts goes on having them, whatever tokens follow. -/

namespace HtmlTree.Html

open Arena (Keeps)

def Mode.isLate : Mode → Bool
  | .initial | .beforeHtml | .beforeHead | .inHead | .inHeadNoscript | .afterHead | .text => false
  | _ => true

/-- A document with its parts under construction. The body may be lost to a frameset. -/
structure Furnished (lost : Prop) (k : Anchors) (b : Builder) : Prop extends Rooted k b where
  head : k.head.isSome
  body : lost ∨ k.body.isSome
  mode : b.mode.isLate = true ∨ b.mode = .beforeHead ∧ b.collapse ≠ none
  tableReturn : b.mode = .inTableText → b.tableReturn.isLate = true

def Staged (lost : Prop) (b : Builder) : Prop :=
  ∃ k, Furnished lost k b ∨ InRaw k (Furnished lost k) b

variable {lost : Prop} {k : Anchors} {b c : Builder}

namespace Builder

theorem collapse_needContext (context : b.context = none) : b.needContext.collapse ≠ none := by
  rw [needContext, context, if_neg (by decide), breakDown]
  split
  · next dead => exact fun alive => by rw [alive] at dead; cases dead
  · exact fun absurd => by cases absurd

theorem core_needContext (b : Builder) : b.needContext.core = b.core := by
  rw [needContext]
  split
  · rfl
  · exact core_breakDown b _

theorem stack_clearToRowGroup (b : Builder) : b.clearToRowGroup.stack =
    popTo (fun o => ("html" :: rowGroupTags).contains o.name) b.stack := by
  rw [clearToRowGroup]
  split
  · exact congrArg (·.2.1) (core_needContext _)
  · rfl

theorem exists_rowGroup (found : ∃ o ∈ b.stack, rowGroupTags.contains o.name = true) :
    ∃ o ∈ b.clearToRowGroup.stack, rowGroupTags.contains o.name = true := by
  obtain ⟨o, inside, group⟩ := found
  refine ⟨o, ?_, group⟩
  rw [stack_clearToRowGroup]
  apply mem_popTo inside
  rw [List.contains_cons, group, Bool.or_true]

theorem stack_reportAll (l : List Open) : ∀ b : Builder,
    (l.foldl (fun c o => c.report (.impliedEndInRow o.name)) b).stack = b.stack := by
  induction l with
  | nil => exact fun _ => rfl
  | cons o l ih => exact fun b => (ih _).trans (stack_report b _)

theorem stack_clearToRow (b : Builder) :
    b.clearToRow.stack = popTo (fun o => o.name == "tr" || o.name == "html") b.stack := by
  rw [clearToRow]
  exact congrArg (popTo _) (stack_reportAll _ b)

theorem name_of_rowGroup {name : String} (group : rowGroupTags.contains name = true) :
    name ≠ "html" := by
  rintro rfl
  exact absurd group (by decide)

theorem modeOf_cases {name : String} {mode : Mode} (leads : modeOf name = some mode) :
    mode.isLate = true ∧ mode ≠ .inTableText ∨ mode = .beforeHead ∧ name = "html" := by
  rw [modeOf.eq_def] at leads
  split at leads <;> cases leads
  all_goals first
    | exact Or.inl ⟨rfl, by decide⟩
    | exact Or.inr ⟨rfl, rfl⟩

end Builder

theorem RootKept.reportAll (l : List Open) : ∀ {c : Builder}, RootKept k b c →
    RootKept k b (l.foldl (fun c o => c.report (.impliedEndInRow o.name)) c) := by
  induction l with
  | nil => exact fun s => s
  | cons o l ih => exact fun s => ih (s.report _)

theorem Furnished.adjust (h : Furnished lost k b) (core : c.core = b.core) (mode : c.mode = b.mode)
    (tableReturn : c.tableReturn = b.tableReturn) (collapse : c.collapse = none → b.collapse = none) :
    Furnished lost k c where
  toRooted := h.toRooted.same core
  head := h.head
  body := h.body
  mode := by
    rw [mode]
    exact h.mode.imp_right fun ⟨before, dead⟩ => ⟨before, fun alive => dead (collapse alive)⟩
  tableReturn := by
    rw [mode, tableReturn]
    exact h.tableReturn

theorem lasting_furnished : Lasting k (Furnished lost k) where
  rebuild h planted keeps :=
    ⟨h.toRooted.rebuild planted keeps, h.head, h.body, h.mode, h.tableReturn⟩
  adjust h core _ := h.adjust core

theorem Staged.adjust (h : Staged lost b) (core : c.core = b.core) (head : c.head = b.head)
    (mode : c.mode = b.mode) (textReturn : c.textReturn = b.textReturn)
    (tableReturn : c.tableReturn = b.tableReturn) (collapse : c.collapse = none → b.collapse = none) :
    Staged lost c := by
  obtain ⟨k, furnished | raw⟩ := h
  · exact ⟨k, Or.inl (furnished.adjust core mode tableReturn collapse)⟩
  · exact ⟨k, Or.inr (raw.adjust lasting_furnished core head mode textReturn tableReturn collapse)⟩

namespace Furnished

theorem start (h : Furnished lost k b) : RootKept k b b := .refl h.toRooted

theorem staged (h : Furnished lost k b) : Staged lost b := ⟨k, Or.inl h⟩

theorem rootKept (h : Furnished lost k b) (s : RootKept k b c) : Furnished lost k c where
  toRooted := s.rooted
  head := h.head
  body := h.body
  mode := by
    rw [s.mode]
    exact h.mode.imp_right fun ⟨before, dead⟩ => ⟨before, fun alive => dead (s.collapse alive)⟩
  tableReturn := by
    rw [s.mode, s.tableReturn]
    exact h.tableReturn

theorem goto (h : Furnished lost k b) {mode : Mode} (late : mode.isLate = true)
    (other : mode ≠ .inTableText) : Furnished lost k (b.goto mode) where
  toRooted := h.toRooted.same rfl
  head := h.head
  body := h.body
  mode := Or.inl late
  tableReturn := fun absurd => (other absurd).elim

theorem report (h : Furnished lost k b) (f : Fault) : Furnished lost k (b.report f) :=
  h.rootKept (h.start.report f)

theorem needContext (h : Furnished lost k b) : Furnished lost k b.needContext :=
  h.rootKept h.start.needContext

theorem retry (h : Furnished lost k b) : Furnished lost k b.retry := h.adjust rfl rfl rfl id

theorem missing (h : Furnished lost k b) : Furnished lost k b.missing := h.needContext.report _

theorem settled {name : String} (ended : Furnished lost k (b.endTag name)) :
    Furnished lost k (b.settled (·.endTag name)) :=
  ended.adjust rfl rfl rfl id

theorem gotoModeOf (h : Furnished lost k b) {other : Builder} (further : Furnished lost k other)
    {name : String} (dead : name = "html" → b.collapse ≠ none) :
    Furnished lost k (match Builder.modeOf name with
      | some mode => b.goto mode
      | none => other) := by
  split
  · next mode leads =>
    rcases Builder.modeOf_cases leads with ⟨late, elsewhere⟩ | ⟨rfl, root⟩
    · exact h.goto late elsewhere
    · exact {
        toRooted := h.toRooted.same rfl
        head := h.head
        body := h.body
        mode := Or.inr ⟨rfl, dead root⟩
        tableReturn := fun absurd => by cases absurd }
  · exact further

/-- The mode that the open elements call for is that before the head only of a fragment. -/
theorem resetModeFrom (open_ : List Open) : ∀ {b : Builder}, Furnished lost k b →
    Furnished lost k (b.resetModeFrom open_) := by
  induction open_ with
  | nil => exact fun h => h
  | cons o rest ih =>
      intro b h
      cases rest with
      | nil =>
          rw [Builder.resetModeFrom, h.context]
          exact h.rootKept (h.start.breakDown _)
      | cons p rest =>
          rw [Builder.resetModeFrom]
          · split
            · have needy := h.needContext
              split
              · exact ih needy
              · exact needy.gotoModeOf (ih needy) fun _ => Builder.collapse_needContext h.context
            · next kept =>
              split
              · exact ih h
              · exact h.gotoModeOf (ih h) fun root => (kept (root ▸ rfl)).elim
          · exact fun absurd => by cases absurd

theorem resetMode (h : Furnished lost k b) : Furnished lost k b.resetMode := resetModeFrom _ h

theorem fostered (h : Furnished lost k b) {step : Builder → Builder}
    (kept : ∀ {d : Builder}, Furnished lost k d → Furnished lost k (step d)) :
    Furnished lost k (b.fostered step) :=
  (kept (h.adjust (c := { b with fostering := true }) rfl rfl rfl id)).adjust rfl rfl rfl id

theorem enterTableText (h : Furnished lost k b) (late : b.mode.isLate = true) :
    Furnished lost k b.enterTableText where
  toRooted := h.toRooted.same rfl
  head := h.head
  body := h.body
  mode := Or.inl rfl
  tableReturn _ := late

theorem closeTableText (h : Furnished lost k b) (mode : b.mode = .inTableText) :
    Furnished lost k b.closeTableText := by
  have flushed := h.start.flushText
  have late := h.tableReturn mode
  constructor
  case toRooted => exact flushed.rooted.same rfl
  case head => exact h.head
  case body => exact h.body
  case mode => exact Or.inl late
  case tableReturn =>
    intro _
    exact (congrArg Mode.isLate flushed.tableReturn).trans late

section EndTags

variable (h : Furnished lost k b)
include h

theorem endBody : Furnished lost k b.endBody := by
  have ended : ∀ {c : Builder}, RootKept k b c → Furnished lost k (c.goto .afterBody) := fun s =>
    (h.rootKept s).goto rfl (by decide)
  rw [Builder.endBody]
  split
  · split
    · exact ended h.start
    · split
      · exact ended (h.start.report _)
      · exact ended h.start
  · exact h.report _

theorem endRoot : Furnished lost k b.endRoot := by
  rw [Builder.endRoot]
  split
  · exact h.endBody.retry
  · exact h

theorem bodyEnd (name : String) : Furnished lost k (b.bodyEnd name) := by
  rw [Builder.bodyEnd]
  split
  · exact h.endBody
  · exact h.endRoot
  · next found =>
    have fits := Builder.endFits_of_ruleFor found
    simp only [Builder.endFits, Bool.and_eq_true, bne_iff_ne, Bool.not_eq_true'] at fits
    exact h.rootKept (h.start.endBlock fits.1 fits.2)
  · exact h.rootKept h.start.endForm
  · exact h.rootKept h.start.endParagraph
  · next found => exact h.rootKept (h.start.endListItem (bne_iff_ne.mp (Builder.endFits_of_ruleFor found)))
  · exact h.rootKept (h.start.endHeading name)
  · next found =>
    exact h.rootKept (h.start.endFormatting (bne_iff_ne.mp (Builder.endFits_of_ruleFor found)))
  · next found =>
    have fits := Builder.endFits_of_ruleFor found
    simp only [Builder.endFits, Bool.and_eq_true, bne_iff_ne, Bool.not_eq_true'] at fits
    exact h.rootKept (h.start.endEmbedded fits.1 fits.2)
  · exact h.rootKept h.start.endLineBreak
  · next unruled =>
    refine h.rootKept (h.start.endOther ?_)
    rintro rfl
    exact absurd unruled (by decide +kernel)

theorem endTable : Furnished lost k b.endTable := by
  rw [Builder.endTable]
  split
  · next found =>
    exact (h.rootKept (h.start.close (Builder.exists_of_inScope found) (by decide) (Or.inl (by decide))
      _ _)).resetMode
  · exact h.missing

theorem endInTable (name : String) : Furnished lost k (b.endInTable name) := by
  rw [Builder.endInTable]
  split
  · exact h.endTable
  · split
    · exact h.report _
    · exact (h.report _).fostered fun furnished => furnished.bodyEnd name

theorem endCaption : Furnished lost k b.endCaption := by
  rw [Builder.endCaption]
  split
  · next found =>
    exact (h.rootKept (h.start.close (Builder.exists_of_inScope found) (by decide) (Or.inl (by decide))
      _ _).clearToMarker).goto rfl (by decide)
  · exact h.missing

theorem passCaption : Furnished lost k b.passCaption := by
  have ended := (h.report .unnamed).endCaption
  rw [Builder.passCaption]
  split
  · exact ended.retry
  · exact ended

theorem endInCaption (name : String) : Furnished lost k (b.endInCaption name) := by
  rw [Builder.endInCaption]
  split
  · exact h.endCaption
  · split
    · exact h.passCaption
    · split
      · exact h.report _
      · exact h.bodyEnd name

theorem closeColumns : Furnished lost k b.closeColumns := by
  rw [Builder.closeColumns]
  split
  · exact h.missing
  · next other =>
    refine (h.rootKept (h.start.pop_current ?_)).goto rfl (by decide)
    exact fun root => other (beq_iff_eq.mpr root)

theorem passColumns : Furnished lost k b.passColumns := by
  rw [Builder.passColumns]
  split
  · exact h.closeColumns
  · exact h.closeColumns.retry

theorem endInColumnGroup (name : String) : Furnished lost k (b.endInColumnGroup name) := by
  rw [Builder.endInColumnGroup]
  split
  · exact h.closeColumns
  · split
    · exact h.report _
    · exact h.passColumns

theorem clearToRowGroup : RootKept k b b.clearToRowGroup := by
  have popped : RootKept k b (b.popToNames ("html" :: Builder.rowGroupTags)) :=
    h.start.popToNames (by decide)
  rw [Builder.clearToRowGroup]
  split
  · exact popped.needContext
  · exact popped

theorem endRowGroup {name : String} (found : b.inScope .table name = true →
    ∃ o ∈ b.stack, Builder.rowGroupTags.contains o.name = true) :
    Furnished lost k (b.endRowGroup name) := by
  rw [Builder.endRowGroup]
  split
  · next inside =>
    obtain ⟨o, here, group⟩ := Builder.exists_rowGroup (found inside)
    exact (h.rootKept (h.clearToRowGroup.pop ⟨o, here, Builder.name_of_rowGroup group⟩)).goto rfl
      (by decide)
  · exact h.report _

theorem passRowGroup : Furnished lost k b.passRowGroup := by
  rw [Builder.passRowGroup]
  split
  · next found =>
    have inside := Builder.exists_rowGroup (Builder.exists_of_any_inScope found)
    exact ((h.rootKept h.clearToRowGroup).endRowGroup fun _ => inside).retry
  · exact h.missing

theorem endInTableBody (name : String) : Furnished lost k (b.endInTableBody name) := by
  rw [Builder.endInTableBody]
  split
  · next group =>
    refine h.endRowGroup fun found => ?_
    obtain ⟨o, inside, rfl⟩ := Builder.exists_of_inScope found
    exact ⟨o, inside, group⟩
  · split
    · exact h.passRowGroup
    · split
      · exact h.report _
      · exact h.endInTable name

theorem clearToRow : RootKept k b b.clearToRow := by
  have s := RootKept.reportAll (b.stack.takeWhile fun o => !(o.name == "tr" || o.name == "html")) h.start
  refine s.trim (trims_popTo fun o last => ?_)
  rw [s.rooted.last_eq last]
  rfl

theorem endRow : Furnished lost k b.endRow := by
  rw [Builder.endRow]
  split
  · next found =>
    refine (h.rootKept (h.clearToRow.pop ?_)).goto rfl (by decide)
    obtain ⟨o, inside, row⟩ := Builder.exists_of_inScope found
    refine ⟨o, ?_, by rw [row]; decide⟩
    rw [Builder.stack_clearToRow]
    apply mem_popTo inside
    rw [row]
    rfl
  · exact h.missing

theorem passRow : Furnished lost k b.passRow := by
  rw [Builder.passRow]
  split
  · exact h.endRow.retry
  · exact h.endRow

theorem endInRow (name : String) : Furnished lost k (b.endInRow name) := by
  rw [Builder.endInRow]
  split
  · exact h.endRow
  · split
    · exact h.passRow
    · split
      · split
        · exact h.endRow.retry
        · exact h.report _
      · split
        · exact h.report _
        · exact h.endInTable name

theorem endCell {name : String} (other : name ≠ "html")
    (lasts : impliedEndTags.contains name = false) : Furnished lost k (b.endCell name) := by
  rw [Builder.endCell]
  split
  · next found =>
    exact (h.rootKept (h.start.close (Builder.exists_of_inScope found) other (Or.inl lasts)
      _ _).clearToMarker).goto rfl (by decide)
  · exact h.report _

theorem closeCell : Furnished lost k b.closeCell := by
  rw [Builder.closeCell]
  split
  · exact h.endCell (by decide) (by decide)
  · split
    · exact h.endCell (by decide) (by decide)
    · exact h

theorem endInCell (name : String) : Furnished lost k (b.endInCell name) := by
  rw [Builder.endInCell]
  split
  · next cell =>
    have known := List.contains_iff_mem.mp cell
    simp only [List.mem_cons, List.not_mem_nil, or_false] at known
    rcases known with rfl | rfl <;> exact h.endCell (by decide) (by decide)
  · split
    · exact h.report _
    · split
      · split
        · exact h.closeCell.retry
        · exact h.report _
      · exact h.bodyEnd name

theorem endSelect : Furnished lost k b.endSelect := by
  rw [Builder.endSelect]
  split
  · next found =>
    exact (h.rootKept (h.start.popThroughName (Builder.exists_of_inScope found) (by decide))).resetMode
  · exact h.missing

theorem endOptionGroup : Furnished lost k b.endOptionGroup := by
  have ended : ∀ {c : Builder}, RootKept k b c → Furnished lost k
      (if c.isCurrent "optgroup" then c.pop else c.report (.endTagInSelect "optgroup")) := by
    intro c s
    split
    · next group => exact h.rootKept (s.pop_current fun root => by
        rw [Builder.isCurrent, root] at group
        exact absurd group (by decide))
    · exact h.rootKept (s.report _)
  rw [Builder.endOptionGroup]
  split
  · next o p rest stack =>
    split
    · next both =>
      refine ended (h.start.pop ⟨o, by rw [stack]; exact List.mem_cons_self, ?_⟩)
      rw [eq_of_beq (Bool.and_eq_true_iff.mp both).1]
      decide
    · exact ended h.start
  · exact ended h.start

theorem endInSelect (name : String) : Furnished lost k (b.endInSelect name) := by
  rw [Builder.endInSelect]
  split
  · next option =>
    rw [eq_of_beq option]
    split
    · next current => exact h.rootKept (h.start.pop_current fun root => by
        rw [Builder.isCurrent, root] at current
        exact absurd current (by decide))
    · exact h.report _
  · split
    · exact h.endOptionGroup
    · split
      · exact h.endSelect
      · exact h.report _

theorem endInSelectInTable (name : String) : Furnished lost k (b.endInSelectInTable name) := by
  rw [Builder.endInSelectInTable]
  split
  · dsimp only
    split
    · exact (h.report _).endSelect.retry
    · exact h.report _
  · exact h.endInSelect name

theorem endInFrameset (name : String) : Furnished lost k (b.endInFrameset name) := by
  have ended : ∀ {c : Builder}, RootKept k b c → Furnished lost k
      (if c.context.isNone && !c.isCurrent "frameset" then c.goto .afterFrameset else c) := by
    intro c s
    split
    · exact (h.rootKept s).goto rfl (by decide)
    · exact h.rootKept s
  rw [Builder.endInFrameset]
  split
  · split
    · exact ended (h.start.report _)
    · next other => exact ended (h.start.pop_current fun root => other (beq_iff_eq.mpr root))
  · exact h.report _

/-- An end tag keeps the parts. Construction that has broken down may be in the mode before the head,
where only some names do anything. -/
theorem endTag {name : String}
    (either : (name == "head" || Builder.partTags.contains name) = false ∨ b.collapse = none) :
    Furnished lost k (b.endTag name) := by
  rcases h.mode with late | ⟨before, dead⟩
  · rw [Builder.endTag]
    split
    all_goals try (next mode => rw [mode] at late; cases late)
    · exact h.bodyEnd name
    · exact h.endInTable name
    · next mode => exact (h.closeTableText mode).retry
    · exact h.endInCaption name
    · exact h.endInColumnGroup name
    · exact h.endInTableBody name
    · exact h.endInRow name
    · exact h.endInCell name
    · exact h.endInSelect name
    · exact h.endInSelectInTable name
    · split
      · split
        · exact h.report _
        · exact h.goto rfl (by decide)
      · exact ((h.report _).goto rfl (by decide)).retry
    · exact h.endInFrameset name
    · split
      · exact h.goto rfl (by decide)
      · exact h.report _
    · exact ((h.report _).goto rfl (by decide)).retry
    · exact h.report _
  · have other := either.resolve_right dead
    rw [Builder.endTag, before]
    simp only [other]
    exact h.report _

end EndTags

end Furnished

end HtmlTree.Html
