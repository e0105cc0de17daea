import HtmlTree.Proofs.Html.BodySteps
import HtmlTree.Proofs.Html.SeatKeptAdoption

/-! Elements that start and end in the body without another mode, and text in it: none of this
touches what the modes go by. -/

namespace HtmlTree.Html

variable {b c d : Builder}

namespace SeatKept

section Ends

variable (s : SeatKept b c) (free : Free b.stack)
include s free

theorem free' : Free c.stack := by
  rw [Free, Roomy, s.seat]
  exact free

theorem popThrough {scope : Scope} {wanted : Open → Bool} (block : scope.isBlock = true)
    (choice : ∀ o, wanted o = true → o.isSeat = false ∧ o.isPassing = false)
    (found : findInScope scope wanted c.stack = true) :
    SeatKept b { c with stack := popThrough wanted c.stack } := by
  apply s.suffix
  · rw [popThrough_eq]
    exact (List.tail_suffix _).trans (popTo_suffix _ _)
  · apply seat_popThrough block s.ordered.html choice s.ordered.seated _ found
    rw [s.seat]
    exact free.2.1

theorem close {scope : Scope} {name : String} {except : Option String} (block : scope.isBlock = true)
    (plain : seatTags.contains name = false ∧ passingTags.contains name = false)
    (lasts : impliedEndTags.contains name = false ∨ some name = except)
    (found : c.inScope scope name = true) (p : Prop) [Decidable p] (f : Fault) : SeatKept b
      ((if p then c.dropImplied except else (c.dropImplied except).report f).popThroughName name) := by
  have dropped := s.dropImplied except
  have checked := dropped.check p f
  have stack := (c.dropImplied except).stack_check p f
  generalize (if p then c.dropImplied except else (c.dropImplied except).report f) = d
    at checked stack ⊢
  apply checked.popThrough free block
  · intro o named
    rw [Open.isSeat, Open.isPassing, eq_of_beq named]
    exact plain
  · have still : findInScope scope (fun o => o.isHtml name) d.stack = true := by
      rw [stack]
      change findInScope scope _ (Html.dropImplied except c.stack) = true
      rw [dropImplied_eq]
      apply findInScope_dropWhile _ found
      intro o implied
      by_contra isHtml
      have named := eq_of_beq (Bool.and_eq_true_iff.mp (Bool.not_eq_false _ ▸ isHtml)).2
      rw [named, Bool.and_eq_true, decide_eq_true_eq] at implied
      rcases lasts with other | spared
      · rw [other] at implied
        cases implied.1
      · exact implied.2 spared
    apply findInScope_mono _ still
    intro o inside isHtml
    exact (checked.ordered.isHtml_eq inside name).symm.trans isHtml

theorem closeParagraph (found : c.inScope .button "p" = true) : SeatKept b c.closeParagraph :=
  s.close free rfl (by decide) (Or.inr rfl) found _ _

theorem leaveParagraph : SeatKept b c.leaveParagraph := by
  rw [Builder.leaveParagraph]
  split
  · next found => exact s.closeParagraph free found
  · exact s

theorem endParagraph : SeatKept b c.endParagraph := by
  rw [Builder.endParagraph]
  split
  · next found => exact s.closeParagraph free found
  · apply ((s.insert (t := .implied "p") (by decide)).report (.endTag "p")).closeParagraph free
    rw [Builder.inScope, Builder.stack_report, Builder.insert, Builder.stack_insertPart,
      s.ordered.standard]
    rfl

theorem endBlock {name : String}
    (plain : seatTags.contains name = false ∧ passingTags.contains name = false)
    (lasts : impliedEndTags.contains name = false) : SeatKept b (c.endBlock name) := by
  have ended : ∀ {d : Builder}, SeatKept b d → SeatKept b
      (if d.inScope .plain name then ((d.dropImplied none).checkCurrent name).popThroughName name
      else d.checkCurrent name) := by
    intro d seatKept
    split
    · next found => exact seatKept.close free rfl plain (Or.inl lasts) found _ _
    · exact seatKept.check _ _
  rw [Builder.endBlock]
  split
  · exact ended (s.adjust rfl rfl rfl id rfl)
  · exact ended s

omit free in
theorem endForm : SeatKept b c.endForm := by
  have forgotten : SeatKept b { c with form := none } :=
    ⟨{ s.ordered with form := fun _ absurd => by cases absurd }, s.seat, s.mode, s.tableReturn, s.again,
      s.collapse, s.keeps⟩
  rw [Builder.endForm]
  split
  · exact forgotten.report _
  · next o form =>
    have tagged := s.ordered.form o form
    split
    · have checked := (forgotten.dropImplied none).check
        ((Builder.dropImplied { c with form := none } none).current.id == o.id) (.endTagEarlyIgnored "form")
      have arena : ∀ (p : Prop) [Decidable p] (f : Fault),
          (if p then Builder.dropImplied { c with form := none } none
            else (Builder.dropImplied { c with form := none } none).report f).arena = c.arena := by
        intro p _ f
        split
        · rfl
        · exact congrArg (·.1) (Builder.core_report _ f)
      refine checked.removeOpen ?_ (by decide : seatTags.contains "form" = false)
      rw [arena]
      exact tagged
    · exact forgotten.report _

theorem endListItem {name : String}
    (plain : seatTags.contains name = false ∧ passingTags.contains name = false) :
    SeatKept b (c.endListItem name) := by
  have block : (if name == "li" then Scope.list else Scope.plain).isBlock = true := by split <;> rfl
  rw [Builder.endListItem]
  generalize (if (name == "li") = true then Scope.list else Scope.plain) = scope at block ⊢
  split
  · next found => exact s.close free block plain (Or.inr rfl) found _ _
  · exact s.report _

theorem endHeading (name : String) : SeatKept b (c.endHeading name) := by
  have headings : ∀ name ∈ headingTags, seatTags.contains name = false ∧
      passingTags.contains name = false := by decide
  have ended : ∀ {d : Builder}, SeatKept b d → SeatKept b
      (if headingTags.any ((d.checkCurrent name).inScope .plain) then
        { d.checkCurrent name with
          stack := Html.popThrough (fun o => headingTags.contains o.name) (d.checkCurrent name).stack }
      else d.checkCurrent name) := by
    intro d seatKept
    have checked := seatKept.check (d.isCurrent name) (.endTagEarly name)
    change SeatKept b (d.checkCurrent name) at checked
    split
    · next found =>
      obtain ⟨heading, known, here⟩ := List.any_eq_true.mp found
      refine checked.popThrough free rfl (fun o isHeading => headings _ (List.contains_iff_mem.mp isHeading))
        (findInScope_mono (fun o _ isHtml => ?_) here)
      rw [eq_of_beq (Bool.and_eq_true_iff.mp isHtml).2]
      exact List.contains_iff_mem.mpr known
    · exact checked
  rw [Builder.endHeading]
  split
  · exact ended (s.dropImplied none)
  · exact ended s

theorem endEmbedded {name : String}
    (plain : seatTags.contains name = false ∧ passingTags.contains name = false)
    (lasts : impliedEndTags.contains name = false) : SeatKept b (c.endEmbedded name) := by
  rw [Builder.endEmbedded]
  split
  · next found => exact (s.close free rfl plain (Or.inl lasts) found _ _).clearToMarker
  · exact s.check _ _

end Ends

section Texts

variable (s : SeatKept b c)
include s

theorem endLineBreak : SeatKept b c.endLineBreak := (s.report _).reconstruct.insertVoid _

theorem markText (text : String) : SeatKept b (c.markText text) := by
  rw [Builder.markText]
  split
  · exact s
  · exact s.adjust rfl rfl rfl id rfl

theorem bodySpaces (text : String) : SeatKept b (c.bodySpaces text) := by
  have kept : SeatKept b { c with dropNewline := false } := s.adjust rfl rfl rfl id rfl
  rw [Builder.bodySpaces]
  split
  · exact kept
  · exact kept.reconstruct.insertText _

theorem bodyText (text : String) : SeatKept b (c.bodyText text) := by
  rw [Builder.bodyText]
  split
  · exact s
  · exact (s.reconstruct.insertText text).markText text

theorem fostered {step : Builder → Builder}
    (kept : ∀ {d : Builder}, SeatKept b d → SeatKept b (step d)) :
    SeatKept b (c.fostered step) :=
  (kept (s.adjust (d := { c with fostering := true }) rfl rfl rfl id rfl)).adjust rfl rfl rfl
    (fun absurd => by cases absurd) rfl

theorem flushText : SeatKept b c.flushText := by
  have emptied : SeatKept b { c with tableText := [] } := s.adjust rfl rfl rfl id rfl
  rw [Builder.flushText]
  split
  · split
    · exact emptied
    · exact emptied.insertText _
  · exact emptied.fostered fun seatKept => seatKept.bodyText _

theorem startRoot (t : Tag) : SeatKept b (c.startRoot t) := by
  rw [Builder.startRoot]
  split
  · exact (s.mergeAttrs _ _).adjust rfl rfl rfl id rfl
  · exact ((s.report _).mergeAttrs _ _).adjust rfl rfl rfl id rfl

theorem acknowledge : SeatKept b c.acknowledge := s.adjust rfl rfl rfl id rfl

theorem ruleOutFrameset : SeatKept b c.ruleOutFrameset := s.adjust rfl rfl rfl id rfl

theorem startVoid (t : Tag) : SeatKept b (c.startVoid t) := (s.insertVoid t).acknowledge

theorem startFormatting {t : Tag} (passing : passingTags.contains t.name = true) :
    SeatKept b (c.startFormatting t) := s.reconstruct.insertFormatting passing

theorem startEmbedded {t : Tag} (plain : seatTags.contains t.name = false) :
    SeatKept b (c.startEmbedded t) := (s.reconstruct.insert plain).pushMarker.ruleOutFrameset

theorem insertImage (t : Tag) : SeatKept b (c.insertImage t) :=
  (s.reconstruct.insertVoid t).ruleOutFrameset

theorem insertInput (t : Tag) : SeatKept b (c.insertInput t) := by
  rw [Builder.insertInput]
  split
  · exact (s.insertImage t).adjust rfl rfl rfl id rfl
  · exact s.insertImage t

theorem startOther {t : Tag} (plain : seatTags.contains t.name = false) : SeatKept b (c.startOther t) :=
  s.reconstruct.insert plain

theorem startTextarea {t : Tag} (plain : seatTags.contains t.name = false) :
    SeatKept b (c.startTextarea t) := (s.insert plain).adjust rfl rfl rfl id rfl

theorem startRuby {t : Tag} (plain : seatTags.contains t.name = false) : SeatKept b (c.startRuby t) := by
  rw [Builder.startRuby]
  split
  · exact ((s.dropImplied none).check _ _).insert plain
  · exact s.insert plain

end Texts

section Starts

variable (s : SeatKept b c) (free : Free b.stack)
include s free

theorem startBody (t : Tag) : SeatKept b (c.startBody t) := by
  have reported := s.report (.startTag "body")
  obtain ⟨front, body, root, shape, name, _⟩ :=
    reported.ordered.seated.exists_body (reported.free' free).1
  have second : (c.report (.startTag "body")).second = some body := by
    rw [Builder.second, shape, List.reverse_append]
    rfl
  rw [Builder.startBody, second]
  dsimp only
  rw [name, if_pos (beq_self_eq_true _)]
  exact (reported.mergeAttrs _ _).adjust rfl rfl rfl id rfl

theorem startBlock {t : Tag} (plain : seatTags.contains t.name = false) : SeatKept b (c.startBlock t) :=
  (s.leaveParagraph free).insert plain

theorem startLines {t : Tag} (plain : seatTags.contains t.name = false) : SeatKept b (c.startLines t) :=
  (s.startBlock free plain).adjust rfl rfl rfl id rfl

theorem startForm {t : Tag} (name : t.name = "form") : SeatKept b (c.startForm t) := by
  have plain : seatTags.contains t.name = false := by rw [name]; decide
  have started := s.startBlock free plain
  rw [Builder.startForm]
  split
  · exact s.report _
  · refine ⟨{ started.ordered with form := fun o entered => ?_ }, started.seat, started.mode,
      started.tableReturn, started.again, started.collapse, started.keeps⟩
    have current : (c.startBlock t).current ∈ (c.startBlock t).stack ∧
        (c.startBlock t).current.name = t.name := by
      rw [Builder.startBlock, Builder.current, Builder.insert, Builder.stack_insertPart]
      exact ⟨List.mem_cons_self, rfl⟩
    cases entered
    have tagged := started.ordered.named _ current.1
    rwa [current.2, name] at tagged

theorem startPlaintext {t : Tag} (plain : seatTags.contains t.name = false) :
    SeatKept b (c.startPlaintext t) := (s.startBlock free plain).adjust rfl rfl rfl id rfl

theorem startHeading {t : Tag} (plain : seatTags.contains t.name = false) :
    SeatKept b (c.startHeading t) := by
  have left := s.leaveParagraph free
  rw [Builder.startHeading]
  split
  · next heading =>
    have headings : ∀ name ∈ headingTags, seatTags.contains name = false := by decide
    refine ((left.report _).pop ?_).insert plain
    rw [Builder.current, Builder.stack_report]
    exact headings _ (List.contains_iff_mem.mp heading)
  · exact left.insert plain

theorem startLink {t : Tag} (name : t.name = "a") : SeatKept b (c.startLink t) := by
  have passing : passingTags.contains t.name = true := by rw [name]; decide
  rw [Builder.startLink]
  split
  · next o found =>
    obtain ⟨entry, isLink⟩ := mem_of_findFormatting found
    have link : passingTags.contains "a" = true := by decide
    have ended := ((SeatKept.refl s.ordered).report (.startImpliesEnd "a" "a")).endFormatting link
      (s.free' free).1
    have tagged := ended.keeps.tag _ _ (s.ordered.formatting o entry).2.2
    rw [isLink] at tagged
    exact (((s.trans ended).removeOpen tagged (by decide)).removeFormatting
      o).reconstruct.insertFormatting passing
  · exact s.reconstruct.insertFormatting passing

theorem startNoBreak {t : Tag} (name : t.name = "nobr") : SeatKept b (c.startNoBreak t) := by
  have passing : passingTags.contains t.name = true := by rw [name]; decide
  have opened := s.reconstruct
  rw [Builder.startNoBreak]
  split
  · exact (((opened.report _).endFormatting (by decide) free.1).reconstruct).insertFormatting passing
  · exact opened.insertFormatting passing

theorem insertRule (t : Tag) : SeatKept b (c.insertRule t) :=
  ((s.leaveParagraph free).insertVoid t).ruleOutFrameset

theorem startSearch (t : Tag) : SeatKept b (c.startSearch t) := by
  have reported := s.report (.deprecatedTag "isindex")
  rw [Builder.startSearch]
  split
  · exact reported
  · have started := ((((reported.startForm free (t := ⟨"form", t.attrs.filter (·.1 == "action"), false⟩)
      rfl).insertRule free (.implied "hr")).startOther (t := .implied "label") (by decide)).bodyText
        ((t.attr? "prompt").getD Builder.searchPrompt)).insertInput ⟨"input", Builder.withAttr
          (t.attrs.filter fun a => a.1 != "action" && a.1 != "prompt") "name" "isindex", t.selfClosing⟩
    have label : "label" ≠ Html.seat b.stack := by
      intro same
      exact absurd (isSeat_of_seat free.1.1) (by rw [← same]; decide)
    exact ((started.endOther (by rw [started.seat]; exact label)).insertRule free _).endForm

end Starts

end SeatKept

end HtmlTree.Html
