import HtmlTree.Proofs.Html.Opening
import HtmlTree.Proofs.Html.Staging

/-! Construction from its first token to the end of the text: it comes to a document with all its
parts, unless it breaks down. -/

namespace HtmlTree.Html

variable {lost : Prop} {k : Anchors} {b c : Builder}

/-- Construction is at some stage, before the start of the body or after it. -/
def Underway (lost : Prop) (b : Builder) : Prop := Stage lost b ∨ Staged lost b

theorem Blank.consume (h : Blank b) (t : Token) : b.consume t = b.ordinary t := by
  have foreign : b.isForeign t = false := by
    simp only [Builder.isForeign.eq_def, h.stack, List.isEmpty_nil, Bool.true_or, if_true]
  rw [Builder.consume, foreign, if_neg Bool.false_ne_true]

theorem Early.consume (h : Early k b) (t : Token) : b.consume t = b.ordinary t := by
  have html : b.current.space = b.standard := (h.html _ h.current_mem).trans h.standard.symm
  rw [Builder.consume, if_neg fun foreign => Builder.space_of_isForeign foreign html]

theorem Stage.adjust (h : Stage lost b) (core : c.core = b.core) (head : c.head = b.head)
    (mode : c.mode = b.mode) (textReturn : c.textReturn = b.textReturn)
    (tableReturn : c.tableReturn = b.tableReturn) (collapse : c.collapse = none → b.collapse = none)
    (again : b.again = false → c.again = false) : Stage lost c := by
  cases h with
  | blank h => exact .blank (h.adjust core (mode ▸ h.mode))
  | early h => exact .early (h.adjust core head mode)
  | raw h once =>
      exact .raw (h.adjust lasting_early core head mode textReturn tableReturn collapse) (again once)
  | body h fresh =>
      exact .body (h.adjust core mode tableReturn collapse)
        (fresh.imp (fun framed => framed.adjust core mode) fun fresh => fresh.adjust core mode)

namespace Underway

theorem adjust (h : Underway lost b) (core : c.core = b.core) (head : c.head = b.head)
    (mode : c.mode = b.mode) (textReturn : c.textReturn = b.textReturn)
    (tableReturn : c.tableReturn = b.tableReturn) (collapse : c.collapse = none → b.collapse = none)
    (again : b.again = false → c.again = false) : Underway lost c :=
  h.imp (fun stage => stage.adjust core head mode textReturn tableReturn collapse again)
    fun staged => staged.adjust core head mode textReturn tableReturn collapse

theorem report (h : Underway lost b) (f : Fault) : Underway lost (b.report f) := by
  rw [Builder.report]
  split
  · exact h
  · exact h.adjust rfl rfl rfl rfl rfl id id

theorem consume (h : Underway lost b) (once : b.again = false) (alive : b.collapse = none) (t : Token)
    (frames : ∀ tag, t = .startTag tag → tag.name = "frameset" → lost) :
    Underway lost (b.consume t) := by
  rcases h with stage | staged
  · cases stage with
    | blank h =>
        rw [h.consume]
        exact Or.inl (h.ordinary t).stage
    | early h =>
        rw [h.consume]
        exact Or.inl (h.ordinary once t frames).stage
    | raw h _ =>
        have again := Builder.again_ordinary h.mode t
        rw [h.consume]
        rcases h.ordinary lasting_early t with raw | early
        · exact Or.inl (.raw raw (again.trans once))
        · exact Or.inl (.early early)
    | body h _ => exact Or.inr (Staged.consume h.staged alive t frames)
  · exact Or.inr (staged.consume alive t frames)

theorem consumeWithin {t : Token} (frames : ∀ tag, t = .startTag tag → tag.name = "frameset" → lost)
    (n : Nat) : ∀ {b : Builder}, Underway lost b → b.collapse = none →
      Underway lost (Builder.consumeWithin n t b) := by
  induction n with
  | zero => exact fun h _ => h
  | succ n ih =>
      intro b h alive
      have once := h.adjust (c := { b with again := false }) rfl rfl rfl rfl rfl id fun _ => rfl
      have consumed := once.consume rfl alive t frames
      rw [Builder.consumeWithin]
      split
      · next more => exact ih consumed (Option.isNone_iff_eq_none.mp (Bool.and_eq_true_iff.mp more).2)
      · exact consumed

theorem step (h : Underway lost b) (alive : b.collapse = none) (t : Token)
    (frames : ∀ tag, t = .startTag tag → tag.name = "frameset" → lost) :
    Underway lost (b.step t) := by
  have begun := h.adjust (c := { b with acknowledged := false }) rfl rfl rfl rfl rfl id id
  have consumed := consumeWithin frames b.turns begun alive
  rw [Builder.step, Builder.checkSolidus.eq_def]
  split
  · split
    · exact consumed.report _
    · exact consumed
  · exact consumed

end Underway

theorem Stage.finishMode (h : Stage lost b) : (∃ k, Furnished lost k b) ∨
    Proceeds lost b b.finishMode ∧ b.finishMode.again = true ∧
      b.finishMode.mode.ahead < b.mode.ahead := by
  cases h with
  | blank h => exact Or.inr h.finishMode
  | early h => exact Or.inr h.finishMode
  | raw h _ =>
      have early := h.finishMode lasting_early
      have here := early.mode
      refine Or.inr ⟨early.proceeds ?_, ?_, ?_⟩
      · rw [Builder.finishMode, h.mode]
        exact b.collapse_report _
      · rw [Builder.finishMode, h.mode]
        rfl
      · rw [h.mode]
        exact Mode.ahead_of_isEarly here
  | body h _ => exact Or.inl ⟨_, h⟩

theorem Stage.finishWithin (n : Nat) : ∀ {b : Builder}, Stage lost b → b.collapse = none →
    b.mode.ahead < n → Staged lost (Builder.finishWithin n b) := by
  induction n with
  | zero => exact fun _ _ absurd => (Nat.not_lt_zero _ absurd).elim
  | succ n ih =>
      intro b h alive enough
      have once := h.adjust (c := { b with again := false }) rfl rfl rfl rfl rfl id fun _ => rfl
      rcases once.finishMode with ⟨k, furnished⟩ | ⟨proceeds, again, less⟩
      · exact Staged.finishWithin (n + 1) (furnished.adjust (c := b) rfl rfl rfl id).staged alive
      · have alive := proceeds.collapse.trans alive
        rw [Builder.finishWithin]
        split
        · exact ih proceeds.stage alive (Nat.lt_of_lt_of_le less (Nat.le_of_lt_succ enough))
        · next done =>
          rw [again, alive] at done
          exact (done rfl).elim

/-- At the end of the text the document has its parts. -/
theorem Underway.finish (h : Underway lost b) (alive : b.collapse = none) : Staged lost b.finish := by
  have enough : ∀ m : Mode, m.ahead < Builder.modeCount := by
    intro m
    cases m <;> decide
  rcases h with stage | staged
  · exact stage.finishWithin Builder.modeCount alive (enough _)
  · exact staged.finishWithin Builder.modeCount alive

end HtmlTree.Html
