import HtmlTree.Proofs.Html.Furnishing

/-! A document that has its parts has them at every later token and at the end of the text, if
construction does not break down. -/

namespace HtmlTree.Html

variable {lost : Prop} {k : Anchors} {b c : Builder}

namespace Builder

variable {o : Open}

theorem mem_reopen (entries : List (Option Open)) : ∀ {b : Builder}, o ∈ b.stack →
    o ∈ (b.reopen entries).stack := by
  induction entries with
  | nil => exact fun inside => inside
  | cons entry entries ih =>
      intro b inside
      cases entry with
      | none => exact ih inside
      | some p =>
          apply ih
          change o ∈ (b.insertPart p.name p.space (b.arena.attrs p.id)).stack
          rw [stack_insertPart]
          exact List.mem_cons_of_mem _ inside

theorem mem_reconstruct (inside : o ∈ b.stack) : o ∈ b.reconstruct.stack := by
  rw [reconstruct]
  split
  · exact inside
  · exact mem_reopen _ inside

theorem mem_bodyText (inside : o ∈ b.stack) (text : String) : o ∈ (b.bodyText text).stack := by
  have inserted : o ∈ (b.reconstruct.insertText text).stack := by
    rw [stack_insertText]
    exact mem_reconstruct inside
  rw [bodyText]
  split
  · exact inside
  · rw [markText]
    split
    · exact inserted
    · exact inserted

theorem mem_fostered {step : Builder → Builder}
    (kept : ∀ {c : Builder}, o ∈ c.stack → o ∈ (step c).stack) (inside : o ∈ b.stack) :
    o ∈ (b.fostered step).stack := by
  have begun : o ∈ ({ b with fostering := true } : Builder).stack := inside
  exact kept begun

theorem mem_closeTableText (inside : o ∈ b.stack) : o ∈ b.closeTableText.stack := by
  change o ∈ b.flushText.stack
  rw [flushText]
  split
  · split
    · exact inside
    · rw [stack_insertText]
      exact inside
  · have emptied : o ∈ ({ b with tableText := [] } : Builder).stack := inside
    exact mem_fostered (fun here => mem_bodyText here _) emptied

end Builder

namespace Furnished

section Tokens

variable (h : Furnished lost k b)
include h

theorem late (alive : b.collapse = none) : b.mode.isLate = true :=
  h.mode.resolve_right fun dead => dead.2 alive

theorem startTag (alive : b.collapse = none) (t : Tag) (frames : t.name = "frameset" → lost) :
    Staged lost (b.startTag t) := by
  have late := h.late alive
  have back : ∀ f, Staged lost (((b.report f).goto .inBody).retry) := fun f =>
    ((h.report f).goto rfl (by decide)).retry.staged
  rw [Builder.startTag]
  split
  all_goals try (next mode => rw [mode] at late; cases late)
  · exact h.bodyStart t frames
  · exact h.startInTable t frames
  · next mode => exact (h.closeTableText mode).retry.staged
  · exact h.startInCaption t frames
  · exact (h.startInColumnGroup t).staged
  · exact h.startInTableBody t frames
  · exact h.startInRow t frames
  · exact h.startInCell t frames
  · exact h.startInSelect t
  · exact h.startInSelectInTable t
  · split
    · exact (h.rootKept (h.start.startRoot t)).staged
    · exact back _
  · exact h.startInFrameset t
  · split
    · exact (h.rootKept (h.start.startRoot t)).staged
    · next name => exact h.startInHead t (by rw [name]; decide)
    · exact (h.report _).staged
  · split
    · exact (h.rootKept (h.start.startRoot t)).staged
    · exact back _
  · split
    · exact (h.rootKept (h.start.startRoot t)).staged
    · next name => exact h.startInHead t (by rw [name]; decide)
    · exact (h.report _).staged

theorem holdText (text : String) : Furnished lost k (b.holdText text) := h.adjust rfl rfl rfl id

theorem characters (alive : b.collapse = none) (text : String) :
    Furnished lost k (b.characters text) := by
  have late := h.late alive
  have body : Furnished lost k (b.bodyText text) := h.rootKept (h.start.bodyText text)
  have back : ∀ f, Furnished lost k (((b.report f).goto .inBody).retry) := fun f =>
    ((h.report f).goto rfl (by decide)).retry
  have table : Furnished lost k
      (if text == Builder.nul then b.enterTableText else b.enterTableText.holdText text) := by
    split
    · exact h.enterTableText late
    · exact (h.enterTableText late).holdText text
  have select : Furnished lost k (if text == Builder.nul then b else b.insertText text) := by
    split
    · exact h
    · exact h.rootKept (h.start.insertText text)
  rw [Builder.characters]
  split
  all_goals try (next mode => rw [mode] at late; cases late)
  · exact body
  · exact body
  · exact body
  · exact table
  · exact table
  · exact table
  · split
    · exact h
    · exact h.holdText text
  · exact h.passColumns
  · exact select
  · exact select
  · exact back _
  · exact h.report _
  · exact h.report _
  · exact back _
  · exact h.report _

theorem spaces (alive : b.collapse = none) (text : String) : Furnished lost k (b.spaces text) := by
  have late := h.late alive
  have inserted : Furnished lost k (b.insertText text) := h.rootKept (h.start.insertText text)
  have body : Furnished lost k (b.bodySpaces text) := h.rootKept (h.start.bodySpaces text)
  have table : Furnished lost k (b.enterTableText.holdText text) :=
    (h.enterTableText late).holdText text
  rw [Builder.spaces]
  split
  all_goals try (next mode => rw [mode] at late; cases late)
  all_goals first
    | exact inserted
    | exact body
    | exact table
    | exact h.holdText text

theorem comment (data : String) : Furnished lost k (b.comment data) := by
  have inserted : ∀ i, Furnished lost k (b.insertComment i data) := fun i =>
    h.rootKept (h.start.insertComment i data)
  rw [Builder.comment]
  split
  on_goal 6 => next mode => exact (h.closeTableText mode).retry
  all_goals exact inserted _

theorem doctype (alive : b.collapse = none) (d : Doctype) : Furnished lost k (b.doctype d) := by
  have late := h.late alive
  rw [Builder.doctype]
  split
  · next mode =>
    rw [mode] at late
    cases late
  · exact h.report _

theorem ordinary (alive : b.collapse = none) (t : Token)
    (frames : ∀ tag, t = .startTag tag → tag.name = "frameset" → lost) :
    Staged lost (b.ordinary t) := by
  cases t with
  | startTag tag => exact h.startTag alive tag (frames tag rfl)
  | endTag name => exact (h.endTag (Or.inr alive)).staged
  | characters text => exact (h.characters alive text).staged
  | spaces text => exact (h.spaces alive text).staged
  | comment data => exact (h.comment data).staged
  | doctype d => exact (h.doctype alive d).staged

theorem startInForeign (t : Tag) : Furnished lost k (b.startInForeign t) := by
  have inserted : ∀ space name, Furnished lost k (b.insertForeign space t name) := fun space name =>
    h.rootKept (h.start.insertForeign space t name)
  rw [Builder.startInForeign]
  split
  · have reported := h.start.report (.htmlInForeign t.name)
    refine (h.rootKept (reported.trim (trims_popTo fun o last => ?_))).retry
    rw [reported.rooted.last_eq last, Builder.admitsHtml, reported.rooted.standard]
    rfl
  · split
    · exact h.rootKept (h.start.pop_insertPart ..).acknowledge
    · exact inserted _ _

theorem endInForeign (alive : b.collapse = none) (foreign : b.current.space ≠ .html) (name : String) :
    Furnished lost k (b.endInForeign name) := by
  have checked := h.rootKept (h.start.check (Text.lowerAll b.current.name == name) (.endTag name))
  have stack := b.stack_check (Text.lowerAll b.current.name == name) (.endTag name)
  have collapse : (if Text.lowerAll b.current.name == name then b
      else b.report (.endTag name)).collapse = none := by
    split
    · exact alive
    · exact (Builder.collapse_report ..).trans alive
  rw [Builder.endInForeign]
  generalize (if Text.lowerAll b.current.name == name then b else b.report (.endTag name)) = c
    at checked stack collapse ⊢
  have current : c.current = b.current := by rw [Builder.current, Builder.current, stack]
  obtain ⟨first, rest, shape⟩ := List.exists_cons_of_ne_nil checked.stack_ne
  simp only [shape]
  generalize found : (if (Text.lowerAll first.name == name) = true then some first
    else rest.find? fun p => p.space == c.standard || Text.lowerAll p.name == name) = entry
  cases entry with
  | none => exact checked
  | some o =>
      have here : o ∈ c.stack := by
        rw [shape]
        split at found
        · cases found
          exact List.mem_cons_self
        · exact List.mem_cons_of_mem _ (List.mem_of_find?_eq_some found)
      dsimp only
      split
      · next ends =>
        have ready : Furnished lost k (if c.mode = .inTableText then c.closeTableText else c) ∧
            o ∈ (if c.mode = .inTableText then c.closeTableText else c).stack := by
          split
          · next mode => exact ⟨checked.closeTableText mode, Builder.mem_closeTableText here⟩
          · exact ⟨checked, here⟩
        have apart : o.id ≠ k.root := by
          intro root
          have isRoot := checked.eq_root here root
          rcases Bool.or_eq_true_iff.mp (Bool.and_eq_true_iff.mp ends).2 with other | same
          · rw [isRoot, checked.standard] at other
            cases other
          · have bottom := checked.eq_root checked.current_mem ((eq_of_beq same).symm.trans root)
            rw [← current, bottom] at foreign
            exact foreign rfl
        exact ready.1.rootKept (ready.1.start.popThroughId ready.2 apart)
      · exact checked.endTag (Or.inr collapse)

theorem foreign (alive : b.collapse = none) (other : b.current.space ≠ .html) (t : Token) :
    Furnished lost k (b.foreign t) := by
  have inserted : ∀ text, RootKept k b (b.insertText text) := fun text => h.start.insertText text
  cases t with
  | startTag tag => exact h.startInForeign tag
  | endTag name => exact h.endInForeign alive other name
  | characters text =>
      rw [Builder.foreign]
      split
      · exact h.rootKept (inserted _)
      · exact h.rootKept ((inserted _).markText text)
  | spaces text => exact h.rootKept (inserted text)
  | comment data => exact h.rootKept (h.start.insertComment _ data)
  | doctype d => exact h.report _

theorem finishMode (alive : b.collapse = none) : Furnished lost k b.finishMode := by
  have late := h.late alive
  have checkedRoot : ∀ f, Furnished lost k (b.checkRoot f) := by
    intro f
    rw [Builder.checkRoot]
    split
    · exact h.needContext
    · exact h.report f
  have checked : Furnished lost k b.checkClosed := by
    rw [Builder.checkClosed]
    split
    · exact h
    · exact h.report _
  rw [Builder.finishMode]
  split
  all_goals try (next mode => rw [mode] at late; cases late)
  · exact checked
  · exact checked
  · exact checked
  · exact checkedRoot _
  · exact checkedRoot _
  · exact checkedRoot _
  · next mode => exact (h.closeTableText mode).retry
  · split
    · exact h.needContext
    · exact h.closeColumns.retry
  · exact checkedRoot _
  · exact checkedRoot _
  · exact checkedRoot _
  all_goals exact h

end Tokens

end Furnished

namespace Staged

theorem consume (h : Staged lost b) (alive : b.collapse = none) (t : Token)
    (frames : ∀ tag, t = .startTag tag → tag.name = "frameset" → lost) : Staged lost (b.consume t) := by
  obtain ⟨k, furnished | raw⟩ := h
  · rw [Builder.consume]
    split
    · next foreign =>
      have other := Builder.space_of_isForeign foreign
      rw [furnished.standard] at other
      exact (furnished.foreign alive other t).staged
    · exact furnished.ordinary alive t frames
  · rw [raw.consume]
    exact ⟨k, (raw.ordinary lasting_furnished t).symm⟩

theorem finishMode (h : Staged lost b) (alive : b.collapse = none) : Staged lost b.finishMode := by
  obtain ⟨k, furnished | raw⟩ := h
  · exact (furnished.finishMode alive).staged
  · exact (raw.finishMode lasting_furnished).staged

theorem finishWithin (n : Nat) : ∀ {b : Builder}, Staged lost b → b.collapse = none →
    Staged lost (Builder.finishWithin n b) := by
  induction n with
  | zero => exact fun h _ => h
  | succ n ih =>
      intro b h alive
      have finished := (h.adjust (c := { b with again := false }) rfl rfl rfl rfl rfl id).finishMode alive
      rw [Builder.finishWithin]
      split
      · next more => exact ih finished (Option.isNone_iff_eq_none.mp (Bool.and_eq_true_iff.mp more).2)
      · exact finished

end Staged

end HtmlTree.Html
