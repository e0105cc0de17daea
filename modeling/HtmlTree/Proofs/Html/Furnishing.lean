import HtmlTree.Proofs.Html.Furnished

/-! What start tags and text do to a document that has its parts. Only a frameset takes one away. -/

namespace HtmlTree.Html

variable {lost : Prop} {k : Anchors} {b c : Builder}

namespace Builder

def startFits : BodyStart → String → Bool
  | .head, name => lateHeadTags.contains name
  | .frameset, name => name == "frameset"
  | _, _ => true

theorem startFits_of_ruleFor {name : String} {kind : BodyStart}
    (found : ruleFor bodyStarts name = some kind) : startFits kind name = true :=
  ruleFor_spec (by decide +kernel) found

end Builder

theorem Rooted.without_body (rooted : Rooted k b) {i : Nat} (free : i ≠ Arena.document)
    (apart : i ≠ k.root ∧ k.head ≠ some i) :
    Rooted { k with body := none } { b with arena := b.arena.detach i } where
  planted := by
    apply rooted.planted.without_body.detach
    rintro (here | here | here | here)
    · exact free here
    · exact apart.1 here
    · exact apart.2 here
    · cases here
  named o inside := by
    rw [Arena.tag?, Arena.part_detach, ← Arena.tag?]
    exact rooted.named o inside
  last := rooted.last
  layered := rooted.layered.imp fun both => ⟨both.1, fun held => both.2 (Anchors.holds_of_without_body held)⟩
  formatting o inside held := rooted.formatting o inside (Anchors.holds_of_without_body held)
  form o same held := rooted.form o same (Anchors.holds_of_without_body held)
  context := rooted.context
  standard := rooted.standard

namespace Furnished

section StartTags

variable (h : Furnished lost k b)
include h

theorem insertRaw (t : Tag) (kind : TextKind) : Staged lost (b.insertRaw t kind) :=
  ⟨k, Or.inr (InRaw.enter lasting_furnished h.toRooted h t kind)⟩

theorem startInHead (t : Tag) (known : Builder.lateHeadTags.contains t.name = true) :
    Staged lost (b.startInHead t) := by
  rcases Builder.startInHead_late known with shape | shape | ⟨kind, _, shape⟩
  · rw [shape]
    exact (h.rootKept (h.start.startVoid t)).staged
  · rw [shape]
    exact staged (adjust (h.rootKept (h.start.startVoid t)) rfl rfl rfl id)
  · rw [shape]
    exact h.insertRaw t kind

theorem startFrameset (t : Tag) (frames : lost) : Staged lost (b.startFrameset t) := by
  have reported := h.report (.startTag "frameset")
  rw [Builder.startFrameset]
  split
  · next body second =>
    split
    · next isBody =>
      split
      · have inside : body ∈ (b.report (.startTag "frameset")).stack :=
          List.mem_reverse.mp (List.mem_of_getElem? second)
        have named := reported.named body inside
        have apart : body.id ≠ k.root ∧ k.head ≠ some body.id := by
          rw [eq_of_beq isBody] at named
          constructor
          · intro root
            rw [root, reported.planted.root] at named
            exact absurd named (by decide)
          · intro head
            rw [reported.planted.head _ head] at named
            exact absurd named (by decide)
        have left : Furnished lost { k with body := none } { b.report (.startTag "frameset") with
            arena := (b.report (.startTag "frameset")).arena.detach body.id } :=
          ⟨reported.without_body (reported.ne_document inside) apart, h.head, Or.inl frames,
            reported.mode, reported.tableReturn⟩
        exact ((left.rootKept ((left.start.popToNames (by decide)).insert t)).goto rfl
          (by decide)).staged
      · exact reported.staged
    · exact reported.needContext.staged
  · exact reported.needContext.staged

theorem startListItem (t : Tag) : Furnished lost k (b.startListItem t) := by
  have items : ∀ {name : String}, (Builder.itemsEndedBy t.name).contains name = true →
      (name == "head" || Builder.partTags.contains name) = false := by
    intro name ended
    rw [Builder.itemsEndedBy] at ended
    split at ended
    all_goals
      have known := List.contains_iff_mem.mp ended
      simp only [List.mem_cons, List.not_mem_nil, or_false] at known
      rcases known with rfl | rfl <;> decide
  have paragraph : ∀ {c : Builder}, Furnished lost k c → Furnished lost k
      ((if c.inScope .button "p" then c.settled (·.endTag "p") else c).insert t) := by
    intro c furnished
    have other : ("p" == "head" || Builder.partTags.contains "p") = false := by decide
    split
    · have ended := settled (furnished.endTag (Or.inl other))
      exact ended.rootKept (ended.start.insert t)
    · exact furnished.rootKept (furnished.start.insert t)
  have begun := h.rootKept h.start.ruleOutFrameset
  rw [Builder.startListItem]
  split
  · split
    · next ended => exact paragraph (settled (begun.endTag (Or.inl (items ended))))
    · exact paragraph begun
  · exact paragraph begun

theorem startTable (t : Tag) : Furnished lost k (b.startTable t) := by
  have opened : ∀ {c : Builder}, RootKept k b c →
      Furnished lost k (((c.insert t).ruleOutFrameset).goto .inTable) := fun s =>
    (h.rootKept (s.insert t).ruleOutFrameset).goto rfl (by decide)
  rw [Builder.startTable]
  split
  · exact opened h.start
  · exact opened h.start.leaveParagraph

theorem startSelect (t : Tag) : Furnished lost k (b.startSelect t) := by
  have opened := h.rootKept (h.start.reconstruct.insert t).ruleOutFrameset
  rw [Builder.startSelect]
  split
  · exact opened.goto rfl (by decide)
  · exact opened.goto rfl (by decide)

theorem startOption (t : Tag) : Furnished lost k (b.startOption t) := by
  have opened : ∀ {c : Builder}, Furnished lost k c → Furnished lost k (c.reconstruct.insert t) :=
    fun furnished => furnished.rootKept (furnished.start.reconstruct.insert t)
  have other : ("option" == "head" || Builder.partTags.contains "option") = false := by decide
  rw [Builder.startOption]
  split
  · exact opened (settled (h.endTag (Or.inl other)))
  · exact opened h

theorem bodyStart (t : Tag) (frames : t.name = "frameset" → lost) : Staged lost (b.bodyStart t) := by
  rw [Builder.bodyStart]
  split
  · exact (h.rootKept (h.start.startRoot t)).staged
  · next found => exact h.startInHead t (Builder.startFits_of_ruleFor found)
  · exact (h.rootKept (h.start.startBody t)).staged
  · next found => exact h.startFrameset t (frames (eq_of_beq (Builder.startFits_of_ruleFor found)))
  · exact (h.rootKept (h.start.startBlock t)).staged
  · exact (h.rootKept (h.start.startHeading t)).staged
  · exact (h.rootKept (h.start.startLines t)).staged
  · exact (h.rootKept (h.start.startForm t)).staged
  · exact (h.startListItem t).staged
  · exact (h.rootKept (h.start.startPlaintext t)).staged
  · exact (h.rootKept (h.start.startLink t)).staged
  · exact (h.rootKept (h.start.startFormatting t)).staged
  · exact (h.rootKept (h.start.startNoBreak t)).staged
  · exact (h.rootKept (h.start.startButton t)).staged
  · exact (h.rootKept (h.start.startEmbedded t)).staged
  · exact (h.rootKept h.start.leaveParagraph.reconstruct.ruleOutFrameset).insertRaw t _
  · exact (h.startTable t).staged
  · exact (h.rootKept (h.start.insertImage t).acknowledge).staged
  · exact (h.rootKept (h.start.startVoid t)).staged
  · exact (h.rootKept (h.start.insertInput t).acknowledge).staged
  · exact (h.rootKept (h.start.insertRule t).acknowledge).staged
  · exact (h.rootKept ((h.start.report _).insertImage _)).staged
  · exact (h.rootKept (h.start.startSearch t)).staged
  · exact (h.rootKept (h.start.startTextarea t)).staged
  · exact (h.rootKept h.start.ruleOutFrameset).insertRaw t _
  · exact h.insertRaw t _
  · exact (h.startSelect t).staged
  · exact (h.rootKept (h.start.startRuby t)).staged
  · exact (h.startOption t).staged
  · exact (h.rootKept (h.start.startForeign _ t)).staged
  · exact (h.rootKept (h.start.startForeign _ t)).staged
  · exact (h.report _).staged
  · exact (h.rootKept (h.start.startOther t)).staged

theorem clearToTable : RootKept k b b.clearToTable := h.start.popToNames (by decide)

theorem startColumns (t : Tag) : Furnished lost k (b.startColumns t) :=
  (h.rootKept (h.clearToTable.insert t)).goto rfl (by decide)

theorem startRowGroup (t : Tag) : Furnished lost k (b.startRowGroup t) :=
  (h.rootKept (h.clearToTable.insert t)).goto rfl (by decide)

theorem startTableAgain : Furnished lost k b.startTableAgain := by
  have other : ("table" == "head" || Builder.partTags.contains "table") = false := by decide
  have ended := settled ((h.report (.startImpliesEnd "table" "table")).endTag (Or.inl other))
  rw [Builder.startTableAgain]
  split
  · exact ended
  · exact ended.retry

theorem startFormInTable (t : Tag) (other : t.name ≠ "html") :
    Furnished lost k (b.startFormInTable t) := by
  have reported := h.start.report .formInTable
  rw [Builder.startFormInTable]
  split
  · exact h.rootKept reported
  · have entered := (reported.insert t).setForm (reported.free_insertPart _ _ _)
    refine h.rootKept (entered.pop ⟨⟨(b.report .formInTable).arena.size, t.name,
      (b.report .formInTable).standard⟩, ?_, other⟩)
    change _ ∈ ((b.report .formInTable).insert t).stack
    rw [Builder.insert, Builder.stack_insertPart]
    exact List.mem_cons_self

theorem startMisnested (t : Tag) (frames : t.name = "frameset" → lost) :
    Staged lost (b.startMisnested t) := by
  have begun : Furnished lost k { b.report (.startTagInTable t.name) with fostering := true } :=
    (h.report _).adjust rfl rfl rfl id
  exact (begun.bodyStart t frames).adjust rfl rfl rfl rfl rfl id

theorem startInTable (t : Tag) (frames : t.name = "frameset" → lost) :
    Staged lost (b.startInTable t) := by
  rw [Builder.startInTable]
  split
  · exact (h.rootKept (h.start.startRoot t)).staged
  · exact ((h.rootKept (h.clearToTable.pushMarker.insert t)).goto rfl (by decide)).staged
  · exact (h.startColumns t).staged
  · exact (h.startColumns _).retry.staged
  · exact (h.startRowGroup t).staged
  · exact (h.startRowGroup t).staged
  · exact (h.startRowGroup t).staged
  · exact (h.startRowGroup _).retry.staged
  · exact (h.startRowGroup _).retry.staged
  · exact (h.startRowGroup _).retry.staged
  · exact h.startTableAgain.staged
  · next name => exact h.startInHead t (by rw [name]; decide)
  · next name => exact h.startInHead t (by rw [name]; decide)
  · split
    · exact (h.rootKept ((h.start.report _).insertVoid t)).staged
    · exact h.startMisnested t frames
  · next name => exact (h.startFormInTable t (by rw [name]; decide)).staged
  · exact h.startMisnested t frames

theorem startInCaption (t : Tag) (frames : t.name = "frameset" → lost) :
    Staged lost (b.startInCaption t) := by
  rw [Builder.startInCaption]
  split
  · exact (h.rootKept (h.start.startRoot t)).staged
  on_goal 10 => exact h.bodyStart t frames
  all_goals exact h.passCaption.staged

theorem startInColumnGroup (t : Tag) : Furnished lost k (b.startInColumnGroup t) := by
  rw [Builder.startInColumnGroup]
  split
  · exact h.rootKept (h.start.startRoot t)
  · exact h.rootKept (h.start.startVoid t)
  · exact h.passColumns

theorem startRow (t : Tag) : Furnished lost k (b.startRow t) :=
  (h.rootKept (h.clearToRowGroup.insert t)).goto rfl (by decide)

theorem startInTableBody (t : Tag) (frames : t.name = "frameset" → lost) :
    Staged lost (b.startInTableBody t) := by
  rw [Builder.startInTableBody]
  split
  · exact (h.rootKept (h.start.startRoot t)).staged
  · exact (h.startRow t).staged
  · exact ((h.report _).startRow _).retry.staged
  · exact ((h.report _).startRow _).retry.staged
  on_goal 7 => exact h.startInTable t frames
  all_goals exact h.passRowGroup.staged

theorem startInRow (t : Tag) (frames : t.name = "frameset" → lost) :
    Staged lost (b.startInRow t) := by
  have entered : Furnished lost k ((b.clearToRow.insert t).goto .inCell) :=
    (h.rootKept (h.clearToRow.insert t)).goto rfl (by decide)
  have opened := entered.rootKept entered.start.pushMarker
  rw [Builder.startInRow]
  split
  · exact (h.rootKept (h.start.startRoot t)).staged
  · exact opened.staged
  · exact opened.staged
  on_goal 8 => exact h.startInTable t frames
  all_goals exact h.passRow.staged

theorem startInCell (t : Tag) (frames : t.name = "frameset" → lost) :
    Staged lost (b.startInCell t) := by
  have left : Staged lost
      (if ["td", "th"].any (b.inScope .table) then b.closeCell.retry else b.missing) := by
    split
    · exact h.closeCell.retry.staged
    · exact h.missing.staged
  rw [Builder.startInCell]
  split
  · exact (h.rootKept (h.start.startRoot t)).staged
  on_goal 10 => exact h.bodyStart t frames
  all_goals exact left

theorem popIfCurrent {name : String} (other : name ≠ "html") : RootKept k b (b.popIfCurrent name) := by
  rw [Builder.popIfCurrent]
  split
  · next current => exact h.start.pop_current fun root => other ((eq_of_beq current).symm.trans root)
  · exact h.start

theorem startInSelect (t : Tag) : Staged lost (b.startInSelect t) := by
  have option := h.rootKept (h.popIfCurrent (by decide : "option" ≠ "html"))
  have group := option.rootKept (option.popIfCurrent (by decide : "optgroup" ≠ "html"))
  have left : Furnished lost k (if (b.report .inputInSelect).inScope .select "select" then
      (b.report .inputInSelect).endSelect.retry else (b.report .inputInSelect).needContext) := by
    split
    · exact (h.report _).endSelect.retry
    · exact (h.report _).needContext
  rw [Builder.startInSelect]
  split
  · exact (h.rootKept (h.start.startRoot t)).staged
  · exact (option.rootKept (option.start.insert t)).staged
  · exact (group.rootKept (group.start.insert t)).staged
  · exact (h.report _).endSelect.staged
  · exact left.staged
  · exact left.staged
  · exact left.staged
  · exact h.insertRaw t _
  · exact (h.report _).staged

theorem startInSelectInTable (t : Tag) : Staged lost (b.startInSelectInTable t) := by
  rw [Builder.startInSelectInTable]
  split
  · exact (h.report _).endSelect.retry.staged
  · exact h.startInSelect t

theorem startInFrameset (t : Tag) : Staged lost (b.startInFrameset t) := by
  rw [Builder.startInFrameset]
  split
  · exact (h.rootKept (h.start.startRoot t)).staged
  · exact (h.rootKept (h.start.insert t)).staged
  · exact (h.rootKept (h.start.insertVoid t)).staged
  · next name => exact h.bodyStart t fun frames => absurd (name.symm.trans frames) (by decide)
  · exact (h.report _).staged

end StartTags

end Furnished

end HtmlTree.Html
