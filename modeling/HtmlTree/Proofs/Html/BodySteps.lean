import HtmlTree.Proofs.Html.Adoption

/-! Elements that start and end in the body, and text in it: the root stands after all of them. -/

namespace HtmlTree.Html

variable {k : Anchors} {b c d : Builder}

def TextKind.isVerbatim : TextKind → Bool
  | .escapableText | .rawText | .script => true
  | .plaintext => false

namespace Builder

/-- Where raw text begins, the lexer is told. -/
def Tells (b : Builder) : Prop :=
  b.mode = .text → ∃ kind, b.lexerState = some kind ∧ kind.isVerbatim = true

theorem exists_of_inScope {scope : Scope} {name : String} (found : b.inScope scope name = true) :
    ∃ o ∈ b.stack, o.name = name := by
  obtain ⟨o, inside, here⟩ := exists_of_findInScope found
  exact ⟨o, inside, eq_of_beq (Bool.and_eq_true_iff.mp here).2⟩

theorem exists_of_any_inScope {scope : Scope} {names : List String}
    (found : names.any (b.inScope scope) = true) : ∃ o ∈ b.stack, names.contains o.name = true := by
  obtain ⟨name, known, here⟩ := List.any_eq_true.mp found
  obtain ⟨o, inside, rfl⟩ := exists_of_inScope here
  exact ⟨o, inside, List.contains_iff_mem.mpr known⟩

theorem ruleFor_spec {α : Type} {rules : List (List String × α)} {fits : α → String → Bool}
    (all : (rules.all fun rule => rule.1.all (fits rule.2)) = true) {name : String} {r : α}
    (found : ruleFor rules name = some r) : fits r name = true := by
  rw [ruleFor, Option.map_eq_some_iff] at found
  obtain ⟨rule, first, rfl⟩ := found
  have known := List.all_eq_true.mp all rule (List.mem_of_find?_eq_some first)
  have here := List.find?_some first
  exact List.all_eq_true.mp known name (List.contains_iff_mem.mp here)

/-- What the names of a rule for end tags have in common. -/
def endFits : BodyEnd → String → Bool
  | .root, _ => true
  | .block, name | .embedded, name => name != "html" && !impliedEndTags.contains name
  | _, name => name != "html"

theorem endFits_of_ruleFor {name : String} {rule : BodyEnd}
    (found : ruleFor bodyEnds name = some rule) : endFits rule name = true :=
  ruleFor_spec (by decide +kernel) found

def lateHeadTags : List String :=
  ["base", "basefont", "bgsound", "command", "link", "meta", "noframes", "script", "style", "title"]

theorem startInHead_late {t : Tag} (late : lateHeadTags.contains t.name = true) :
    b.startInHead t = b.startVoid t ∨
      b.startInHead t = { b.startVoid t with declaration := some t } ∨
        ∃ kind, kind.isVerbatim = true ∧ b.startInHead t = b.insertRaw t kind := by
  have known := List.contains_iff_mem.mp late
  simp only [lateHeadTags, List.mem_cons, List.not_mem_nil, or_false] at known
  rcases known with name | name | name | name | name | name | name | name | name | name
  all_goals rw [startInHead, name]
  · exact Or.inl rfl
  · exact Or.inl rfl
  · exact Or.inl rfl
  · exact Or.inl rfl
  · exact Or.inl rfl
  · exact Or.inr (Or.inl rfl)
  · exact Or.inr (Or.inr ⟨_, rfl, rfl⟩)
  · exact Or.inr (Or.inr ⟨_, rfl, rfl⟩)
  · exact Or.inr (Or.inr ⟨_, rfl, rfl⟩)
  · exact Or.inr (Or.inr ⟨_, rfl, rfl⟩)

end Builder

namespace RootKept

theorem adjust (s : RootKept k b c) (core : d.core = c.core) (mode : d.mode = c.mode)
    (tableReturn : d.tableReturn = c.tableReturn) (collapse : d.collapse = c.collapse) :
    RootKept k b d :=
  ⟨s.rooted.same core, mode.trans s.mode, tableReturn.trans s.tableReturn,
    fun alive => s.collapse (collapse ▸ alive)⟩

theorem close (s : RootKept k b c) {name : String} {except : Option String}
    (found : ∃ o ∈ c.stack, o.name = name) (other : name ≠ "html")
    (lasts : impliedEndTags.contains name = false ∨ some name = except) (p : Prop) [Decidable p]
    (f : Fault) : RootKept k b
      ((if p then c.dropImplied except else (c.dropImplied except).report f).popThroughName name) := by
  apply ((s.dropImplied except).check p f).popThroughName _ other
  obtain ⟨o, inside, rfl⟩ := found
  rw [Builder.stack_check]
  exact ⟨o, mem_dropImplied inside lasts, rfl⟩

theorem closeParagraph (s : RootKept k b c) (found : ∃ o ∈ c.stack, o.name = "p") :
    RootKept k b c.closeParagraph :=
  s.close found (by decide) (Or.inr rfl) _ _

theorem leaveParagraph (s : RootKept k b c) : RootKept k b c.leaveParagraph := by
  rw [Builder.leaveParagraph]
  split
  · next found => exact s.closeParagraph (Builder.exists_of_inScope found)
  · exact s

theorem endParagraph (s : RootKept k b c) : RootKept k b c.endParagraph := by
  rw [Builder.endParagraph]
  split
  · next found => exact s.closeParagraph (Builder.exists_of_inScope found)
  · apply ((s.insert (.implied "p")).report (.endTag "p")).closeParagraph
    rw [Builder.stack_report, Builder.insert, Builder.stack_insertPart]
    exact ⟨_, List.mem_cons_self, rfl⟩

theorem checkCurrent (s : RootKept k b c) (name : String) : RootKept k b (c.checkCurrent name) :=
  s.check _ _

theorem endBlock (s : RootKept k b c) {name : String} (other : name ≠ "html")
    (lasts : impliedEndTags.contains name = false) : RootKept k b (c.endBlock name) := by
  have ended : ∀ {d : Builder}, RootKept k b d → RootKept k b
      (if d.inScope .plain name then ((d.dropImplied none).checkCurrent name).popThroughName name
      else d.checkCurrent name) := by
    intro d rootKept
    split
    · next found => exact rootKept.close (Builder.exists_of_inScope found) other (Or.inl lasts) _ _
    · exact rootKept.checkCurrent name
  rw [Builder.endBlock]
  split
  · exact ended (s.adjust rfl rfl rfl rfl)
  · exact ended s

theorem endForm (s : RootKept k b c) : RootKept k b c.endForm := by
  have forgotten : RootKept k b { c with form := none } :=
    ⟨{ s.rooted with form := fun _ absurd => by cases absurd }, s.mode, s.tableReturn, s.collapse⟩
  rw [Builder.endForm]
  split
  · exact forgotten.report _
  · next o form =>
    split
    · exact ((forgotten.dropImplied none).check _ _).removeOpen (s.rooted.form o form)
    · exact forgotten.report _

theorem endListItem (s : RootKept k b c) {name : String} (other : name ≠ "html") :
    RootKept k b (c.endListItem name) := by
  rw [Builder.endListItem]
  generalize (if (name == "li") = true then Scope.list else Scope.plain) = scope
  split
  · next found => exact s.close (Builder.exists_of_inScope found) other (Or.inr rfl) _ _
  · exact s.report _

theorem endHeading (s : RootKept k b c) (name : String) : RootKept k b (c.endHeading name) := by
  have ended : ∀ {d : Builder}, RootKept k b d → RootKept k b
      (if headingTags.any ((d.checkCurrent name).inScope .plain) then
        { d.checkCurrent name with
          stack := popThrough (fun o => headingTags.contains o.name) (d.checkCurrent name).stack }
      else d.checkCurrent name) := by
    intro d rootKept
    have checked := rootKept.checkCurrent name
    split
    · next found =>
      refine checked.trim (trims_popThrough (Builder.exists_of_any_inScope found) fun o last => ?_)
      rw [checked.rooted.last_eq last]
      rfl
    · exact checked
  rw [Builder.endHeading]
  split
  · exact ended (s.dropImplied none)
  · exact ended s

theorem endEmbedded (s : RootKept k b c) {name : String} (other : name ≠ "html")
    (lasts : impliedEndTags.contains name = false) : RootKept k b (c.endEmbedded name) := by
  rw [Builder.endEmbedded]
  split
  · next found =>
    exact (s.close (Builder.exists_of_inScope found) other (Or.inl lasts) _ _).clearToMarker
  · exact s.checkCurrent name

theorem endLineBreak (s : RootKept k b c) : RootKept k b c.endLineBreak :=
  (s.report _).reconstruct.insertVoid _

theorem markText (s : RootKept k b c) (text : String) : RootKept k b (c.markText text) := by
  rw [Builder.markText]
  split
  · exact s
  · exact s.adjust rfl rfl rfl rfl

theorem bodySpaces (s : RootKept k b c) (text : String) : RootKept k b (c.bodySpaces text) := by
  have kept : RootKept k b { c with dropNewline := false } := s.adjust rfl rfl rfl rfl
  rw [Builder.bodySpaces]
  split
  · exact kept
  · exact kept.reconstruct.insertText _

theorem bodyText (s : RootKept k b c) (text : String) : RootKept k b (c.bodyText text) := by
  rw [Builder.bodyText]
  split
  · exact s
  · exact (s.reconstruct.insertText text).markText text

theorem fostered (s : RootKept k b c) {step : Builder → Builder}
    (kept : ∀ {d : Builder}, RootKept k b d → RootKept k b (step d)) :
    RootKept k b (c.fostered step) :=
  (kept (s.adjust (d := { c with fostering := true }) rfl rfl rfl rfl)).adjust rfl rfl rfl rfl

theorem flushText (s : RootKept k b c) : RootKept k b c.flushText := by
  have emptied : RootKept k b { c with tableText := [] } := s.adjust rfl rfl rfl rfl
  rw [Builder.flushText]
  split
  · split
    · exact emptied
    · exact emptied.insertText _
  · exact emptied.fostered fun rootKept => rootKept.bodyText _

theorem startRoot (s : RootKept k b c) (t : Tag) : RootKept k b (c.startRoot t) := by
  rw [Builder.startRoot]
  split
  · exact (s.mergeAttrs _ _).adjust rfl rfl rfl rfl
  · exact ((s.report _).mergeAttrs _ _).adjust rfl rfl rfl rfl

theorem acknowledge (s : RootKept k b c) : RootKept k b c.acknowledge := s.adjust rfl rfl rfl rfl

theorem retry (s : RootKept k b c) : RootKept k b c.retry := s.adjust rfl rfl rfl rfl

theorem ruleOutFrameset (s : RootKept k b c) : RootKept k b c.ruleOutFrameset :=
  s.adjust rfl rfl rfl rfl

theorem startVoid (s : RootKept k b c) (t : Tag) : RootKept k b (c.startVoid t) :=
  (s.insertVoid t).acknowledge

theorem startBody (s : RootKept k b c) (t : Tag) : RootKept k b (c.startBody t) := by
  have reported := s.report (.startTag "body")
  rw [Builder.startBody]
  split
  · split
    · exact (reported.mergeAttrs _ _).adjust rfl rfl rfl rfl
    · exact reported.needContext
  · exact reported.needContext

theorem startBlock (s : RootKept k b c) (t : Tag) : RootKept k b (c.startBlock t) :=
  s.leaveParagraph.insert t

theorem startLines (s : RootKept k b c) (t : Tag) : RootKept k b (c.startLines t) :=
  (s.startBlock t).adjust rfl rfl rfl rfl

theorem setForm (s : RootKept k b c) (free : ¬ k.Holds c.current.id) :
    RootKept k b { c with form := some c.current } where
  rooted := { s.rooted with
    form := fun o same => by
      cases same
      exact free }
  mode := s.mode
  tableReturn := s.tableReturn
  collapse := s.collapse

theorem startForm (s : RootKept k b c) (t : Tag) : RootKept k b (c.startForm t) := by
  rw [Builder.startForm]
  split
  · exact s.report _
  · exact (s.startBlock t).setForm (s.leaveParagraph.free_insertPart _ _ _)

theorem startPlaintext (s : RootKept k b c) (t : Tag) : RootKept k b (c.startPlaintext t) :=
  (s.startBlock t).adjust rfl rfl rfl rfl

theorem startHeading (s : RootKept k b c) (t : Tag) : RootKept k b (c.startHeading t) := by
  have left := s.leaveParagraph
  rw [Builder.startHeading]
  split
  · next heading =>
    refine ((left.report _).pop_current ?_).insert t
    rw [Builder.current, Builder.stack_report]
    intro root
    rw [Builder.current, root] at heading
    exact absurd heading (by decide)
  · exact left.insert t

theorem startLink (s : RootKept k b c) (t : Tag) : RootKept k b (c.startLink t) := by
  rw [Builder.startLink]
  split
  · next o found =>
    have free := s.rooted.formatting o (mem_of_findFormatting found).1
    exact (((((s.report _).endFormatting (by decide)).removeOpen free).removeFormatting
      o).reconstruct).insertFormatting t
  · exact s.reconstruct.insertFormatting t

theorem startFormatting (s : RootKept k b c) (t : Tag) : RootKept k b (c.startFormatting t) :=
  s.reconstruct.insertFormatting t

theorem startNoBreak (s : RootKept k b c) (t : Tag) : RootKept k b (c.startNoBreak t) := by
  have opened := s.reconstruct
  rw [Builder.startNoBreak]
  split
  · exact (((opened.report _).endFormatting (by decide)).reconstruct).insertFormatting t
  · exact opened.insertFormatting t

theorem startButton (s : RootKept k b c) (t : Tag) : RootKept k b (c.startButton t) := by
  rw [Builder.startButton]
  split
  · exact ((s.report _).endBlock (by decide) (by decide)).retry
  · exact (s.reconstruct.insert t).ruleOutFrameset

theorem startEmbedded (s : RootKept k b c) (t : Tag) : RootKept k b (c.startEmbedded t) :=
  (s.reconstruct.insert t).pushMarker.ruleOutFrameset

theorem insertImage (s : RootKept k b c) (t : Tag) : RootKept k b (c.insertImage t) :=
  (s.reconstruct.insertVoid t).ruleOutFrameset

theorem insertInput (s : RootKept k b c) (t : Tag) : RootKept k b (c.insertInput t) := by
  rw [Builder.insertInput]
  split
  · exact (s.insertImage t).adjust rfl rfl rfl rfl
  · exact s.insertImage t

theorem insertRule (s : RootKept k b c) (t : Tag) : RootKept k b (c.insertRule t) :=
  (s.leaveParagraph.insertVoid t).ruleOutFrameset

theorem startOther (s : RootKept k b c) (t : Tag) : RootKept k b (c.startOther t) :=
  s.reconstruct.insert t

theorem startSearch (s : RootKept k b c) (t : Tag) : RootKept k b (c.startSearch t) := by
  have reported := s.report (.deprecatedTag "isindex")
  rw [Builder.startSearch]
  split
  · exact reported
  · exact (((((((reported.startForm _).insertRule _).startOther _).bodyText _).insertInput _).endOther
      (by decide)).insertRule _).endForm

theorem startTextarea (s : RootKept k b c) (t : Tag) : RootKept k b (c.startTextarea t) :=
  (s.insert t).adjust rfl rfl rfl rfl

theorem startRuby (s : RootKept k b c) (t : Tag) : RootKept k b (c.startRuby t) := by
  rw [Builder.startRuby]
  split
  · exact ((s.dropImplied none).check _ _).insert t
  · exact s.insert t

theorem startForeign (s : RootKept k b c) (space : Space) (t : Tag) :
    RootKept k b (c.startForeign space t) := by
  rw [Builder.startForeign]
  split
  · exact (s.reconstruct.pop_insertPart ..).acknowledge
  · exact s.reconstruct.insertForeign space t t.name

end RootKept

end HtmlTree.Html
