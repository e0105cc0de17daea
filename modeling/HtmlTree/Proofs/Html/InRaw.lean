import HtmlTree.Proofs.Html.BodySteps

/-! Raw text in the course of construction: until it ends, all that happens is that text and
comments are put into the element that is read. -/

namespace HtmlTree.Html

variable {k : Anchors} {behind : Builder → Prop} {b c : Builder}

theorem Builder.space_of_isForeign {t : Token} (foreign : b.isForeign t = true) :
    b.current.space ≠ b.standard := by
  intro same
  simp only [Builder.isForeign.eq_def, same, beq_self_eq_true, Bool.or_true] at foreign
  cases foreign

theorem Builder.again_ordinary (mode : b.mode = .text) (t : Token) : (b.ordinary t).again = b.again := by
  have reported : ∀ f, (b.report f).again = b.again := fun f => by
    rw [Builder.report]
    split <;> rfl
  cases t with
  | startTag tag =>
      rw [Builder.ordinary, Builder.startTag, mode]
      change (b.breakDown _).again = b.again
      rw [Builder.breakDown]
      split <;> rfl
  | endTag name => rw [Builder.ordinary, Builder.endTag, mode]; rfl
  | characters text => rw [Builder.ordinary, Builder.characters, mode]; exact b.again_insertText _
  | spaces text => rw [Builder.ordinary, Builder.spaces, mode]; exact b.again_insertText _
  | comment data => rw [Builder.ordinary, Builder.comment, mode]; rfl
  | doctype d => rw [Builder.ordinary, Builder.doctype, mode]; exact reported _

/-- Raw text is read into the current element. What construction goes back to is `behind`. -/
structure InRaw (k : Anchors) (behind : Builder → Prop) (b : Builder) : Prop where
  rooted : Rooted k b
  mode : b.mode = .text
  space : b.current.space = .html
  back : behind (b.pop.goto b.textReturn)

/-- What new nodes do not put an end to, nor a change of details that nothing depends on. -/
structure Lasting (k : Anchors) (behind : Builder → Prop) : Prop where
  rebuild : ∀ {b : Builder} {a : Arena}, behind b → Planted k a → Arena.Keeps b.arena a →
    behind { b with arena := a }
  adjust : ∀ {b c : Builder}, behind b → c.core = b.core → c.head = b.head → c.mode = b.mode →
    c.tableReturn = b.tableReturn → (c.collapse = none → b.collapse = none) → behind c

theorem Builder.insertRaw_eq {a : Arena} {stack : List Open} {t : Tag}
    (inserted : b.insert t = { b with arena := a, stack := stack }) (kind : TextKind) :
    b.insertRaw t kind = { b with
      arena := a
      stack := stack
      lexerState := some kind
      textReturn := b.mode
      mode := .text } :=
  congrArg (fun d : Builder =>
    { d with lexerState := some kind, textReturn := d.mode, mode := .text }) inserted

namespace InRaw

theorem enter (lasting : Lasting k behind) (rooted : Rooted k b) (h : behind b) (t : Tag)
    (kind : TextKind) : InRaw k behind (b.insertRaw t kind) := by
  have opened := ((RootKept.refl rooted).insert t).rooted
  obtain ⟨a, inserted, planted, keeps, _⟩ := rooted.exists_insertPart t.name b.standard
    (Foreign.builtAttrs b.standard false t.attrs)
  rw [Builder.insert, inserted] at opened
  rw [Builder.insertRaw_eq inserted]
  exact ⟨opened.same rfl, rfl, rooted.standard,
    lasting.adjust (lasting.rebuild h planted keeps) rfl rfl rfl rfl id⟩

variable (lasting : Lasting k behind) (h : InRaw k behind b)
include lasting h

theorem rebuild {a : Arena} (planted : Planted k a) (keeps : Arena.Keeps b.arena a) :
    InRaw k behind { b with arena := a } where
  rooted := h.rooted.rebuild planted keeps
  mode := h.mode
  space := h.space
  back := lasting.rebuild h.back planted keeps

theorem adjust (core : c.core = b.core) (head : c.head = b.head) (mode : c.mode = b.mode)
    (textReturn : c.textReturn = b.textReturn) (tableReturn : c.tableReturn = b.tableReturn)
    (collapse : c.collapse = none → b.collapse = none) : InRaw k behind c where
  rooted := h.rooted.same core
  mode := mode.trans h.mode
  space := by
    have stack : c.stack = b.stack := congrArg (·.2.1) core
    rw [Builder.current, stack]
    exact h.space
  back := by
    refine lasting.adjust h.back ?_ head textReturn tableReturn collapse
    simp only [Builder.core, Prod.mk.injEq] at core
    simp only [Builder.core, Builder.goto, Builder.pop, core]

theorem insertText (text : String) : InRaw k behind (b.insertText text) := by
  obtain ⟨a, inserted, planted, keeps, _⟩ := h.rooted.exists_inserted (.text text)
  have shape : b.insertText text = { b with arena := a } := inserted
  rw [shape]
  exact h.rebuild lasting planted keeps

theorem insertComment (parent : Nat) (data : String) :
    InRaw k behind (b.insertComment parent data) := by
  have plain : (Part.comment data).tag? = none := rfl
  exact h.rebuild lasting (h.rooted.planted.insert (Or.inr plain))
    ((Arena.keeps_make ..).trans (Arena.moved_append ..).keeps)

theorem report (f : Fault) : InRaw k behind (b.report f) := by
  rw [Builder.report]
  split
  · exact h
  · exact h.adjust lasting rfl rfl rfl rfl rfl id

theorem breakDown (how : Collapse) : InRaw k behind (b.breakDown how) := by
  rw [Builder.breakDown]
  split
  · exact h
  · exact h.adjust lasting rfl rfl rfl rfl rfl (fun absurd => by cases absurd)

/-- Only an end tag ends raw text. -/
theorem ordinary (t : Token) : InRaw k behind (b.ordinary t) ∨ behind (b.ordinary t) := by
  cases t with
  | startTag tag =>
      rw [Builder.ordinary, Builder.startTag, h.mode]
      exact Or.inl (h.breakDown lasting _)
  | endTag name =>
      rw [Builder.ordinary, Builder.endTag, h.mode]
      exact Or.inr h.back
  | characters text =>
      rw [Builder.ordinary, Builder.characters, h.mode]
      exact Or.inl (h.insertText lasting text)
  | spaces text =>
      rw [Builder.ordinary, Builder.spaces, h.mode]
      exact Or.inl (h.insertText lasting text)
  | comment data =>
      rw [Builder.ordinary, Builder.comment, h.mode]
      exact Or.inl (h.insertComment lasting _ data)
  | doctype d =>
      rw [Builder.ordinary, Builder.doctype, h.mode]
      exact Or.inl (h.report lasting _)

omit lasting in
theorem consume (t : Token) : b.consume t = b.ordinary t := by
  have html : b.current.space = b.standard := h.space.trans h.rooted.standard.symm
  rw [Builder.consume, if_neg fun foreign => Builder.space_of_isForeign foreign html]

theorem finishMode : behind b.finishMode := by
  have back := (h.report lasting (.eofForEndTag b.current.name)).back
  have same : (b.report (.eofForEndTag b.current.name)).textReturn = b.textReturn := by
    rw [Builder.report]
    split <;> rfl
  rw [same] at back
  rw [Builder.finishMode, h.mode]
  exact lasting.adjust back rfl rfl rfl rfl id

end InRaw

end HtmlTree.Html
