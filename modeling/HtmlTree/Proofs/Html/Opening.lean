import HtmlTree.Proofs.Html.Furnished

/-! Construction before there is a body: first nothing is open, then the root, the head and what is
in the head. -/

namespace HtmlTree.Html

/-- Nothing is open yet, and there are no elements. -/
structure Blank (b : Builder) : Prop where
  bare : Bare b.arena
  stack : b.stack = []
  formatting : b.formatting = []
  form : b.form = none
  context : b.context = none
  standard : b.standard = .html
  mode : b.mode = .initial ∨ b.mode = .beforeHtml

namespace Mode

def isEarly : Mode → Bool
  | .beforeHead | .inHead | .inHeadNoscript | .afterHead => true
  | _ => false

def inner : Mode → List String
  | .inHead => ["head"]
  | .inHeadNoscript => ["noscript", "head"]
  | _ => []

/-- How many modes there are up to the body, this one included. Raw text may lead back to any of
those after the root. -/
def ahead : Mode → Nat
  | .text => 7
  | .initial => 6
  | .beforeHtml => 5
  | .beforeHead => 4
  | .inHeadNoscript => 3
  | .inHead => 2
  | .afterHead => 1
  | _ => 0

theorem ahead_of_isEarly {m : Mode} (early : m.isEarly = true) : m.ahead < Mode.text.ahead := by
  cases m
  all_goals first
    | decide
    | cases early

end Mode

/-- The root is open and the body is not. -/
structure Early (k : Anchors) (b : Builder) : Prop extends Rooted k b where
  mode : b.mode.isEarly = true
  names : b.stack.map (·.name) = b.mode.inner ++ ["html"]
  html : ∀ o ∈ b.stack, o.space = .html
  headless : b.mode = .beforeHead → k.head = none
  head : b.mode ≠ .beforeHead → ∃ o, b.head = some o ∧ k.head = some o.id ∧ o.name = "head" ∧
    o.space = .html
  bodiless : k.body = none
  unformatted : b.formatting = []
  formless : b.form = none

/-- The body has been opened, and nothing else. -/
structure Fresh (b : Builder) : Prop where
  mode : b.mode = .inBody
  names : b.stack.map (·.name) = ["body", "html"]
  html : ∀ o ∈ b.stack, o.space = .html
  unformatted : b.formatting = []
  formless : b.form = none

theorem Fresh.adjust {b c : Builder} (h : Fresh b) (core : c.core = b.core) (mode : c.mode = b.mode) :
    Fresh c := by
  simp only [Builder.core, Prod.mk.injEq] at core
  obtain ⟨-, stack, formatting, form, -, -⟩ := core
  constructor
  case mode => exact mode.trans h.mode
  case names => exact stack ▸ h.names
  case html => exact stack ▸ h.html
  case unformatted => exact formatting.trans h.unformatted
  case formless => exact form.trans h.formless

/-- Framesets stand where the body would: one of them is open, or none is any more. -/
structure Framed (b : Builder) : Prop where
  html : ∀ o ∈ b.stack, o.space = .html
  formatting : ∀ o, some o ∈ b.formatting → o.space = .html
  context : b.context = none
  standard : b.standard = .html
  mode : b.mode = .inFrameset ∧ b.current.name = "frameset" ∨ b.mode = .afterFrameset ∨
    b.mode = .afterAfterFrameset

theorem Framed.adjust {b c : Builder} (h : Framed b) (core : c.core = b.core) (mode : c.mode = b.mode) :
    Framed c := by
  simp only [Builder.core, Prod.mk.injEq] at core
  obtain ⟨-, stack, formatting, -, context, standard⟩ := core
  constructor
  case html => exact stack ▸ h.html
  case formatting => exact formatting ▸ h.formatting
  case context => exact context.trans h.context
  case standard => exact standard.trans h.standard
  case mode =>
    rw [mode, Builder.current, stack]
    exact h.mode

/-- How far construction is, up to the start of the body. -/
inductive Stage (lost : Prop) (b : Builder) : Prop
  | blank (h : Blank b)
  | early {k : Anchors} (h : Early k b)
  | raw {k : Anchors} (h : InRaw k (Early k) b) (once : b.again = false)
  | body {k : Anchors} (h : Furnished lost k b) (fresh : Framed b ∨ Fresh b)

/-- A step from before the body does not break down. -/
structure Proceeds (lost : Prop) (b c : Builder) : Prop where
  collapse : c.collapse = b.collapse
  stage : Stage lost c
  tells : c.Tells

variable {lost : Prop} {k l : Anchors} {b c : Builder}

theorem Builder.insertPart_eq (outside : tableContextTags.contains b.current.name = false)
    (name : String) (space : Space) (attrs : List BuiltAttr) :
    b.insertPart name space attrs = { b with
      arena := b.arena.insert b.current.id (.element name space attrs)
      stack := ⟨b.arena.size, name, space⟩ :: b.stack } := by
  have placed : ∀ a : Arena, Builder.isMisplaced { b with arena := a } = false := by
    intro a
    have here : Builder.current { b with arena := a } = b.current := rfl
    rw [Builder.isMisplaced, here, outside, Bool.and_false]
  have node : ∀ a i, Builder.placeNode { b with arena := a } i =
      { b with arena := a.append b.current.id i } := by
    intro a i
    rw [Builder.placeNode, placed, if_neg Bool.false_ne_true]
    rfl
  exact congrArg (fun d : Builder => { d with stack := ⟨b.arena.size, name, space⟩ :: d.stack })
    (node ..)

namespace Blank

theorem initial : Blank (.document .html) where
  bare := .initial
  stack := rfl
  formatting := rfl
  form := rfl
  context := rfl
  standard := rfl
  mode := Or.inl rfl

variable (h : Blank b)
include h

theorem adjust (core : c.core = b.core) (mode : c.mode = .initial ∨ c.mode = .beforeHtml) :
    Blank c := by
  simp only [Builder.core, Prod.mk.injEq] at core
  obtain ⟨arena, stack, formatting, form, context, standard⟩ := core
  constructor
  case bare => exact arena ▸ h.bare
  case stack => exact stack.trans h.stack
  case formatting => exact formatting.trans h.formatting
  case form => exact form.trans h.form
  case context => exact context.trans h.context
  case standard => exact standard.trans h.standard
  case mode => exact mode

theorem proceeds (collapse : b.collapse = c.collapse) : Proceeds lost c b := by
  refine ⟨collapse, .blank h, fun text => ?_⟩
  rcases h.mode with mode | mode <;> rw [text] at mode <;> cases mode

theorem report (f : Fault) : Blank (b.report f) := by
  rw [Builder.report]
  split
  · exact h
  · exact h.adjust rfl h.mode

theorem insert {part : Part} (plain : part.tag? = none) :
    Blank { b with arena := b.arena.insert Arena.document part } :=
  { h with bare := h.bare.insert plain }

theorem insertRoot : Early ⟨b.arena.size, none, none⟩ b.insertRoot := by
  have stack : b.insertRoot.stack = [⟨b.arena.size, "html", .html⟩] := by
    change _ :: b.stack = _
    rw [h.stack, h.standard]
    rfl
  have formatting : b.insertRoot.formatting = [] := h.formatting
  have form : b.insertRoot.form = none := h.form
  have opened : ∀ o ∈ b.insertRoot.stack, o = ⟨b.arena.size, "html", .html⟩ := by
    rw [stack]
    exact fun _ => List.mem_singleton.mp
  constructor
  case headless => exact fun _ => rfl
  case head => exact fun other => (other rfl).elim
  case bodiless => rfl
  case unformatted => exact formatting
  case formless => exact form
  case mode => rfl
  case names =>
    rw [stack]
    rfl
  case html =>
    intro o inside
    rw [opened o inside]
  constructor
  case planted => exact h.bare.plant ..
  case named =>
    intro o inside
    rw [opened o inside]
    exact (Arena.tag_insert ..).trans (if_pos rfl)
  case last =>
    rw [stack]
    rfl
  case layered =>
    rw [stack]
    exact List.pairwise_singleton ..
  case formatting =>
    rw [formatting]
    exact fun _ absurd => by cases absurd
  case form =>
    rw [form]
    exact fun _ absurd => by cases absurd
  case context => exact h.context
  case standard => exact h.standard

end Blank

namespace Early

variable (h : Early k b)
include h

theorem rebuild {a : Arena} (planted : Planted k a) (keeps : Arena.Keeps b.arena a) :
    Early k { b with arena := a } :=
  { h with toRooted := h.toRooted.rebuild planted keeps }

theorem adjust (core : c.core = b.core) (head : c.head = b.head) (mode : c.mode = b.mode) :
    Early k c := by
  have rooted := h.toRooted.same core
  simp only [Builder.core, Prod.mk.injEq] at core
  obtain ⟨arena, stack, formatting, form, context, standard⟩ := core
  constructor
  case toRooted => exact rooted
  case mode => exact mode ▸ h.mode
  case names =>
    rw [stack, mode]
    exact h.names
  case html => exact stack ▸ h.html
  case headless => exact mode ▸ h.headless
  case head =>
    rw [mode, head]
    exact h.head
  case bodiless => exact h.bodiless
  case unformatted => exact formatting.trans h.unformatted
  case formless => exact form.trans h.formless

theorem report (f : Fault) : Early k (b.report f) := by
  rw [Builder.report]
  split
  · exact h
  · exact h.adjust rfl rfl rfl

theorem insertText (text : String) : Early k (b.insertText text) := by
  obtain ⟨a, inserted, planted, keeps, _⟩ := h.exists_inserted (.text text)
  have shape : b.insertText text = { b with arena := a } := inserted
  rw [shape]
  exact h.rebuild planted keeps

theorem insertComment (parent : Nat) (data : String) : Early k (b.insertComment parent data) := by
  have plain : (Part.comment data).tag? = none := rfl
  exact h.rebuild (h.planted.insert (Or.inr plain))
    ((Arena.keeps_make ..).trans (Arena.moved_append ..).keeps)

theorem insertVoid (t : Tag) : Early k (b.insertVoid t) := by
  obtain ⟨a, inserted, planted, keeps, _⟩ := h.exists_insertPart t.name b.standard
    (Foreign.builtAttrs b.standard false t.attrs)
  have shape : b.insertVoid t = { b with arena := a } :=
    congrArg (fun d : Builder => { d with stack := d.stack.tail }) inserted
  rw [shape]
  exact h.rebuild planted keeps

theorem startRoot (t : Tag) : Early k (b.startRoot t) := by
  have merged : ∀ {c : Builder}, Early k c → Early k (c.mergeAttrs c.root.id t.attrs) := fun early =>
    early.rebuild (early.planted.setAttrs ..) (Arena.keeps_setAttrs ..)
  rw [Builder.startRoot]
  split
  · exact (merged h).adjust rfl rfl rfl
  · exact (merged (h.report _)).adjust rfl rfl rfl

theorem current_name {name : String} {rest : List String} (inner : b.mode.inner = name :: rest) :
    b.current.name = name := by
  have names := h.names
  obtain ⟨o, below, shape⟩ := List.exists_cons_of_ne_nil h.stack_ne
  rw [inner, shape, List.map_cons, List.cons_append, List.cons.injEq] at names
  rw [Builder.current, shape]
  exact names.1

theorem leave {name : String} {mode : Mode} (inner : b.mode.inner = name :: mode.inner)
    (other : name ≠ "html") (early : mode.isEarly = true) (later : mode ≠ .beforeHead) :
    Early k (b.leave name mode) ∧ (b.leave name mode).mode = mode ∧
      (b.leave name mode).collapse = b.collapse := by
  have current := h.current_name inner
  have shape : b.leave name mode = b.pop.goto mode := by
    rw [Builder.leave, if_pos]
    exact beq_iff_eq.mpr current
  have before : b.mode ≠ .beforeHead := by
    intro start
    rw [start] at inner
    cases inner
  have popped := ((RootKept.refl h.toRooted).pop_current fun root =>
    other (current.symm.trans root)).rooted
  rw [shape]
  refine ⟨?_, rfl, rfl⟩
  constructor
  case toRooted => exact popped.same rfl
  case mode => exact early
  case names =>
    have names := congrArg List.tail h.names
    rw [inner, ← List.map_tail] at names
    exact names
  case html => exact fun o inside => h.html o (List.mem_of_mem_tail inside)
  case headless => exact fun start => (later start).elim
  case head => exact fun _ => h.head before
  case bodiless => exact h.bodiless
  case unformatted => exact h.unformatted
  case formless => exact h.formless

theorem alone (empty : b.mode.inner = []) : b.stack = [⟨k.root, "html", .html⟩] := by
  have names := h.names
  have last := h.last
  rw [empty] at names
  match shape : b.stack with
  | [] => exact absurd shape h.stack_ne
  | [o] =>
    rw [shape, List.getLast?_singleton, Option.some.injEq] at last
    rw [last]
  | _ :: _ :: _ =>
    rw [shape] at names
    exact absurd (congrArg List.length names) (by simp)

theorem insert_eq (empty : b.mode.inner = []) (t : Tag) :
    b.insert t = { b with
      arena := b.arena.insert k.root
        (.element t.name b.standard (Foreign.builtAttrs b.standard false t.attrs))
      stack := [⟨b.arena.size, t.name, .html⟩, ⟨k.root, "html", .html⟩] } := by
  have stack := h.alone empty
  have current : b.current = ⟨k.root, "html", .html⟩ := by
    rw [Builder.current, stack]
    rfl
  have outside : tableContextTags.contains b.current.name = false := by
    rw [current]
    exact (by decide : tableContextTags.contains "html" = false)
  rw [Builder.insert, Builder.insertPart_eq outside, current, stack, h.standard]

theorem plant (empty : b.mode.inner = []) (t : Tag) (root : l.root = k.root)
    (held : ∀ i, l.Holds i → i = b.arena.size ∨ k.Holds i)
    (head : ∀ i, l.head = some i → i = b.arena.size ∧ t.name = "head" ∨ k.head = some i)
    (body : ∀ i, l.body = some i → i = b.arena.size ∧ t.name = "body" ∨ k.body = some i) :
    ∃ a, b.insert t = { b with
      arena := a
      stack := [⟨b.arena.size, t.name, .html⟩, ⟨k.root, "html", .html⟩] } ∧
        Rooted l (b.insert t) := by
  have inserted := h.insert_eq empty t
  refine ⟨_, inserted, ?_⟩
  rw [inserted]
  have tags := Arena.tag_insert b.arena k.root
    (.element t.name b.standard (Foreign.builtAttrs b.standard false t.attrs))
  have tagged : ∀ i name, i = b.arena.size ∧ t.name = name ∨
      k.Holds i ∧ b.arena.tag? i = some name → (b.arena.insert k.root
        (.element t.name b.standard (Foreign.builtAttrs b.standard false t.attrs))).tag? i =
          some name := by
    rintro i name (⟨rfl, rfl⟩ | ⟨held, before⟩)
    · exact (tags _).trans (if_pos rfl)
    · rw [tags, if_neg (Nat.ne_of_lt (h.planted.lt_size held)), before]
  constructor
  case planted =>
    apply h.planted.plant root held
    · exact fun i found => tagged i "head" ((head i found).imp_right fun before =>
        ⟨Or.inr (Or.inr (Or.inl before)), h.planted.head i before⟩)
    · exact fun i found => tagged i "body" ((body i found).imp_right fun before =>
        ⟨Or.inr (Or.inr (Or.inr before)), h.planted.body i before⟩)
  case named =>
    intro o inside
    rcases List.mem_cons.mp inside with rfl | inside
    · exact tagged _ t.name (Or.inl ⟨rfl, rfl⟩)
    · rw [List.mem_singleton.mp inside]
      exact tagged _ "html" (Or.inr ⟨Or.inr (Or.inl rfl), h.planted.root⟩)
  case last =>
    rw [root]
    rfl
  case layered =>
    refine List.pairwise_pair.mpr ⟨fun same => ?_, fun _ => root.symm⟩
    exact h.planted.free_size (Or.inr (Or.inl (same.trans root)))
  case formatting =>
    have formatting : b.formatting = [] := h.unformatted
    change ∀ o, some o ∈ b.formatting → _
    rw [formatting]
    exact fun _ absurd => by cases absurd
  case form =>
    have form : b.form = none := h.formless
    change ∀ o, b.form = some o → _
    rw [form]
    exact fun _ absurd => by cases absurd
  case context => exact h.context
  case standard => exact h.standard

theorem openHead (mode : b.mode = .beforeHead) (t : Tag) (name : t.name = "head") :
    Early { k with head := some b.arena.size } (b.openHead t) := by
  have empty : b.mode.inner = [] := by rw [mode]; rfl
  obtain ⟨a, inserted, rooted⟩ := h.plant (l := { k with head := some b.arena.size }) empty t rfl
    (by
      rintro i (here | here | here | here)
      · exact Or.inr (Or.inl here)
      · exact Or.inr (Or.inr (Or.inl here))
      · exact Or.inl (Option.some.inj here).symm
      · exact Or.inr (Or.inr (Or.inr (Or.inr here))))
    (fun i here => Or.inl ⟨(Option.some.inj here).symm, name⟩)
    (fun i here => Or.inr here)
  have shape : b.openHead t = { b with
      arena := a
      stack := [⟨b.arena.size, t.name, .html⟩, ⟨k.root, "html", .html⟩]
      head := some ⟨b.arena.size, t.name, .html⟩
      mode := .inHead } :=
    congrArg (fun d : Builder => { d with head := some d.current, mode := .inHead }) inserted
  rw [inserted] at rooted
  rw [shape]
  constructor
  case toRooted => exact rooted.same rfl
  case mode => rfl
  case names =>
    rw [name]
    rfl
  case html =>
    intro o inside
    simp only [List.mem_cons, List.not_mem_nil, or_false] at inside
    rcases inside with rfl | rfl <;> rfl
  case headless => exact fun absurd => by cases absurd
  case head => exact fun _ => ⟨_, rfl, rfl, name, rfl⟩
  case bodiless => exact h.bodiless
  case unformatted => exact h.unformatted
  case formless => exact h.formless

theorem openBody (mode : b.mode = .afterHead) (t : Tag) (name : t.name = "body") :
    Furnished lost { k with body := some b.arena.size } ((b.insert t).goto .inBody) ∧
      Fresh ((b.insert t).goto .inBody) := by
  have empty : b.mode.inner = [] := by rw [mode]; rfl
  have headed : k.head.isSome := by
    obtain ⟨o, _, head, _⟩ := h.head (by rw [mode]; decide)
    rw [head]
    rfl
  obtain ⟨a, inserted, rooted⟩ := h.plant (l := { k with body := some b.arena.size }) empty t rfl
    (by
      rintro i (here | here | here | here)
      · exact Or.inr (Or.inl here)
      · exact Or.inr (Or.inr (Or.inl here))
      · exact Or.inr (Or.inr (Or.inr (Or.inl here)))
      · exact Or.inl (Option.some.inj here).symm)
    (fun i here => Or.inr here)
    (fun i here => Or.inl ⟨(Option.some.inj here).symm, name⟩)
  rw [inserted] at rooted ⊢
  constructor
  · exact ⟨rooted.same rfl, headed, Or.inr rfl, Or.inl rfl, (fun absurd => by cases absurd)⟩
  · constructor
    case mode => rfl
    case names => exact congrArg (fun first => [first, "html"]) name
    case html =>
      intro o inside
      simp only [Builder.goto, List.mem_cons, List.not_mem_nil, or_false] at inside
      rcases inside with rfl | rfl <;> rfl
    case unformatted => exact h.unformatted
    case formless => exact h.formless

theorem openFrameset (mode : b.mode = .afterHead) (t : Tag) (name : t.name = "frameset")
    (frames : lost) : Furnished lost k ((b.insert t).goto .inFrameset) ∧
      Framed ((b.insert t).goto .inFrameset) := by
  have headed : k.head.isSome := by
    obtain ⟨o, _, head, _⟩ := h.head (by rw [mode]; decide)
    rw [head]
    rfl
  have inserted := ((RootKept.refl h.toRooted).insert t).rooted
  obtain ⟨a, shape, _⟩ := h.exists_insertPart t.name b.standard
    (Foreign.builtAttrs b.standard false t.attrs)
  rw [Builder.insert, shape] at inserted ⊢
  refine ⟨⟨inserted.same rfl, headed, Or.inl frames, Or.inl rfl, fun absurd => by cases absurd⟩, ?_⟩
  constructor
  case html => exact List.forall_mem_cons.mpr ⟨h.standard, h.html⟩
  case formatting =>
    have formatting : b.formatting = [] := h.unformatted
    change ∀ o, some o ∈ b.formatting → _
    rw [formatting]
    exact fun _ absurd => by cases absurd
  case context => exact h.context
  case standard => exact h.standard
  case mode => exact Or.inl ⟨rfl, name⟩

end Early

theorem lasting_early : Lasting k (Early k) where
  rebuild h := h.rebuild
  adjust h core head mode _ _ := h.adjust core head mode

namespace Builder

theorem collapse_startRoot (b : Builder) (t : Tag) : (b.startRoot t).collapse = b.collapse := by
  rw [startRoot]
  split
  · rfl
  · exact collapse_report b _

end Builder

namespace Early

section Tags

variable (h : Early k b)
include h

theorem proceeds (collapse : b.collapse = c.collapse) : Proceeds lost c b := by
  refine ⟨collapse, .early h, fun text => ?_⟩
  have early := h.mode
  rw [text] at early
  cases early

theorem reported (f : Fault) : Proceeds lost b (b.report f) := proceeds (h.report f) (b.collapse_report f)

theorem insertRaw (once : b.again = false) (t : Tag) {kind : TextKind}
    (verbatim : kind.isVerbatim = true) : Proceeds lost b (b.insertRaw t kind) :=
  ⟨b.collapse_insert t, .raw (InRaw.enter lasting_early h.toRooted h t kind)
    ((b.again_insert t).trans once), fun _ => ⟨kind, rfl, verbatim⟩⟩

theorem void (t : Tag) : Early k (b.startVoid t) := (h.insertVoid t).adjust rfl rfl rfl

theorem startVoid (t : Tag) : Proceeds lost b (b.startVoid t) :=
  proceeds (h.void t) (b.collapse_insert t)

theorem startDeclared (t : Tag) : Proceeds lost b { b.startVoid t with declaration := some t } := by
  have early := h.void t
  have collapse : (b.startVoid t).collapse = b.collapse := b.collapse_insert t
  generalize b.startVoid t = c at early collapse ⊢
  exact proceeds (early.adjust rfl rfl rfl) collapse

theorem startLate (once : b.again = false) (t : Tag)
    (late : Builder.lateHeadTags.contains t.name = true) : Proceeds lost b (b.startInHead t) := by
  rcases Builder.startInHead_late late with shape | shape | ⟨kind, verbatim, shape⟩
  · rw [shape]
    exact h.startVoid t
  · rw [shape]
    exact h.startDeclared t
  · rw [shape]
    exact h.insertRaw once t verbatim

theorem noscript (mode : b.mode = .inHead) (t : Tag) (name : t.name = "noscript") :
    Proceeds lost b ((b.insert t).goto .inHeadNoscript) := by
  have inserted := ((RootKept.refl h.toRooted).insert t).rooted
  obtain ⟨a, shape, _⟩ := h.exists_insertPart t.name b.standard
    (Foreign.builtAttrs b.standard false t.attrs)
  have names := h.names
  rw [Builder.insert, shape] at inserted
  rw [Builder.insert, shape]
  refine proceeds (k := k) ?_ rfl
  constructor
  case toRooted => exact inserted.same rfl
  case mode => rfl
  case names =>
    change t.name :: b.stack.map (·.name) = _
    rw [names, mode, name]
    rfl
  case html =>
    intro o inside
    rcases List.mem_cons.mp inside with rfl | inside
    · exact h.standard
    · exact h.html o inside
  case headless => exact fun absurd => by cases absurd
  case head => exact fun _ => h.head (by rw [mode]; decide)
  case bodiless => exact h.bodiless
  case unformatted => exact h.unformatted
  case formless => exact h.formless

theorem closeHead (mode : b.mode = .inHead) : Early k b.closeHead ∧ b.closeHead.mode = .afterHead ∧
    b.closeHead.collapse = b.collapse :=
  h.leave (by rw [mode]; rfl) (by decide) rfl (by decide)

theorem closeNoscript (mode : b.mode = .inHeadNoscript) :
    Early k b.closeNoscript ∧ b.closeNoscript.mode = .inHead ∧
      b.closeNoscript.collapse = b.collapse :=
  h.leave (by rw [mode]; rfl) (by decide) rfl (by decide)

theorem startInHead (mode : b.mode = .inHead) (once : b.again = false) (t : Tag) :
    Proceeds lost b (b.startInHead t) := by
  have closed := h.closeHead mode
  have void : Proceeds lost b (b.startVoid t) := h.startVoid t
  rw [Builder.startInHead]
  split
  · exact proceeds (h.startRoot t) (b.collapse_startRoot t)
  · exact h.insertRaw once t rfl
  · exact h.insertRaw once t rfl
  · exact h.insertRaw once t rfl
  · next name => exact h.noscript mode t name
  · exact h.insertRaw once t rfl
  · exact void
  · exact void
  · exact void
  · exact void
  · exact void
  · exact h.startDeclared t
  · exact h.reported _
  · exact proceeds (closed.1.adjust rfl rfl rfl) closed.2.2

theorem leaveNoscript (mode : b.mode = .inHeadNoscript) (f : Fault) :
    Proceeds lost b (b.report f).closeNoscript.retry := by
  have closed := (h.report f).closeNoscript ((b.mode_report f).trans mode)
  exact proceeds (closed.1.adjust rfl rfl rfl) (closed.2.2.trans (b.collapse_report f))

theorem startInHeadNoscript (mode : b.mode = .inHeadNoscript) (once : b.again = false) (t : Tag) :
    Proceeds lost b (b.startInHeadNoscript t) := by
  rw [Builder.startInHeadNoscript]
  split
  · exact proceeds (h.startRoot t) (b.collapse_startRoot t)
  · next name => exact h.startLate once t (by rw [name]; decide)
  · next name => exact h.startLate once t (by rw [name]; decide)
  · next name => exact h.startLate once t (by rw [name]; decide)
  · next name => exact h.startLate once t (by rw [name]; decide)
  · next name => exact h.startLate once t (by rw [name]; decide)
  · next name => exact h.startLate once t (by rw [name]; decide)
  · exact h.reported _
  · exact h.reported _
  · exact h.leaveNoscript mode _

theorem exists_insertLate (mode : b.mode = .afterHead) (t : Tag) : ∃ o a, b.head = some o ∧
    o.name = "head" ∧
      Builder.insert { b with stack := o :: b.stack } t =
        { b with arena := a, stack := ⟨b.arena.size, t.name, b.standard⟩ :: o :: b.stack } ∧
      Early k { b with arena := a } ∧
      Rooted k { b with arena := a, stack := ⟨b.arena.size, t.name, b.standard⟩ :: b.stack } := by
  obtain ⟨o, head, anchor, name, _⟩ := h.head (by rw [mode]; decide)
  have stack := h.alone (by rw [mode]; rfl)
  have rooted : Rooted k { b with stack := o :: b.stack } := by
    have tagged := h.planted.head o.id anchor
    refine { h.toRooted with
      named := List.forall_mem_cons.mpr ⟨by rw [name]; exact tagged, h.named⟩
      last := ?_
      layered := ?_ }
    · rw [stack]
      rfl
    · rw [stack]
      refine List.pairwise_pair.mpr ⟨fun root => ?_, fun _ => rfl⟩
      rw [root, h.planted.root] at tagged
      exact absurd tagged (by decide)
  obtain ⟨a, inserted, planted, keeps, tagged⟩ := rooted.exists_insertPart t.name b.standard
    (Foreign.builtAttrs b.standard false t.attrs)
  have kept := h.rebuild planted keeps
  exact ⟨o, a, head, name, inserted, kept, kept.toRooted.push tagged h.planted.free_size⟩

/-- An element of the head that comes late is put there; the head is open for that only. -/
theorem startLateInHead (mode : b.mode = .afterHead) (t : Tag)
    (late : Builder.lateHeadTags.contains t.name = true) : Proceeds lost b (b.startLateInHead t) := by
  have early := h.report (.startTagOfHead t.name)
  have collapse := b.collapse_report (.startTagOfHead t.name)
  have after := (b.mode_report (.startTagOfHead t.name)).trans mode
  rw [Builder.startLateInHead]
  generalize b.report (.startTagOfHead t.name) = c at early collapse after ⊢
  obtain ⟨o, a, head, name, inserted, kept, opened⟩ := early.exists_insertLate after t
  have other : (t.name == "head") = false := by
    rw [beq_eq_false_iff_ne]
    intro same
    rw [same] at late
    exact absurd late (by decide)
  have here : (o.name == "head") = true := by
    rw [name]
    rfl
  have pushed : ({ c with stack := c.head.toList ++ c.stack } : Builder) =
      { c with stack := o :: c.stack } :=
    congrArg (fun first : Option Open => ({ c with stack := first.toList ++ c.stack } : Builder)) head
  rw [pushed]
  have void : Builder.startVoid { c with stack := o :: c.stack } t =
      { c with arena := a, stack := o :: c.stack, acknowledged := true } :=
    congrArg (fun d : Builder => { d with stack := d.stack.tail, acknowledged := true }) inserted
  rcases Builder.startInHead_late late with shape | shape | ⟨kind, verbatim, shape⟩
  · rw [Builder.settled, shape, void]
    dsimp only
    rw [List.eraseP_cons, here, cond_true]
    exact proceeds (kept.adjust rfl rfl rfl) collapse
  · rw [Builder.settled, shape, void]
    dsimp only
    rw [List.eraseP_cons, here, cond_true]
    exact proceeds (kept.adjust rfl rfl rfl) collapse
  · rw [Builder.settled, shape, Builder.insertRaw_eq inserted]
    dsimp only
    rw [List.eraseP_cons, other, cond_false, List.eraseP_cons, here, cond_true]
    exact ⟨collapse, .raw ⟨opened.same rfl, rfl, early.standard, kept.adjust rfl rfl rfl⟩ rfl,
      fun _ => ⟨kind, rfl, verbatim⟩⟩

theorem impliedHead (mode : b.mode = .beforeHead) : Proceeds lost b b.impliedHead.retry :=
  proceeds ((h.openHead mode (.implied "head") rfl).adjust rfl rfl rfl) (b.collapse_insert _)

theorem startBeforeHead (mode : b.mode = .beforeHead) (t : Tag) :
    Proceeds lost b (b.startBeforeHead t) := by
  rw [Builder.startBeforeHead]
  split
  · exact proceeds (h.startRoot t) (b.collapse_startRoot t)
  · next name => exact proceeds (h.openHead mode t name) (b.collapse_insert t)
  · exact h.impliedHead mode

theorem impliedBody (mode : b.mode = .afterHead) : Proceeds lost b b.impliedBody.retry := by
  obtain ⟨furnished, fresh⟩ := h.openBody mode (.implied "body") rfl
  exact ⟨b.collapse_insert _, .body (furnished.adjust rfl rfl rfl id) (Or.inr (fresh.adjust rfl rfl)),
    fun text => by cases text⟩

theorem startAfterHead (mode : b.mode = .afterHead) (t : Tag) (frames : t.name = "frameset" → lost) :
    Proceeds lost b (b.startAfterHead t) := by
  have head : Builder.lateHeadTags.contains t.name = true → Proceeds lost b (b.startLateInHead t) :=
    h.startLateInHead mode t
  rw [Builder.startAfterHead]
  split
  · exact proceeds (h.startRoot t) (b.collapse_startRoot t)
  · next name =>
    obtain ⟨furnished, fresh⟩ := (h.adjust (c := b.ruleOutFrameset) rfl rfl rfl).openBody mode t name
    exact ⟨b.ruleOutFrameset.collapse_insert t, .body furnished (Or.inr fresh), fun text => by cases text⟩
  · next name =>
    obtain ⟨furnished, framed⟩ := h.openFrameset mode t name (frames name)
    exact ⟨b.collapse_insert t, .body furnished (Or.inl framed), fun text => by cases text⟩
  · next name => exact head (by rw [name]; decide)
  · next name => exact head (by rw [name]; decide)
  · next name => exact head (by rw [name]; decide)
  · next name => exact head (by rw [name]; decide)
  · next name => exact head (by rw [name]; decide)
  · next name => exact head (by rw [name]; decide)
  · next name => exact head (by rw [name]; decide)
  · next name => exact head (by rw [name]; decide)
  · next name => exact head (by rw [name]; decide)
  · exact h.reported _
  · exact h.impliedBody mode

theorem startTag (once : b.again = false) (t : Tag) (frames : t.name = "frameset" → lost) :
    Proceeds lost b (b.startTag t) := by
  have early := h.mode
  rw [Builder.startTag]
  split
  all_goals try (next mode => rw [mode] at early; cases early)
  · next mode => exact h.startBeforeHead mode t
  · next mode => exact h.startInHead mode once t
  · next mode => exact h.startInHeadNoscript mode once t
  · next mode => exact h.startAfterHead mode t frames

theorem endTag (name : String) : Proceeds lost b (b.endTag name) := by
  have early := h.mode
  rw [Builder.endTag]
  split
  all_goals try (next mode => rw [mode] at early; cases early)
  · next mode =>
    split
    · exact h.impliedHead mode
    · exact h.reported _
  · next mode =>
    have closed := h.closeHead mode
    rw [Builder.endInHead]
    split
    · exact proceeds closed.1 closed.2.2
    · split
      · exact proceeds (closed.1.adjust rfl rfl rfl) closed.2.2
      · exact h.reported _
  · next mode =>
    have closed := h.closeNoscript mode
    rw [Builder.endInHeadNoscript]
    split
    · exact proceeds closed.1 closed.2.2
    · split
      · exact h.leaveNoscript mode _
      · exact h.reported _
  · next mode =>
    split
    · exact h.impliedBody mode
    · exact h.reported _

theorem characters (text : String) : Proceeds lost b (b.characters text) := by
  have early := h.mode
  rw [Builder.characters]
  split
  all_goals try (next mode => rw [mode] at early; cases early)
  · next mode => exact h.impliedHead mode
  · next mode =>
    have closed := h.closeHead mode
    exact proceeds (closed.1.adjust rfl rfl rfl) closed.2.2
  · next mode => exact h.leaveNoscript mode _
  · next mode => exact h.impliedBody mode

theorem spaces (text : String) : Proceeds lost b (b.spaces text) := by
  have early := h.mode
  have inserted : Proceeds lost b (b.insertText text) :=
    proceeds (h.insertText text) (b.collapse_insertText text)
  rw [Builder.spaces]
  split
  all_goals try (next mode => rw [mode] at early; cases early)
  · exact proceeds h rfl
  · exact inserted
  · exact inserted
  · exact inserted

theorem comment (data : String) : Proceeds lost b (b.comment data) := by
  have early := h.mode
  have inserted : ∀ i, Proceeds lost b (b.insertComment i data) := fun i =>
    proceeds (h.insertComment i data) rfl
  rw [Builder.comment]
  split
  all_goals try (next mode => rw [mode] at early; cases early)
  exact inserted _

theorem doctype (d : Doctype) : Proceeds lost b (b.doctype d) := by
  have early := h.mode
  rw [Builder.doctype]
  split
  all_goals try (next mode => rw [mode] at early; cases early)
  exact h.reported _

theorem ordinary (once : b.again = false) (t : Token)
    (frames : ∀ tag, t = .startTag tag → tag.name = "frameset" → lost) :
    Proceeds lost b (b.ordinary t) := by
  cases t with
  | startTag tag => exact h.startTag once tag (frames tag rfl)
  | endTag name => exact h.endTag name
  | characters text => exact h.characters text
  | spaces text => exact h.spaces text
  | comment data => exact h.comment data
  | doctype d => exact h.doctype d

theorem finishMode : Proceeds lost b b.finishMode ∧ b.finishMode.again = true ∧
    b.finishMode.mode.ahead < b.mode.ahead := by
  have early := h.mode
  rw [Builder.finishMode]
  split
  all_goals try (next mode => rw [mode] at early; cases early)
  · next mode =>
    rw [mode]
    exact ⟨h.impliedHead mode, rfl, (by decide : Mode.inHead.ahead < Mode.beforeHead.ahead)⟩
  · next mode =>
    have closed := h.closeHead mode
    have after : b.closeHead.retry.mode = .afterHead := closed.2.1
    rw [mode, after]
    exact ⟨proceeds (closed.1.adjust rfl rfl rfl) closed.2.2, rfl, by decide⟩
  · next mode =>
    have closed := (h.report .eofInHeadNoscript).closeNoscript ((b.mode_report _).trans mode)
    have after : (b.report .eofInHeadNoscript).closeNoscript.retry.mode = .inHead := closed.2.1
    rw [mode, after]
    exact ⟨h.leaveNoscript mode _, rfl, by decide⟩
  · next mode =>
    rw [mode]
    exact ⟨h.impliedBody mode, rfl, (by decide : Mode.inBody.ahead < Mode.afterHead.ahead)⟩

end Tags

end Early

namespace Blank

variable (h : Blank b)
include h

theorem leads_insertRoot : Proceeds lost b b.insertRoot.retry :=
  Early.proceeds (h.insertRoot.adjust rfl rfl rfl) rfl

theorem leads_passDoctype (f : Fault) : Proceeds lost b (b.report f).passDoctype.retry := by
  have passed : Blank (b.report f).passDoctype.retry := (h.report f).adjust rfl (Or.inr rfl)
  exact passed.proceeds (b.collapse_report f)

theorem ordinary (t : Token) : Proceeds lost b (b.ordinary t) := by
  have reported : ∀ f, Proceeds lost b (b.report f) := fun f =>
    (h.report f).proceeds (Builder.collapse_report b f)
  have commented : ∀ data, Proceeds lost b (b.insertComment Arena.document data) := fun data =>
    (h.insert (rfl : (Part.comment data).tag? = none)).proceeds rfl
  rcases h.mode with mode | mode
  · cases t with
    | startTag tag => rw [Builder.ordinary, Builder.startTag, mode]; exact h.leads_passDoctype _
    | endTag name => rw [Builder.ordinary, Builder.endTag, mode]; exact h.leads_passDoctype _
    | characters text => rw [Builder.ordinary, Builder.characters, mode]; exact h.leads_passDoctype _
    | spaces text => rw [Builder.ordinary, Builder.spaces, mode]; exact h.proceeds rfl
    | comment data => rw [Builder.ordinary, Builder.comment, mode]; exact commented _
    | doctype d =>
        have checked : Blank (if d.isKnown then b else b.report .unknownDoctype) ∧
            (if d.isKnown then b else b.report .unknownDoctype).collapse = b.collapse := by
          split
          · exact ⟨h, rfl⟩
          · exact ⟨h.report _, Builder.collapse_report b _⟩
        rw [Builder.ordinary, Builder.doctype, mode]
        dsimp only
        generalize (if d.isKnown then b else b.report .unknownDoctype) = c at checked ⊢
        have plain : (Part.doctype (if d.name.isEmpty then none
          else some (BuiltAttr.localPart d.name)) d.publicId d.systemId).tag? = none := rfl
        have inserted := checked.1.insert plain
        have noted : Blank { c with
            arena := c.arena.insert Arena.document (Part.doctype (if d.name.isEmpty then none
              else some (BuiltAttr.localPart d.name)) d.publicId d.systemId)
            oldLayout := c.oldLayout || d.wantsOldLayout
            mode := .beforeHtml } := inserted.adjust rfl (Or.inr rfl)
        exact noted.proceeds checked.2
  · cases t with
    | startTag tag =>
        rw [Builder.ordinary, Builder.startTag, mode]
        have noted : Blank { b with
            mode := .beforeHtml
            firstIsRoot := b.firstIsRoot || tag.name == "html" } := h.adjust rfl (Or.inr rfl)
        exact Early.proceeds (noted.insertRoot.adjust rfl rfl rfl) rfl
    | endTag name =>
        rw [Builder.ordinary, Builder.endTag, mode]
        dsimp only
        split
        · exact h.leads_insertRoot
        · exact reported _
    | characters text =>
        rw [Builder.ordinary, Builder.characters, mode]
        exact h.leads_insertRoot
    | spaces text => rw [Builder.ordinary, Builder.spaces, mode]; exact h.proceeds rfl
    | comment data => rw [Builder.ordinary, Builder.comment, mode]; exact commented _
    | doctype d => rw [Builder.ordinary, Builder.doctype, mode]; exact reported _

theorem finishMode : Proceeds lost b b.finishMode ∧ b.finishMode.again = true ∧
    b.finishMode.mode.ahead < b.mode.ahead := by
  rcases h.mode with mode | mode
  · rw [Builder.finishMode, mode]
    exact ⟨h.leads_passDoctype _, rfl,
      (by decide : Mode.beforeHtml.ahead < Mode.initial.ahead)⟩
  · rw [Builder.finishMode, mode]
    exact ⟨h.leads_insertRoot, rfl, (by decide : Mode.beforeHead.ahead < Mode.beforeHtml.ahead)⟩

end Blank

end HtmlTree.Html
