import HtmlTree.Proofs.Html.FitEnds
import HtmlTree.Proofs.Html.Opening

/-! Start tags where the mode goes with what is open. A part of a table is opened on top of what it
stands in, and the mode goes by it from then on; a frameset may take the place of the body. -/

namespace HtmlTree.Html

open Arena (Keeps)

variable {b c d : Builder} {o : Open}

/-- Construction from the body on, raw text aside. It has not broken down. -/
inductive Settled (b : Builder) : Prop
  | fit (h : Fit b)
  | framed (h : Framed b) (alive : b.collapse = none)

/-- Raw text is read into the current element, in the course of that. -/
structure InRawText (b : Builder) : Prop where
  mode : b.mode = .text
  space : b.current.space = b.standard
  back : Settled (b.pop.goto b.textReturn)

/-- Construction from the body on. It may have begun to read raw text, and then the lexer does too. -/
def SettledOrRaw (b : Builder) : Prop := Settled b ∨ InRawText b ∧ b.again = false ∧ b.Tells

namespace Settled

theorem alive (h : Settled b) : b.collapse = none := by
  cases h with
  | fit h => exact h.alive
  | framed _ alive => exact alive

theorem adjust (h : Settled b) (core : c.core = b.core) (mode : c.mode = b.mode)
    (tableReturn : c.tableReturn = b.tableReturn) (collapse : c.collapse = b.collapse) : Settled c := by
  cases h with
  | fit h => exact .fit (h.adjust core mode tableReturn collapse)
  | framed h alive => exact .framed (h.adjust core mode) (collapse.trans alive)

theorem rebuild (h : Settled b) {a : Arena} (keeps : Keeps b.arena a) :
    Settled { b with arena := a } := by
  cases h with
  | fit h => exact .fit (h.rebuild keeps)
  | framed h alive => exact .framed ⟨h.html, h.formatting, h.context, h.standard, h.mode⟩ alive

theorem settledOrRaw (h : Settled b) : SettledOrRaw b := Or.inl h

theorem insertRaw (h : Settled b) (once : b.again = false) (t : Tag) {kind : TextKind}
    (verbatim : kind.isVerbatim = true) : SettledOrRaw (b.insertRaw t kind) := by
  obtain ⟨a, inserted, keeps, _⟩ := b.exists_insertPart t.name b.standard
    (Foreign.builtAttrs b.standard false t.attrs)
  rw [Builder.insertRaw_eq inserted]
  exact Or.inr ⟨⟨rfl, rfl, (h.rebuild keeps).adjust rfl rfl rfl rfl⟩, once,
    fun _ => ⟨kind, rfl, verbatim⟩⟩

end Settled

theorem InRawText.adjust (h : InRawText b) (core : c.core = b.core) (mode : c.mode = b.mode)
    (textReturn : c.textReturn = b.textReturn) (tableReturn : c.tableReturn = b.tableReturn)
    (collapse : c.collapse = b.collapse) : InRawText c := by
  have whole := core
  simp only [Builder.core, Prod.mk.injEq] at core
  obtain ⟨-, stack, -, -, -, standard⟩ := core
  constructor
  case mode => exact mode.trans h.mode
  case space =>
    rw [Builder.current, stack, standard]
    exact h.space
  case back =>
    refine h.back.adjust ?_ textReturn tableReturn collapse
    simp only [Builder.core, Prod.mk.injEq] at whole
    simp only [Builder.core, Builder.goto, Builder.pop, whole]

theorem SettledOrRaw.adjust (h : SettledOrRaw b) (core : c.core = b.core) (mode : c.mode = b.mode)
    (textReturn : c.textReturn = b.textReturn) (tableReturn : c.tableReturn = b.tableReturn)
    (lexerState : c.lexerState = b.lexerState) (collapse : c.collapse = b.collapse)
    (again : b.again = false → c.again = false) : SettledOrRaw c := by
  rcases h with settled | ⟨inRawText, once, tells⟩
  · exact Or.inl (settled.adjust core mode tableReturn collapse)
  · refine Or.inr ⟨inRawText.adjust core mode textReturn tableReturn collapse, again once, ?_⟩
    rw [Builder.Tells, mode, lexerState]
    exact tells

/-- A step that the mode's elements are not concerned in takes nothing up again. -/
theorem SeatKept.once (s : SeatKept b c) (once : b.again = false) : c.again = false := by
  rw [← Bool.not_eq_true]
  intro again
  rw [s.again again] at once
  cases once

theorem Fit.settledOrRaw (h : Fit b) : SettledOrRaw b := (Settled.fit h).settledOrRaw

section Fits

variable {s : List Open} {name : String} {names : List String}

theorem tightSeats_apart (found : tightSeats name = some names) :
    name ≠ "html" ∧ name ≠ "body" ∧ looseSeats name = none := by
  rw [tightSeats.eq_def] at found
  split at found <;> cases found <;> decide

theorem looseSeats_apart (found : looseSeats name = some names) :
    name ≠ "html" ∧ name ≠ "body" ∧ tightSeats name = none := by
  rw [looseSeats.eq_def] at found
  split at found <;> cases found <;> decide

theorem fits_of_tight (found : tightSeats name = some names)
    (here : names.contains (ground s) = true) : Fits name s where
  root html := ((tightSeats_apart found).1 html).elim
  body body := ((tightSeats_apart found).2.1 body).elim
  tight names' found' := by
    rw [found, Option.some.injEq] at found'
    exact found' ▸ here
  loose names' found' := by
    rw [(tightSeats_apart found).2.2] at found'
    cases found'

theorem fits_of_loose (found : looseSeats name = some names)
    (here : names.contains (seat s) = true) : Fits name s where
  root html := ((looseSeats_apart found).1 html).elim
  body body := ((looseSeats_apart found).2.1 body).elim
  tight names' found' := by
    rw [(looseSeats_apart found).2.2] at found'
    cases found'
  loose names' found' := by
    rw [found, Option.some.injEq] at found'
    exact found' ▸ here

end Fits

namespace Ordered

variable (ordered : Ordered b) {t : Tag}
include ordered

theorem stack_insert : (b.insert t).stack = ⟨b.arena.size, t.name, .html⟩ :: b.stack := by
  rw [Builder.insert, Builder.stack_insertPart, ordered.standard]

theorem seat_insert (isSeat : seatTags.contains t.name = true) : seat (b.insert t).stack = t.name := by
  rw [ordered.stack_insert, seat_cons_of (by exact isSeat)]

variable (alive : b.collapse = none) (fit : Fits t.name b.stack)
include alive fit

theorem fit_open (mode : Mode) (wide : mode.isWide = true)
    (place : mode.seats.contains t.name = true) : Fit ((b.insert t).goto mode) := by
  have opened : Ordered ((b.insert t).goto mode) := (ordered.insert fit).same rfl
  exact opened.fit_top ((b.collapse_insert t).trans alive) ordered.stack_insert wide place

theorem fit_columns (name : t.name = "colgroup") : Fit ((b.insert t).goto .inColumnGroup) := by
  constructor
  case toOrdered => exact (ordered.insert fit).same rfl
  case alive => exact (b.collapse_insert t).trans alive
  case place =>
    change Mode.inColumnGroup.seats.contains (seat (b.insert t).stack) = true
    rw [ordered.seat_insert (by rw [name]; decide), name]
    decide
  case columns =>
    intro _
    change (b.insert t).current.name = "colgroup"
    rw [Builder.current, ordered.stack_insert]
    exact name
  case select => exact fun absurd => by rcases absurd with absurd | absurd <;> cases absurd
  case tableReturn => exact fun absurd => by cases absurd

theorem fit_select (name : t.name = "select") {mode : Mode}
    (select : mode = .inSelect ∨ mode = .inSelectInTable) : Fit ((b.insert t).goto mode) := by
  have seats : mode ≠ .inTableText ∧ mode.seats = ["select"] ∧ mode ≠ .inColumnGroup := by
    rcases select with rfl | rfl <;> decide
  constructor
  case toOrdered => exact (ordered.insert fit).same rfl
  case alive => exact (b.collapse_insert t).trans alive
  case place =>
    rw [Builder.ruling_eq seats.1]
    change mode.seats.contains (seat (b.insert t).stack) = true
    rw [ordered.seat_insert (by rw [name]; decide), seats.2.1, name]
    decide
  case columns => exact fun columns => (seats.2.2 columns).elim
  case select =>
    intro _
    change findInScope .select _ (b.insert t).stack = true
    have here : (⟨b.arena.size, t.name, .html⟩ : Open).isHtml "select" = true := by
      rw [Open.isHtml, name]
      rfl
    rw [ordered.stack_insert, findInScope, here, Bool.true_or]
  case tableReturn => exact fun text => (seats.1 text).elim

end Ordered

def Mode.takesBody (m : Mode) : Bool := m.isFlow || m.holdsText

theorem Mode.wide_of_takesBody {m : Mode} (takes : m.takesBody = true) : m.isWide = true := by
  cases m <;> first
    | rfl
    | cases takes

def itemTags : List String := ["p", "li", "dd", "dt", "option"]

theorem Builder.endTag_item {name : String} (item : itemTags.contains name = true)
    (takes : b.mode.takesBody = true) : b.endTag name = b.bodyEnd name ∨
      b.endTag name = (b.report (.endTagInTable name)).fostered (·.bodyEnd name) := by
  have known := List.contains_iff_mem.mp item
  simp only [itemTags, List.mem_cons, List.not_mem_nil, or_false] at known
  rw [Builder.endTag]
  split
  all_goals try (next mode => rw [mode] at takes; cases takes)
  · exact Or.inl rfl
  all_goals rcases known with rfl | rfl | rfl | rfl | rfl
  all_goals first
    | exact Or.inl rfl
    | exact Or.inr rfl

namespace Builder

def plainStart : BodyStart → String → Bool
  | .head, name => lateHeadTags.contains name
  | .frameset, name => name == "frameset"
  | .form, name => name == "form"
  | .link, name => name == "a"
  | .noBreak, name => name == "nobr"
  | .formatting, name => passingTags.contains name
  | .table, name => name == "table"
  | .select, name => name == "select"
  | .math, name => name == "math"
  | .svg, name => name == "svg"
  | .root, _ | .body, _ | .misplaced, _ => true
  | _, name => !seatTags.contains name

theorem plainStart_of_ruleFor {name : String} {kind : BodyStart}
    (found : ruleFor bodyStarts name = some kind) : plainStart kind name = true :=
  ruleFor_spec (by decide +kernel) found

theorem not_isSeat_of_ruleFor {name : String} (unruled : ruleFor bodyStarts name = none) :
    seatTags.contains name = false := by
  have all : ∀ name ∈ seatTags, (ruleFor bodyStarts name).isSome = true := by decide +kernel
  rw [← Bool.not_eq_true]
  intro isSeat
  have ruled := all name (List.contains_iff_mem.mp isSeat)
  rw [unruled] at ruled
  cases ruled

theorem item_of_itemsEndedBy {name tag : String} (ended : (itemsEndedBy tag).contains name = true) :
    itemTags.contains name = true := by
  rw [itemsEndedBy] at ended
  split at ended
  all_goals
    have known := List.contains_iff_mem.mp ended
    simp only [List.mem_cons, List.not_mem_nil, or_false] at known
    rcases known with rfl | rfl <;> decide

end Builder

namespace SeatKept

section Items

variable (s : SeatKept b c) (free : Free b.stack) (takes : b.mode.takesBody = true)
include s free takes

theorem endItem {name : String} (item : itemTags.contains name = true) :
    SeatKept b (c.settled (·.endTag name)) := by
  have plain : ∀ name ∈ itemTags, seatTags.contains name = false ∧ name ≠ "body" ∧ name ≠ "html" := by
    decide
  obtain ⟨notSeat, inside⟩ := plain name (List.contains_iff_mem.mp item)
  have other : name ≠ Html.seat b.stack := by
    rintro rfl
    rw [isSeat_of_seat free.1.1] at notSeat
    cases notSeat
  have ended : SeatKept b (c.endTag name) := by
    rcases Builder.endTag_item item (s.mode ▸ takes) with shape | shape
    · rw [shape]
      exact s.bodyEnd free other inside
    · rw [shape]
      exact (s.report _).fostered fun seatKept => seatKept.bodyEnd free other inside
  exact ended.adjust rfl rfl rfl (fun absurd => by cases absurd) rfl

theorem startListItem {t : Tag} (plain : seatTags.contains t.name = false) :
    SeatKept b (c.startListItem t) := by
  have opened : ∀ {d : Builder}, SeatKept b d → SeatKept b
      ((if d.inScope .button "p" then d.settled (·.endTag "p") else d).insert t) := by
    intro d seatKept
    split
    · exact (seatKept.endItem free takes (by decide)).insert plain
    · exact seatKept.insert plain
  have begun := s.ruleOutFrameset
  rw [Builder.startListItem]
  split
  · split
    · next ended => exact opened (begun.endItem free takes (Builder.item_of_itemsEndedBy ended))
    · exact opened begun
  · exact opened begun

theorem startOption {t : Tag} (plain : seatTags.contains t.name = false) :
    SeatKept b (c.startOption t) := by
  rw [Builder.startOption]
  split
  · exact (s.endItem free takes (by decide)).reconstruct.insert plain
  · exact s.reconstruct.insert plain

end Items

end SeatKept

namespace Fit

section BodyStarts

variable (h : Fit b)
include h

theorem insertVoid (t : Tag) : Fit (b.insertVoid t) := by
  apply h.stackKept (h.start.insertVoid t)
  change (b.insert t).stack.tail = b.stack
  rw [h.stack_insert, List.tail_cons]

theorem startVoid (t : Tag) : Fit (b.startVoid t) := (h.insertVoid t).adjust rfl rfl rfl rfl

theorem startInHead (once : b.again = false) {t : Tag}
    (known : Builder.lateHeadTags.contains t.name = true) : SettledOrRaw (b.startInHead t) := by
  rcases Builder.startInHead_late known with shape | shape | ⟨kind, verbatim, shape⟩
  · rw [shape]
    exact (h.startVoid t).settledOrRaw
  · rw [shape]
    exact settledOrRaw ((h.startVoid t).adjust rfl rfl rfl rfl)
  · rw [shape]
    exact (Settled.fit h).insertRaw once t verbatim

theorem startFrameset (free : Free b.stack) {t : Tag} (name : t.name = "frameset") :
    Settled (b.startFrameset t) := by
  have reported := h.report (.startTag "frameset")
  have seatKept := h.start.report (.startTag "frameset")
  obtain ⟨front, body, root, shape, isBody, _⟩ := reported.seated.exists_body (seatKept.free' free).1
  have second : (b.report (.startTag "frameset")).second = some body := by
    rw [Builder.second, shape, List.reverse_append]
    rfl
  rw [Builder.startFrameset, second]
  dsimp only
  rw [isBody, if_pos (beq_self_eq_true _)]
  split
  · refine .framed ?_ ((Builder.collapse_insert _ t).trans reported.alive)
    obtain ⟨a, inserted, _⟩ := Builder.exists_insertPart
      (Builder.popToNames { b.report (.startTag "frameset") with
        arena := (b.report (.startTag "frameset")).arena.detach body.id } ["html"])
      t.name (b.report (.startTag "frameset")).standard
      (Foreign.builtAttrs (b.report (.startTag "frameset")).standard false t.attrs)
    have shape := congrArg (fun d : Builder => d.goto .inFrameset) inserted
    refine Eq.mpr (congrArg Framed shape) ?_
    constructor
    case html =>
      refine List.forall_mem_cons.mpr ⟨reported.standard, fun o inside => ?_⟩
      exact reported.html o ((popTo_suffix _ _).subset inside)
    case formatting => exact fun o inside => (reported.formatting o inside).2.1
    case context => exact reported.context
    case standard => exact reported.standard
    case mode => exact Or.inl ⟨rfl, name⟩
  · exact .fit reported

theorem startTable (flow : b.mode.isFlow = true) {t : Tag} (name : t.name = "table") :
    Fit (b.startTable t) := by
  have flowSpec : ∀ m : Mode, m.isFlow = true → m.isWide = true ∧ m ≠ .inTableText ∧
      ∀ name ∈ m.seats, tableSeats.contains name = true := by
    intro m
    cases m <;> decide
  obtain ⟨wide, other, seats⟩ := flowSpec _ flow
  have place := seats _ (List.contains_iff_mem.mp (h.seats rfl other))
  have opened : ∀ {c : Builder}, SeatKept b c → Fit (((c.insert t).ruleOutFrameset).goto .inTable) := by
    intro c seatKept
    have fit : Fits t.name c.stack := by
      rw [name]
      refine fits_of_loose rfl ?_
      rw [seatKept.seat]
      exact place
    exact (seatKept.ordered.fit_open (seatKept.collapse.trans h.alive) fit .inTable rfl
      (by rw [name]; decide)).adjust rfl rfl rfl rfl
  rw [Builder.startTable]
  split
  · exact opened h.start
  · exact opened (h.start.leaveParagraph (h.free_of_mode rfl wide))

theorem startSelect (takes : b.mode.takesBody = true) {t : Tag} (name : t.name = "select") :
    Fit (b.startSelect t) := by
  have takesSpec : ∀ m : Mode, m.takesBody = true → m ≠ .inTableText ∧
      ∀ name ∈ m.seats, selectSeats.contains name = true := by
    intro m
    cases m <;> decide
  obtain ⟨other, seats⟩ := takesSpec _ takes
  have opened := h.start.reconstruct
  have fit : Fits t.name b.reconstruct.stack := by
    rw [name]
    refine fits_of_loose rfl ?_
    rw [opened.seat]
    exact seats _ (List.contains_iff_mem.mp (h.seats rfl other))
  have select : ∀ {mode : Mode}, mode = .inSelect ∨ mode = .inSelectInTable →
      Fit ((b.reconstruct.insert t).ruleOutFrameset.goto mode) := fun select =>
    (opened.ordered.fit_select (opened.collapse.trans h.alive) fit name select).adjust rfl rfl rfl rfl
  rw [Builder.startSelect]
  split
  · exact select (Or.inr rfl)
  · exact select (Or.inl rfl)

theorem startButton (free : Free b.stack) {t : Tag} (plain : seatTags.contains t.name = false) :
    Fit (b.startButton t) := by
  rw [Builder.startButton]
  split
  · exact (h.seatKept ((h.start.report _).endBlock free (by decide) (by decide)) free).retry
  · exact h.seatKept (h.start.reconstruct.insert plain).ruleOutFrameset free

theorem bodyStart (once : b.again = false) (takes : b.mode.takesBody = true) {t : Tag}
    (table : t.name = "table" → b.mode.isFlow = true) (html : t.name ≠ "math" ∧ t.name ≠ "svg") :
    SettledOrRaw (b.bodyStart t) := by
  have free := h.free_of_mode rfl (Mode.wide_of_takesBody takes)
  have seatKept : ∀ {c : Builder}, SeatKept b c → SettledOrRaw c := fun s =>
    (h.seatKept s free).settledOrRaw
  have raw : ∀ {c : Builder} {kind : TextKind}, SeatKept b c → kind.isVerbatim = true →
      SettledOrRaw (c.insertRaw t kind) := fun s verbatim =>
    (Settled.fit (h.seatKept s free)).insertRaw (s.once once) t verbatim
  have plain : (!seatTags.contains t.name) = true → seatTags.contains t.name = false :=
    (Bool.not_eq_true' _).mp
  rw [Builder.bodyStart]
  split
  · exact seatKept (h.start.startRoot t)
  · next found => exact h.startInHead once (Builder.plainStart_of_ruleFor found)
  · exact seatKept (h.start.startBody free t)
  · next found =>
    exact (h.startFrameset free (eq_of_beq (Builder.plainStart_of_ruleFor found))).settledOrRaw
  · next found => exact seatKept (h.start.startBlock free (plain (Builder.plainStart_of_ruleFor found)))
  · next found => exact seatKept (h.start.startHeading free (plain (Builder.plainStart_of_ruleFor found)))
  · next found => exact seatKept (h.start.startLines free (plain (Builder.plainStart_of_ruleFor found)))
  · next found =>
    exact seatKept (h.start.startForm free (eq_of_beq (Builder.plainStart_of_ruleFor found)))
  · next found =>
    exact seatKept (h.start.startListItem free takes (plain (Builder.plainStart_of_ruleFor found)))
  · next found => exact seatKept (h.start.startPlaintext free (plain (Builder.plainStart_of_ruleFor found)))
  · next found =>
    exact seatKept (h.start.startLink free (eq_of_beq (Builder.plainStart_of_ruleFor found)))
  · next found => exact seatKept (h.start.startFormatting (Builder.plainStart_of_ruleFor found))
  · next found =>
    exact seatKept (h.start.startNoBreak free (eq_of_beq (Builder.plainStart_of_ruleFor found)))
  · next found =>
    exact (h.startButton free (plain (Builder.plainStart_of_ruleFor found))).settledOrRaw
  · next found => exact seatKept (h.start.startEmbedded (plain (Builder.plainStart_of_ruleFor found)))
  · exact raw (h.start.leaveParagraph free).reconstruct.ruleOutFrameset rfl
  · next found =>
    have name := eq_of_beq (Builder.plainStart_of_ruleFor found)
    exact (h.startTable (table name) name).settledOrRaw
  · exact seatKept (h.start.insertImage t).acknowledge
  · exact seatKept (h.start.startVoid t)
  · exact seatKept (h.start.insertInput t).acknowledge
  · exact seatKept (h.start.insertRule free t).acknowledge
  · exact seatKept ((h.start.report _).insertImage _)
  · exact seatKept (h.start.startSearch free t)
  · next found => exact seatKept (h.start.startTextarea (plain (Builder.plainStart_of_ruleFor found)))
  · exact raw h.start.ruleOutFrameset rfl
  · exact raw h.start rfl
  · next found =>
    exact (h.startSelect takes (eq_of_beq (Builder.plainStart_of_ruleFor found))).settledOrRaw
  · next found => exact seatKept (h.start.startRuby (plain (Builder.plainStart_of_ruleFor found)))
  · next found =>
    exact seatKept (h.start.startOption free takes (plain (Builder.plainStart_of_ruleFor found)))
  · next found => exact (html.1 (eq_of_beq (Builder.plainStart_of_ruleFor found))).elim
  · next found => exact (html.2 (eq_of_beq (Builder.plainStart_of_ruleFor found))).elim
  · exact seatKept (h.start.report _)
  · next unruled => exact seatKept (h.start.startOther (Builder.not_isSeat_of_ruleFor unruled))

end BodyStarts

section TableStarts

variable (h : Fit b)
include h

theorem exists_clearToTable (mode : b.mode = .inTable) : ∃ c, b.clearToTable = c ∧ Ordered c ∧
    ground c.stack = "table" ∧ c.collapse = none := by
  have isTable := h.seat_eq mode rfl
  obtain ⟨o, rest, left, named, ordered⟩ := h.exists_cleared ["table", "html"] (by decide)
    (by rw [isTable]; decide)
  have cleared : b.clearToTable = { b with stack := o :: rest } :=
    congrArg (fun stack => { b with stack }) left
  refine ⟨_, cleared, ordered, ?_, h.alive⟩
  rw [ground_cons_of, named, isTable]
  rw [Open.isSeat, named, isTable]
  decide

theorem startColumns (mode : b.mode = .inTable) {t : Tag} (name : t.name = "colgroup") :
    Fit (b.startColumns t) := by
  obtain ⟨c, cleared, ordered, table, alive⟩ := h.exists_clearToTable mode
  rw [Builder.startColumns, cleared]
  refine ordered.fit_columns alive ?_ name
  rw [name]
  exact fits_of_tight rfl (by rw [table]; decide)

theorem startRowGroup (mode : b.mode = .inTable) {t : Tag}
    (group : Builder.rowGroupTags.contains t.name = true) : Fit (b.startRowGroup t) := by
  have tight : ∀ name ∈ Builder.rowGroupTags, tightSeats name = some ["table"] := by decide
  obtain ⟨c, cleared, ordered, table, alive⟩ := h.exists_clearToTable mode
  rw [Builder.startRowGroup, cleared]
  refine ordered.fit_open alive ?_ _ rfl group
  exact fits_of_tight (tight _ (List.contains_iff_mem.mp group)) (by rw [table]; decide)

theorem startCaption (mode : b.mode = .inTable) {t : Tag} (name : t.name = "caption") :
    Fit ((b.clearToTable.pushMarker.insert t).goto .inCaption) := by
  obtain ⟨c, cleared, ordered, table, alive⟩ := h.exists_clearToTable mode
  have marked := (SeatKept.refl ordered).pushMarker
  rw [cleared]
  refine marked.ordered.fit_open (marked.collapse.trans alive) ?_ _ rfl (by rw [name]; decide)
  rw [name]
  exact fits_of_tight rfl (by rw [show c.pushMarker.stack = c.stack from rfl, table]; decide)

theorem startTableAgain : Fit b.startTableAgain := by
  have ended := (h.report (.startImpliesEnd "table" "table")).endTag "table"
  rw [Builder.startTableAgain]
  split
  · exact ended.adjust rfl rfl rfl rfl
  · exact (ended.adjust rfl rfl rfl rfl).retry

theorem startFormInTable {t : Tag} (name : t.name = "form") : Fit (b.startFormInTable t) := by
  have reported := h.report .formInTable
  rw [Builder.startFormInTable]
  split
  · exact reported
  · obtain ⟨a, inserted, keeps, tagged, _⟩ := (b.report .formInTable).exists_insertPart t.name
      (b.report .formInTable).standard
      (Foreign.builtAttrs (b.report .formInTable).standard false t.attrs)
    have shape : Builder.pop { (b.report .formInTable).insert t with
        form := some ((b.report .formInTable).insert t).current } = { b.report .formInTable with
          arena := a
          form := some ⟨(b.report .formInTable).arena.size, t.name, (b.report .formInTable).standard⟩ } :=
      congrArg (fun d : Builder => Builder.pop { d with form := some d.current }) inserted
    rw [shape]
    have rebuilt := reported.rebuild keeps
    exact { rebuilt with
      form := fun o entered => by
        cases entered
        exact tagged.trans (congrArg some name) }

theorem startMisnested (once : b.again = false) (holds : b.mode.holdsText = true) {t : Tag}
    (table : t.name ≠ "table") (html : t.name ≠ "math" ∧ t.name ≠ "svg") :
    SettledOrRaw (b.startMisnested t) := by
  have seatKept := h.start.report (.startTagInTable t.name)
  have begun : Fit { b.report (.startTagInTable t.name) with fostering := true } :=
    (h.report _).adjust rfl rfl rfl rfl
  have takes : (b.report (.startTagInTable t.name)).mode.takesBody = true := by
    rw [seatKept.mode, Mode.takesBody, holds, Bool.or_true]
  have started := begun.bodyStart (seatKept.once once) takes (fun isTable => (table isTable).elim) html
  exact started.adjust rfl rfl rfl rfl rfl rfl fun _ => rfl

theorem startInTable (once : b.again = false) (holds : b.mode.holdsText = true) {t : Tag}
    (part : ["caption", "colgroup", "col", "tbody", "tfoot", "thead", "td", "th", "tr"].contains t.name =
      true → b.mode = .inTable) (html : t.name ≠ "math" ∧ t.name ≠ "svg") :
    SettledOrRaw (b.startInTable t) := by
  have rows : Builder.rowGroupTags.contains t.name = true → b.mode = .inTable →
      SettledOrRaw (b.startRowGroup t) := fun group mode => (h.startRowGroup mode group).settledOrRaw
  have cells : b.mode = .inTable → SettledOrRaw (b.startRowGroup (.implied "tbody")).retry := fun mode =>
    (h.startRowGroup (t := .implied "tbody") mode (by decide)).retry.settledOrRaw
  rw [Builder.startInTable]
  split
  · exact (h.startRoot t).settledOrRaw
  · next name => exact (h.startCaption (part (by rw [name]; decide)) name).settledOrRaw
  · next name => exact (h.startColumns (part (by rw [name]; decide)) name).settledOrRaw
  · next name =>
    exact (h.startColumns (t := .implied "colgroup") (part (by rw [name]; decide)) rfl).retry.settledOrRaw
  · next name => exact rows (by rw [name]; decide) (part (by rw [name]; decide))
  · next name => exact rows (by rw [name]; decide) (part (by rw [name]; decide))
  · next name => exact rows (by rw [name]; decide) (part (by rw [name]; decide))
  · next name => exact cells (part (by rw [name]; decide))
  · next name => exact cells (part (by rw [name]; decide))
  · next name => exact cells (part (by rw [name]; decide))
  · exact h.startTableAgain.settledOrRaw
  · next name => exact h.startInHead once (by rw [name]; decide)
  · next name => exact h.startInHead once (by rw [name]; decide)
  · next name =>
    split
    · exact ((h.report _).insertVoid t).settledOrRaw
    · exact h.startMisnested once holds (by rw [name]; decide) html
  · next name => exact (h.startFormInTable name).settledOrRaw
  · next notTable _ _ _ _ => exact h.startMisnested once holds notTable html

theorem startInCaption (once : b.again = false) (mode : b.mode = .inCaption) {t : Tag}
    (html : t.name ≠ "math" ∧ t.name ≠ "svg") : SettledOrRaw (b.startInCaption t) := by
  rw [Builder.startInCaption]
  split
  · exact (h.startRoot t).settledOrRaw
  on_goal 10 => exact h.bodyStart once (by rw [mode]; rfl) (fun _ => by rw [mode]; rfl) html
  all_goals exact (h.passCaption mode).settledOrRaw

theorem startInColumnGroup (mode : b.mode = .inColumnGroup) (t : Tag) :
    Fit (b.startInColumnGroup t) := by
  rw [Builder.startInColumnGroup]
  split
  · exact h.startRoot t
  · exact h.startVoid t
  · exact h.passColumns mode

theorem startRow (mode : b.mode = .inTableBody) {t : Tag} (name : t.name = "tr") :
    Fit (b.startRow t) := by
  obtain ⟨o, rest, cleared, group, ordered⟩ := h.exists_clearToRowGroup mode
  have all : ∀ name ∈ Builder.rowGroupTags, seatTags.contains name = true := by decide
  rw [Builder.startRow, cleared]
  refine ordered.fit_open h.alive ?_ _ rfl (by rw [name]; decide)
  rw [name]
  refine fits_of_tight rfl ?_
  rw [ground_cons_of (all _ (List.contains_iff_mem.mp group))]
  exact group

theorem startInTableBody (once : b.again = false) (mode : b.mode = .inTableBody) {t : Tag}
    (html : t.name ≠ "math" ∧ t.name ≠ "svg") : SettledOrRaw (b.startInTableBody t) := by
  have cell : ∀ f, SettledOrRaw (((b.report f).startRow (.implied "tr")).retry) := fun f =>
    ((h.report f).startRow (t := .implied "tr") ((b.mode_report f).trans mode) rfl).retry.settledOrRaw
  rw [Builder.startInTableBody]
  split
  · exact (h.startRoot t).settledOrRaw
  · next name => exact (h.startRow mode name).settledOrRaw
  · exact cell _
  · exact cell _
  on_goal 7 =>
    refine h.startInTable once (by rw [mode]; rfl) (fun part => ?_) html
    have known := List.contains_iff_mem.mp part
    simp only [List.mem_cons, List.not_mem_nil, or_false] at known
    grind
  all_goals exact (h.passRowGroup mode).settledOrRaw

theorem openCell (mode : b.mode = .inRow) {t : Tag} (cell : ["td", "th"].contains t.name = true) :
    Fit ((b.clearToRow.insert t).goto .inCell).pushMarker := by
  have tight : ∀ name ∈ ["td", "th"], tightSeats name = some ["tr"] := by decide
  obtain ⟨o, rest, top, named, ordered, alive⟩ := h.exists_clearToRow mode
  have fit : Fits t.name b.clearToRow.stack := by
    refine fits_of_tight (tight _ (List.contains_iff_mem.mp cell)) ?_
    rw [top, ground_cons_of, named]
    · decide
    · rw [Open.isSeat, named]
      decide
  have opened := ordered.fit_open alive fit .inCell rfl cell
  exact opened.seatKept opened.start.pushMarker (opened.free_of_mode rfl rfl)

theorem startInRow (once : b.again = false) (mode : b.mode = .inRow) {t : Tag}
    (html : t.name ≠ "math" ∧ t.name ≠ "svg") : SettledOrRaw (b.startInRow t) := by
  rw [Builder.startInRow]
  split
  · exact (h.startRoot t).settledOrRaw
  · next name => exact (h.openCell mode (by rw [name]; decide)).settledOrRaw
  · next name => exact (h.openCell mode (by rw [name]; decide)).settledOrRaw
  on_goal 8 =>
    refine h.startInTable once (by rw [mode]; rfl) (fun part => ?_) html
    have known := List.contains_iff_mem.mp part
    simp only [List.mem_cons, List.not_mem_nil, or_false] at known
    grind
  all_goals exact (h.passRow mode).settledOrRaw

theorem startInCell (once : b.again = false) (mode : b.mode = .inCell) {t : Tag}
    (html : t.name ≠ "math" ∧ t.name ≠ "svg") : SettledOrRaw (b.startInCell t) := by
  have cell := h.seats mode (by decide)
  have found : ["td", "th"].any (b.inScope .table) = true :=
    List.any_eq_true.mpr ⟨_, List.contains_iff_mem.mp cell, h.inScope_seat⟩
  have left : SettledOrRaw
      (if ["td", "th"].any (b.inScope .table) then b.closeCell.retry else b.missing) := by
    rw [if_pos found]
    exact (h.closeCell mode).retry.settledOrRaw
  rw [Builder.startInCell]
  split
  · exact (h.startRoot t).settledOrRaw
  on_goal 10 => exact h.bodyStart once (by rw [mode]; rfl) (fun _ => by rw [mode]; rfl) html
  all_goals exact left

theorem popIfCurrent (select : b.mode = .inSelect ∨ b.mode = .inSelectInTable) (name : String)
    (option : ["option", "optgroup"].contains name = true) :
    Fit (b.popIfCurrent name) ∧ (b.popIfCurrent name).mode = b.mode := by
  rw [Builder.popIfCurrent]
  split
  · next current => exact ⟨h.popOption select option current, rfl⟩
  · exact ⟨h, rfl⟩

theorem startOptionInSelect (select : b.mode = .inSelect ∨ b.mode = .inSelectInTable) {t : Tag}
    (option : ["option", "optgroup"].contains t.name = true) : Fit (b.insert t) := by
  have plain : ∀ name ∈ ["option", "optgroup"], seatTags.contains name = false ∧
      ["optgroup", "option"].contains name = true := by decide
  obtain ⟨other, passed⟩ := plain _ (List.contains_iff_mem.mp option)
  apply h.inSelect select (h.start.insert other)
  have scope := h.select select
  have stays : Scope.select.stops ⟨b.arena.size, t.name, .html⟩ = false := by
    change (!(true && ["optgroup", "option"].contains t.name)) = false
    rw [passed]
    rfl
  rw [Builder.inScope] at scope
  rw [Builder.inScope, h.stack_insert, findInScope, stays, scope, Bool.not_false, Bool.true_and,
    Bool.or_true]

theorem startInSelect (once : b.again = false)
    (select : b.mode = .inSelect ∨ b.mode = .inSelectInTable) (t : Tag) :
    SettledOrRaw (b.startInSelect t) := by
  have still : ∀ f, (b.report f).mode = .inSelect ∨ (b.report f).mode = .inSelectInTable := fun f => by
    rw [b.mode_report]
    exact select
  have option := h.popIfCurrent select "option" (by decide)
  have group := option.1.popIfCurrent (option.2 ▸ select) "optgroup" (by decide)
  have left : SettledOrRaw (if (b.report .inputInSelect).inScope .select "select" then
      (b.report .inputInSelect).endSelect.retry else (b.report .inputInSelect).needContext) := by
    rw [if_pos ((h.report _).select (still _))]
    exact ((h.report _).endSelect (still _)).retry.settledOrRaw
  rw [Builder.startInSelect]
  split
  · exact (h.startRoot t).settledOrRaw
  · next name =>
    exact (option.1.startOptionInSelect (option.2 ▸ select) (by rw [name]; decide)).settledOrRaw
  · next name =>
    exact (group.1.startOptionInSelect (group.2 ▸ option.2 ▸ select) (by rw [name]; decide)).settledOrRaw
  · exact ((h.report _).endSelect (still _)).settledOrRaw
  · exact left
  · exact left
  · exact left
  · exact (Settled.fit h).insertRaw once t rfl
  · exact (h.report _).settledOrRaw

theorem startInSelectInTable (once : b.again = false) (mode : b.mode = .inSelectInTable) (t : Tag) :
    SettledOrRaw (b.startInSelectInTable t) := by
  rw [Builder.startInSelectInTable]
  split
  · exact ((h.report _).endSelect (Or.inr ((b.mode_report _).trans mode))).retry.settledOrRaw
  · exact h.startInSelect once (Or.inr mode) t

theorem startTag (once : b.again = false) {t : Tag} (html : t.name ≠ "math" ∧ t.name ≠ "svg") :
    SettledOrRaw (b.startTag t) := by
  have back : ∀ f, seat b.stack = "body" →
      SettledOrRaw (((b.report f).goto .inBody).retry) := fun f body =>
    ((h.start.report f).fit_goto h.alive rfl (by rw [body]; decide)).retry.settledOrRaw
  rw [Builder.startTag]
  split
  all_goals try (next mode => exact absurd (h.seats mode (by decide)) Bool.false_ne_true)
  · next mode => exact h.bodyStart once (by rw [mode]; rfl) (fun _ => by rw [mode]; rfl) html
  · next mode => exact h.startInTable once (by rw [mode]; rfl) (fun _ => mode) html
  · next mode => exact (h.closeTableText mode).retry.settledOrRaw
  · next mode => exact h.startInCaption once mode html
  · next mode => exact (h.startInColumnGroup mode t).settledOrRaw
  · next mode => exact h.startInTableBody once mode html
  · next mode => exact h.startInRow once mode html
  · next mode => exact h.startInCell once mode html
  · next mode => exact h.startInSelect once (Or.inl mode) t
  · next mode => exact h.startInSelectInTable once mode t
  · next mode =>
    split
    · exact (h.startRoot t).settledOrRaw
    · exact back _ (h.seat_eq mode rfl)
  · next mode =>
    split
    · exact (h.startRoot t).settledOrRaw
    · exact back _ (h.seat_eq mode rfl)

end TableStarts

end Fit

end HtmlTree.Html
