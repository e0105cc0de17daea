import HtmlTree.Proofs.Html.Fit
import HtmlTree.Proofs.Html.Furnished

/-! End tags where the mode goes with what is open: an end tag ends the element that the mode goes by,
and construction goes back to the mode around it, or it ends nothing that a mode goes by. -/

namespace HtmlTree.Html

variable {b c : Builder} {s : List Open} {o : Open}

theorem ground_cons_of (isSeat : o.isSeat = true) : ground (o :: s) = o.name := by
  rw [ground, if_neg]
  intro passing
  rw [isSeat_of_isPassing passing] at isSeat
  cases isSeat

theorem Mode.isSeat_of_seats {m : Mode} {name : String} (known : m.seats.contains name = true) :
    seatTags.contains name = true := by
  have all : ∀ m : Mode, ∀ name ∈ m.seats, seatTags.contains name = true := by
    intro m
    cases m <;> decide
  exact all m name (List.contains_iff_mem.mp known)

theorem findInScope_below {scope : Scope} {wanted : Open → Bool} {upper : List Open}
    (others : ∀ p ∈ upper, wanted p = false) (found : findInScope scope wanted (upper ++ s) = true) :
    findInScope scope wanted s = true := by
  induction upper with
  | nil => exact found
  | cons p upper ih =>
      obtain ⟨first, rest⟩ := List.forall_mem_cons.mp others
      rw [List.cons_append, findInScope, first, Bool.false_or, Bool.and_eq_true] at found
      exact ih rest found.2

theorem Ordered.seat_of_inScope (ordered : Ordered b) {name : String}
    (cells : ["td", "th"].contains name = true ∧ ["td", "th"].contains (seat b.stack) = true)
    (found : b.inScope .table name = true) : name = seat b.stack := by
  have cellSpec : ∀ name ∈ ["td", "th"], name ≠ "" ∧ seatTags.contains name = true ∧
      passingTags.contains name = false ∧ tableParts.contains name = false ∧
        tightSeats name = some ["tr"] := by decide
  obtain ⟨named, inside, passing, part, _⟩ := cellSpec name (List.contains_iff_mem.mp cells.1)
  obtain ⟨open_, _, _, _, tight⟩ := cellSpec _ (List.contains_iff_mem.mp cells.2)
  obtain ⟨upper, o, rest, shape, plain, here⟩ := exists_seat open_
  have html := ordered.html
  have seated := ordered.seated
  rw [Builder.inScope, shape] at found
  rw [shape] at html seated
  have wanted : ∀ p : Open, p.isHtml name = true → p.name = name := fun p isHtml =>
    eq_of_beq (Bool.and_eq_true_iff.mp isHtml).2
  have below := findInScope_below (fun p above => by
    rw [← Bool.not_eq_true]
    intro isHtml
    have other := plain p above
    rw [Open.isSeat, wanted p isHtml, inside] at other
    cases other) found
  rw [findInScope, Bool.or_eq_true] at below
  rcases below with isHtml | further
  · rw [← here, wanted o isHtml]
  · exfalso
    have fit := (seated.of_suffix (List.suffix_append upper (o :: rest))).1
    rw [here] at fit
    have row : tableParts.contains (ground rest) = true := by
      have known := fit.tight _ tight
      rw [List.mem_singleton.mp (List.contains_iff_mem.mp known)]
      decide
    have nothing : findInScope .table (fun p => p.isHtml name) rest = false := by
      apply findInScope_eq_false _ _ _ (seated.of_suffix
        ((List.suffix_cons o rest).trans (List.suffix_append upper (o :: rest)))) row
      · exact fun p inside => html p (List.mem_append_right _ (List.mem_cons_of_mem o inside))
      · intro p space isTable
        rw [Scope.stops, Open.isOneOf, space, isTable]
        decide
      · intro p either
        rw [← Bool.not_eq_true]
        intro isHtml
        rw [Open.isPassing, wanted p isHtml, passing, part] at either
        rcases either with absurd | absurd <;> cases absurd
    rw [nothing, Bool.and_false] at further
    cases further

theorem SeatKept.reportAll (l : List Open) : ∀ {c : Builder}, SeatKept b c →
    SeatKept b (l.foldl (fun c o => c.report (.impliedEndInRow o.name)) c) := by
  induction l with
  | nil => exact fun s => s
  | cons o l ih => exact fun s => ih (s.report _)

theorem SeatKept.fit_goto (s : SeatKept b c) (alive : b.collapse = none) {mode : Mode}
    (wide : mode.isWide = true) (place : mode.seats.contains (Html.seat b.stack) = true) :
    Fit (c.goto mode) := by
  have same : Html.seat (c.goto mode).stack = Html.seat b.stack := s.seat
  refine fit_of_isWide (s.ordered.same rfl) (s.collapse.trans alive) (wide : _) ?_
  rw [same]
  exact place

theorem Ordered.fit_top (ordered : Ordered b) (alive : b.collapse = none) {rest : List Open}
    (top : b.stack = o :: rest) (wide : b.mode.isWide = true)
    (place : b.mode.seats.contains o.name = true) : Fit b := by
  apply fit_of_isWide ordered alive wide
  rw [top, seat_cons_of (Mode.isSeat_of_seats place)]
  exact place

theorem Ordered.fit_pop (ordered : Ordered b) (alive : b.collapse = none) {rest : List Open}
    (top : b.stack = o :: rest) {mode : Mode} (tight : tightSeats o.name = some mode.seats)
    (wide : mode.isWide = true) : Fit (b.pop.goto mode) := by
  have seated := ordered.seated
  rw [top] at seated
  have left : b.pop = { b with stack := rest } := by rw [Builder.pop, top, List.tail_cons]
  have popped : Ordered { b with stack := rest } := ordered.suffix (by
    rw [top]
    exact List.suffix_cons o rest)
  rw [left]
  exact (SeatKept.refl popped).fit_goto alive wide (seated.1.seat_tight tight).2

namespace Builder

def plainEnd : BodyEnd → String → Bool
  | .body, name => name == "body"
  | .root, name => name == "html"
  | .block, name | .embedded, name =>
    !seatTags.contains name && !passingTags.contains name && !impliedEndTags.contains name
  | .listItem, name => !seatTags.contains name && !passingTags.contains name
  | .formatting, name => passingTags.contains name
  | _, _ => true

theorem plainEnd_of_ruleFor {name : String} {rule : BodyEnd}
    (found : ruleFor bodyEnds name = some rule) : plainEnd rule name = true :=
  ruleFor_spec (by decide +kernel) found

end Builder

/-- In the body an end tag ends nothing that the modes go by, unless it ends the body. -/
theorem SeatKept.bodyEnd (s : SeatKept b c) (free : Free b.stack) {name : String}
    (other : name ≠ Html.seat b.stack) (inside : name ≠ "body" ∧ name ≠ "html") :
    SeatKept b (c.bodyEnd name) := by
  rw [Builder.bodyEnd]
  split
  · next found => exact (inside.1 (eq_of_beq (Builder.plainEnd_of_ruleFor found))).elim
  · next found => exact (inside.2 (eq_of_beq (Builder.plainEnd_of_ruleFor found))).elim
  · next found =>
    have plain := Builder.plainEnd_of_ruleFor found
    simp only [Builder.plainEnd, Bool.and_eq_true, Bool.not_eq_true'] at plain
    exact s.endBlock free plain.1 plain.2
  · exact s.endForm
  · exact s.endParagraph free
  · next found =>
    have plain := Builder.plainEnd_of_ruleFor found
    simp only [Builder.plainEnd, Bool.and_eq_true, Bool.not_eq_true'] at plain
    exact s.endListItem free plain
  · exact s.endHeading free name
  · next found => exact s.endFormatting (Builder.plainEnd_of_ruleFor found) free.1
  · next found =>
    have plain := Builder.plainEnd_of_ruleFor found
    simp only [Builder.plainEnd, Bool.and_eq_true, Bool.not_eq_true'] at plain
    exact s.endEmbedded free plain.1 plain.2
  · exact s.endLineBreak
  · exact s.endOther (s.seat.symm ▸ other)

namespace Fit

section Modes

variable (h : Fit b)
include h

theorem goto {mode : Mode} (wide : mode.isWide = true)
    (place : mode.seats.contains (seat b.stack) = true) : Fit (b.goto mode) :=
  h.start.fit_goto h.alive wide place

theorem seats {mode : Mode} (here : b.mode = mode) (other : mode ≠ .inTableText) :
    mode.seats.contains (seat b.stack) = true := by
  have place := h.place
  rwa [Builder.ruling_eq (here ▸ other), here] at place

theorem seat_eq {mode : Mode} {name : String} (here : b.mode = mode) (seats : mode.seats = [name]) :
    seat b.stack = name := by
  have place := h.seats here (by rintro rfl; cases seats)
  rw [seats] at place
  exact List.mem_singleton.mp (List.contains_iff_mem.mp place)

theorem free_of_mode {mode : Mode} (here : b.mode = mode) (wide : mode.isWide = true) :
    Free b.stack := by
  apply h.free
  rwa [Builder.ruling_eq, here]
  rintro text
  rw [← here, text] at wide
  cases wide

theorem closeSeat {name : String} (named : name = seat b.stack) (except : Option String) (p : Prop)
    [Decidable p] (f : Fault) : ∃ d,
      (if p then b.dropImplied except else (b.dropImplied except).report f).popThroughName name = d ∧
        Ordered d ∧ Fits name d.stack ∧ d.collapse = none := by
  have checked := (h.start.dropImplied except).check p f
  generalize (if p then b.dropImplied except else (b.dropImplied except).report f) = d at checked
  have found : seat d.stack ≠ "" := checked.seat.symm ▸ h.seat_ne
  obtain ⟨ordered, fit⟩ := checked.ordered.popThroughSeat found (named.trans checked.seat.symm)
  exact ⟨_, rfl, ordered, fit, checked.collapse.trans h.alive⟩

theorem inScope_of_seat {name : String} (named : seat b.stack = name) :
    b.inScope .table name = true := named ▸ h.inScope_seat

/-- What is on the stack from the innermost seat on. -/
theorem exists_cleared (names : List String) (all : ∀ name ∈ names, seatTags.contains name = true)
    (here : names.contains (seat b.stack) = true) : ∃ o rest,
      popTo (fun o => names.contains o.name) b.stack = o :: rest ∧ o.name = seat b.stack ∧
        Ordered { b with stack := o :: rest } := by
  obtain ⟨o, rest, left, _, named, _, suffix⟩ := h.toOrdered.exists_popTo h.seat_ne
    (fun o => names.contains o.name)
    (fun o plain => by
      rw [← Bool.not_eq_true]
      intro wanted
      rw [Open.isSeat, all _ (List.contains_iff_mem.mp wanted)] at plain
      cases plain)
    (fun o same => same ▸ here)
  exact ⟨o, rest, left, named, h.toOrdered.suffix suffix⟩

end Modes

section EndTags

variable (h : Fit b)
include h

theorem endBody (mode : b.mode = .inBody) : Fit b.endBody := by
  have place := h.seats mode (by decide)
  have ended : ∀ {c : Builder}, SeatKept b c → Fit (c.goto .afterBody) := fun s =>
    s.fit_goto h.alive rfl place
  rw [Builder.endBody]
  split
  · split
    · exact ended h.start
    · split
      · exact ended (h.start.report _)
      · exact ended h.start
  · exact h.report _

theorem endRoot (mode : b.mode = .inBody) : Fit b.endRoot := by
  rw [Builder.endRoot]
  split
  · exact (h.endBody mode).retry
  · exact h

theorem bodyEnd (free : Free b.stack) {name : String} (other : name ≠ seat b.stack)
    (inside : name ≠ "body" ∧ name ≠ "html") : Fit (b.bodyEnd name) :=
  h.seatKept (h.start.bodyEnd free other inside) free

theorem endInBody (mode : b.mode = .inBody) (name : String) : Fit (b.bodyEnd name) := by
  have free := h.free_of_mode mode rfl
  by_cases body : name = "body"
  · subst body
    exact h.endBody mode
  · by_cases root : name = "html"
    · subst root
      exact h.endRoot mode
    · refine h.bodyEnd free ?_ ⟨body, root⟩
      rw [h.seat_eq mode rfl]
      exact body

theorem endTable (mode : b.mode = .inTable) : Fit b.endTable := by
  have named := h.seat_eq mode rfl
  rw [Builder.endTable, if_pos (h.inScope_of_seat named)]
  obtain ⟨d, closed, ordered, fit, alive⟩ := h.closeSeat named.symm none
    ((b.dropImplied none).isCurrent "table" = true)
    (.endTagEarlyNamed "table" (b.dropImplied none).current.name)
  dsimp only
  rw [closed]
  have all : ∀ name ∈ tableSeats, selectSeats.contains name = true := by decide
  exact fit_resetMode ordered alive (all _ (List.contains_iff_mem.mp (fit.loose tableSeats rfl)))

theorem endInTable {name : String} (holds : b.mode.holdsText = true)
    (here : name = "table" → b.mode = .inTable)
    (other : name ≠ "table" → name ≠ seat b.stack) : Fit (b.endInTable name) := by
  have free := h.free_of_mode rfl (Mode.wide_of_holdsText holds)
  rw [Builder.endInTable]
  split
  · next isTable => exact h.endTable (here (eq_of_beq isTable))
  · next notTable =>
    split
    · exact h.report _
    · next listed =>
      have inside : name ≠ "body" ∧ name ≠ "html" := by
        constructor <;> rintro rfl <;> exact listed (by decide)
      have apart := other fun isTable => notTable (beq_iff_eq.mpr isTable)
      have reported := h.start.report (.endTagInTable name)
      exact h.seatKept (reported.fostered fun seatKept => seatKept.bodyEnd free apart inside) free

theorem endCaption (mode : b.mode = .inCaption) : Fit b.endCaption := by
  have named := h.seat_eq mode rfl
  rw [Builder.endCaption, Builder.hasCaption, if_pos (h.inScope_of_seat named)]
  obtain ⟨d, closed, ordered, fit, alive⟩ := h.closeSeat named.symm none
    ((b.dropImplied none).isCurrent "caption" = true)
    (.anotherEndTag "caption" (b.dropImplied none).current.name)
  dsimp only
  rw [closed]
  exact (SeatKept.refl ordered).clearToMarker.fit_goto alive rfl (fit.seat_tight rfl).2

theorem passCaption (mode : b.mode = .inCaption) : Fit b.passCaption := by
  have ended := (h.report .unnamed).endCaption ((b.mode_report _).trans mode)
  rw [Builder.passCaption]
  split
  · exact ended.retry
  · exact ended

theorem endInCaption (mode : b.mode = .inCaption) (name : String) : Fit (b.endInCaption name) := by
  rw [Builder.endInCaption]
  split
  · exact h.endCaption mode
  · next other =>
    split
    · exact h.passCaption mode
    · split
      · exact h.report _
      · next listed =>
        refine h.bodyEnd (h.free_of_mode mode rfl) ?_ ⟨?_, ?_⟩
        · rw [h.seat_eq mode rfl]
          exact fun same => other (beq_iff_eq.mpr same)
        · rintro rfl
          exact listed (by decide)
        · rintro rfl
          exact listed (by decide)

theorem closeColumns (mode : b.mode = .inColumnGroup) : Fit b.closeColumns := by
  have current := h.columns mode
  have other : b.isCurrent "html" = false := by
    rw [Builder.isCurrent, current]
    decide
  rw [Builder.closeColumns, other, if_neg Bool.false_ne_true]
  cases shape : b.stack with
  | nil =>
      rw [Builder.current, shape] at current
      exact absurd current (by decide)
  | cons o rest =>
      have name : o.name = "colgroup" := by
        rw [Builder.current, shape] at current
        exact current
      exact h.toOrdered.fit_pop h.alive shape (by rw [name]; rfl) rfl

theorem passColumns (mode : b.mode = .inColumnGroup) : Fit b.passColumns := by
  rw [Builder.passColumns]
  split
  · exact h.closeColumns mode
  · exact (h.closeColumns mode).retry

theorem endInColumnGroup (mode : b.mode = .inColumnGroup) (name : String) :
    Fit (b.endInColumnGroup name) := by
  rw [Builder.endInColumnGroup]
  split
  · exact h.closeColumns mode
  · split
    · exact h.report _
    · exact h.passColumns mode

theorem exists_clearToRowGroup (mode : b.mode = .inTableBody) : ∃ o rest,
    b.clearToRowGroup = { b with stack := o :: rest } ∧
      Builder.rowGroupTags.contains o.name = true ∧ Ordered { b with stack := o :: rest } := by
  have group := h.seats mode (by decide)
  obtain ⟨o, rest, left, named, ordered⟩ := h.exists_cleared
    ("html" :: Builder.rowGroupTags) (by decide) (by
      rw [List.contains_cons]
      exact Bool.or_eq_true_iff.mpr (Or.inr group))
  rw [← named] at group
  refine ⟨o, rest, ?_, group, ordered⟩
  have popped : b.popToNames ("html" :: Builder.rowGroupTags) = { b with stack := o :: rest } :=
    congrArg (fun stack => { b with stack }) left
  have other : Builder.isCurrent { b with stack := o :: rest } "html" = false :=
    beq_eq_false_iff_ne.mpr (Builder.name_of_rowGroup group)
  rw [Builder.clearToRowGroup, popped, other, if_neg Bool.false_ne_true]

theorem endRowGroup (mode : b.mode = .inTableBody) (name : String) : Fit (b.endRowGroup name) := by
  rw [Builder.endRowGroup]
  split
  · obtain ⟨o, rest, cleared, group, ordered⟩ := h.exists_clearToRowGroup mode
    have tight : ∀ name ∈ Builder.rowGroupTags, tightSeats name = some ["table"] := by decide
    rw [cleared]
    exact ordered.fit_pop h.alive rfl (tight _ (List.contains_iff_mem.mp group)) rfl
  · exact h.report _

theorem passRowGroup (mode : b.mode = .inTableBody) : Fit b.passRowGroup := by
  have group := h.seats mode (by decide)
  have found : Builder.rowGroupTags.any (b.inScope .table) = true :=
    List.any_eq_true.mpr ⟨_, List.contains_iff_mem.mp group, h.inScope_seat⟩
  obtain ⟨o, rest, cleared, named, ordered⟩ := h.exists_clearToRowGroup mode
  have left : Fit b.clearToRowGroup := by
    rw [cleared]
    apply ordered.fit_top h.alive rfl
    · rw [mode]
      rfl
    · rw [mode]
      exact named
  rw [Builder.passRowGroup, if_pos found]
  exact (left.endRowGroup (by rw [cleared]; exact mode) _).retry

theorem endInTableBody (mode : b.mode = .inTableBody) (name : String) : Fit (b.endInTableBody name) := by
  have group := h.seats mode (by decide)
  rw [Builder.endInTableBody]
  split
  · exact h.endRowGroup mode name
  · next other =>
    split
    · exact h.passRowGroup mode
    · next notTable =>
      split
      · exact h.report _
      · refine h.endInTable (by rw [mode]; rfl) (fun isTable => ?_) fun _ same => ?_
        · exact (notTable (beq_iff_eq.mpr isTable)).elim
        · exact other (same ▸ group)

theorem exists_clearToRow (mode : b.mode = .inRow) : ∃ o rest, b.clearToRow.stack = o :: rest ∧
    o.name = "tr" ∧ Ordered b.clearToRow ∧ b.clearToRow.collapse = none := by
  have isRow := h.seat_eq mode rfl
  have reported := h.start.reportAll
    (b.stack.takeWhile fun o => !(o.name == "tr" || o.name == "html"))
  obtain ⟨o, rest, left, _, named, _, _⟩ := h.toOrdered.exists_popTo h.seat_ne
    (fun o => o.name == "tr" || o.name == "html")
    (fun o plain => by
      rw [← Bool.not_eq_true]
      intro wanted
      rcases Bool.or_eq_true_iff.mp wanted with same | same
      all_goals
        rw [Open.isSeat, eq_of_beq same] at plain
        exact absurd plain (by decide))
    (fun o same => by
      rw [same, isRow]
      rfl)
  refine ⟨o, rest, b.stack_clearToRow.trans left, named.trans isRow, ?_, reported.collapse.trans h.alive⟩
  exact reported.ordered.suffix (popTo_suffix (fun o => o.name == "tr" || o.name == "html") _)

theorem endRow (mode : b.mode = .inRow) : Fit b.endRow := by
  obtain ⟨o, rest, top, named, ordered, alive⟩ := h.exists_clearToRow mode
  rw [Builder.endRow, Builder.hasRow, if_pos (h.inScope_of_seat (h.seat_eq mode rfl))]
  exact ordered.fit_pop alive top (by rw [named]; rfl) rfl

theorem passRow (mode : b.mode = .inRow) : Fit b.passRow := by
  rw [Builder.passRow]
  split
  · exact (h.endRow mode).retry
  · exact h.endRow mode

theorem endInRow (mode : b.mode = .inRow) (name : String) : Fit (b.endInRow name) := by
  rw [Builder.endInRow]
  split
  · exact h.endRow mode
  · next notRow =>
    split
    · exact h.passRow mode
    · next notTable =>
      split
      · split
        · exact (h.endRow mode).retry
        · exact h.report _
      · split
        · exact h.report _
        · refine h.endInTable (by rw [mode]; rfl) (fun isTable => ?_) fun _ same => ?_
          · exact (notTable (beq_iff_eq.mpr isTable)).elim
          · rw [h.seat_eq mode rfl] at same
            exact notRow (beq_iff_eq.mpr same)

theorem endCell (mode : b.mode = .inCell) {name : String} (cell : ["td", "th"].contains name = true)
    (found : b.inScope .table name = true) :
    Fit (b.endCell name) := by
  have named := h.toOrdered.seat_of_inScope ⟨cell, h.seats mode (by decide)⟩ found
  have tight : ∀ name ∈ ["td", "th"], tightSeats name = some ["tr"] := by decide
  rw [Builder.endCell, if_pos found]
  obtain ⟨d, closed, ordered, fit, alive⟩ := h.closeSeat named (some name)
    ((b.dropImplied (some name)).isCurrent name = true) (.cellEndTag name)
  dsimp only
  rw [closed]
  exact (SeatKept.refl ordered).clearToMarker.fit_goto alive rfl
    (fit.seat_tight (tight _ (List.contains_iff_mem.mp cell))).2

theorem closeCell (mode : b.mode = .inCell) : Fit b.closeCell := by
  rw [Builder.closeCell]
  split
  · next found => exact h.endCell mode (by decide) found
  · split
    · next found => exact h.endCell mode (by decide) found
    · exact h

theorem endInCell (mode : b.mode = .inCell) (name : String) : Fit (b.endInCell name) := by
  have cell := h.seats mode (by decide)
  rw [Builder.endInCell]
  split
  · next isCell =>
    by_cases found : b.inScope .table name = true
    · exact h.endCell mode isCell found
    · rw [Builder.endCell, if_neg found]
      exact h.report _
  · next notCell =>
    split
    · exact h.report _
    · next listed =>
      split
      · split
        · exact (h.closeCell mode).retry
        · exact h.report _
      · refine h.bodyEnd (h.free_of_mode mode rfl) ?_ ⟨?_, ?_⟩
        · rintro rfl
          exact notCell cell
        · rintro rfl
          exact listed (by decide)
        · rintro rfl
          exact listed (by decide)

theorem inSelect (mode : b.mode = .inSelect ∨ b.mode = .inSelectInTable) (s : SeatKept b c)
    (scope : c.inScope .select "select" = true) : Fit c where
  toOrdered := s.ordered
  alive := s.collapse.trans h.alive
  place := by
    rw [Builder.ruling, s.mode, s.tableReturn, s.seat]
    exact h.place
  columns columns := by
    rw [s.mode] at columns
    rcases mode with mode | mode <;> rw [mode] at columns <;> cases columns
  select _ := scope
  tableReturn := by
    rw [s.mode, s.tableReturn]
    exact h.tableReturn

theorem endSelect (mode : b.mode = .inSelect ∨ b.mode = .inSelectInTable) : Fit b.endSelect := by
  have isSelect : seat b.stack = "select" := by
    rcases mode with mode | mode <;> exact h.seat_eq mode rfl
  rw [Builder.endSelect, if_pos (h.select mode)]
  obtain ⟨ordered, fit⟩ := h.toOrdered.popThroughSeat h.seat_ne isSelect.symm
  exact fit_resetMode ordered h.alive (fit.loose _ rfl)

theorem popOption (mode : b.mode = .inSelect ∨ b.mode = .inSelectInTable) {name : String}
    (option : ["option", "optgroup"].contains name = true) (current : b.isCurrent name = true) :
    Fit b.pop := by
  have plain : ∀ name ∈ ["option", "optgroup"], seatTags.contains name = false ∧ name ≠ "select" := by
    decide
  obtain ⟨other, apart⟩ := plain name (List.contains_iff_mem.mp option)
  have named : b.current.name = name := eq_of_beq current
  refine h.inSelect mode (h.start.pop ?_) ?_
  · rw [Open.isSeat, named]
    exact other
  · have scope := h.select mode
    cases shape : b.stack with
    | nil =>
        rw [Builder.inScope, shape] at scope
        cases scope
    | cons o rest =>
        have same : o.name = name := by
          rw [Builder.current, shape] at named
          exact named
        have here : o.isHtml "select" = false := by
          rw [Open.isHtml, same, beq_eq_false_iff_ne.mpr apart, Bool.and_false]
        rw [Builder.inScope, shape, findInScope, here, Bool.false_or, Bool.and_eq_true] at scope
        rw [Builder.inScope, Builder.pop, shape]
        exact scope.2

theorem endOptionGroup (mode : b.mode = .inSelect ∨ b.mode = .inSelectInTable) :
    Fit b.endOptionGroup := by
  have ended : ∀ {c : Builder}, Fit c → c.mode = .inSelect ∨ c.mode = .inSelectInTable → Fit
      (if c.isCurrent "optgroup" then c.pop else c.report (.endTagInSelect "optgroup")) := by
    intro c fit mode
    split
    · next current => exact fit.popOption mode (by decide) current
    · exact fit.report _
  rw [Builder.endOptionGroup]
  split
  · next o p rest stack =>
    split
    · next both =>
      have current : b.isCurrent "option" = true := by
        rw [Builder.isCurrent, Builder.current, stack]
        exact (Bool.and_eq_true_iff.mp both).1
      exact ended (h.popOption mode (by decide) current) mode
    · exact ended h mode
  · exact ended h mode

theorem endInSelect (mode : b.mode = .inSelect ∨ b.mode = .inSelectInTable) (name : String) :
    Fit (b.endInSelect name) := by
  rw [Builder.endInSelect]
  split
  · next option =>
    split
    · next current =>
      rw [eq_of_beq option] at current
      exact h.popOption mode (by decide) current
    · exact h.report _
  · split
    · exact h.endOptionGroup mode
    · split
      · exact h.endSelect mode
      · exact h.report _

theorem endInSelectInTable (mode : b.mode = .inSelectInTable) (name : String) :
    Fit (b.endInSelectInTable name) := by
  rw [Builder.endInSelectInTable]
  split
  · dsimp only
    split
    · exact ((h.report _).endSelect (Or.inr ((b.mode_report _).trans mode))).retry
    · exact h.report _
  · exact h.endInSelect (Or.inr mode) name

theorem closeTableText (mode : b.mode = .inTableText) : Fit b.closeTableText := by
  have place := h.place
  rw [Builder.ruling, if_pos mode] at place
  exact h.start.flushText.fit_goto h.alive (Mode.wide_of_holdsText (h.tableReturn mode)) place

theorem endTag (name : String) : Fit (b.endTag name) := by
  have back : ∀ f, seat b.stack = "body" → Fit (((b.report f).goto .inBody).retry) := fun f body =>
    ((h.start.report f).fit_goto h.alive rfl (by rw [body]; decide)).retry
  rw [Builder.endTag]
  split
  all_goals try (next mode => exact absurd (h.seats mode (by decide)) Bool.false_ne_true)
  · next mode => exact h.endInBody mode name
  · next mode =>
    refine h.endInTable (by rw [mode]; rfl) (fun _ => mode) fun other same => other ?_
    rw [same, h.seat_eq mode rfl]
  · next mode => exact (h.closeTableText mode).retry
  · next mode => exact h.endInCaption mode name
  · next mode => exact h.endInColumnGroup mode name
  · next mode => exact h.endInTableBody mode name
  · next mode => exact h.endInRow mode name
  · next mode => exact h.endInCell mode name
  · next mode => exact h.endInSelect (Or.inl mode) name
  · next mode => exact h.endInSelectInTable mode name
  · next mode =>
    split
    · split
      · exact h.report _
      · have place := h.seats mode (by decide)
        exact h.goto rfl place
    · exact back _ (h.seat_eq mode rfl)
  · next mode => exact back _ (h.seat_eq mode rfl)

end EndTags

end Fit

end HtmlTree.Html
