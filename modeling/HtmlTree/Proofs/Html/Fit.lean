import HtmlTree.Proofs.Html.SeatKeptBody

/-! The mode in the body goes with the innermost open element that it goes by, so that what an end
tag looks for is there. -/

namespace HtmlTree.Html

open Arena (Keeps)

namespace Mode

/-- The elements one of which is the innermost that a mode goes by. -/
def seats : Mode → List String
  | .inBody | .afterBody | .afterAfterBody => ["body"]
  | .inTable => ["table"]
  | .inTableBody => Builder.rowGroupTags
  | .inRow => ["tr"]
  | .inCell => ["td", "th"]
  | .inCaption => ["caption"]
  | .inColumnGroup => ["colgroup"]
  | .inSelect | .inSelectInTable => ["select"]
  | _ => []

def isWide : Mode → Bool
  | .inBody | .afterBody | .afterAfterBody | .inTable | .inTableBody | .inRow | .inCell
  | .inCaption => true
  | _ => false

def holdsText : Mode → Bool
  | .inTable | .inTableBody | .inRow => true
  | _ => false

def isFlow : Mode → Bool
  | .inBody | .inCell | .inCaption => true
  | _ => false

theorem free_of_isWide {m : Mode} (wide : m.isWide = true) : ∀ name ∈ m.seats,
    name ≠ "" ∧ name ≠ "html" ∧ name ≠ "select" ∧ name ≠ "colgroup" := by
  cases m <;> first
    | decide
    | cases wide

theorem wide_of_holdsText {m : Mode} (holds : m.holdsText = true) : m.isWide = true := by
  cases m <;> first
    | rfl
    | cases holds

end Mode

/-- The mode that the open elements go with; while text in a table is held, the one to return to. -/
def Builder.ruling (b : Builder) : Mode := if b.mode = .inTableText then b.tableReturn else b.mode

/-- Construction in a mode that fits the seat, the innermost open element that a mode goes by. -/
structure Fit (b : Builder) : Prop extends Ordered b where
  alive : b.collapse = none
  place : b.ruling.seats.contains (seat b.stack) = true
  columns : b.mode = .inColumnGroup → b.current.name = "colgroup"
  select : b.mode = .inSelect ∨ b.mode = .inSelectInTable → b.inScope .select "select" = true
  tableReturn : b.mode = .inTableText → b.tableReturn.holdsText = true

variable {b c d : Builder}

namespace Builder

theorem ruling_eq (other : b.mode ≠ .inTableText) : b.ruling = b.mode := if_neg other

end Builder

theorem fit_of_isWide (ordered : Ordered b) (alive : b.collapse = none) (wide : b.mode.isWide = true)
    (place : b.mode.seats.contains (seat b.stack) = true) : Fit b where
  toOrdered := ordered
  alive := alive
  place := by
    rwa [Builder.ruling_eq]
    intro text
    rw [text] at wide
    cases wide
  columns mode := by
    rw [mode] at wide
    cases wide
  select mode := by
    rcases mode with mode | mode <;> rw [mode] at wide <;> cases wide
  tableReturn mode := by
    rw [mode] at wide
    cases wide

namespace Fit

variable (h : Fit b)
include h

theorem start : SeatKept b b := .refl h.toOrdered

theorem seat_ne : seat b.stack ≠ "" := by
  intro nothing
  have place := h.place
  rw [nothing] at place
  have none : ∀ m : Mode, m.seats.contains "" = false := by
    intro m
    cases m <;> decide
  rw [none] at place
  cases place

theorem free (wide : b.ruling.isWide = true) : Free b.stack := by
  obtain ⟨some, root, select, columns⟩ :=
    Mode.free_of_isWide wide _ (List.contains_iff_mem.mp h.place)
  exact ⟨⟨some, root⟩, select, columns⟩

theorem seatKept (s : SeatKept b c) (free : Free b.stack) : Fit c where
  toOrdered := s.ordered
  alive := s.collapse.trans h.alive
  place := by
    rw [Builder.ruling, s.mode, s.tableReturn, s.seat]
    exact h.place
  columns mode := by
    have seats := h.place
    rw [s.mode] at mode
    rw [Builder.ruling_eq (by rw [mode]; decide), mode] at seats
    exact absurd (List.mem_singleton.mp (List.contains_iff_mem.mp seats)) free.2.2
  select mode := by
    have seats := h.place
    rw [s.mode] at mode
    rw [Builder.ruling_eq (by rcases mode with mode | mode <;> rw [mode] <;> decide)] at seats
    rcases mode with mode | mode
    all_goals
      rw [mode] at seats
      exact absurd (List.mem_singleton.mp (List.contains_iff_mem.mp seats)) free.2.1
  tableReturn := by
    rw [s.mode, s.tableReturn]
    exact h.tableReturn

theorem stackKept (s : SeatKept b c) (stack : c.stack = b.stack) : Fit c where
  toOrdered := s.ordered
  alive := s.collapse.trans h.alive
  place := by
    rw [Builder.ruling, s.mode, s.tableReturn, stack]
    exact h.place
  columns := by
    rw [s.mode, Builder.current, stack]
    exact h.columns
  select := by
    rw [s.mode, Builder.inScope, stack]
    exact h.select
  tableReturn := by
    rw [s.mode, s.tableReturn]
    exact h.tableReturn

theorem adjust (core : c.core = b.core) (mode : c.mode = b.mode)
    (tableReturn : c.tableReturn = b.tableReturn) (collapse : c.collapse = b.collapse) : Fit c := by
  have stack : c.stack = b.stack := congrArg (·.2.1) core
  constructor
  case toOrdered => exact h.toOrdered.same core
  case alive => exact collapse.trans h.alive
  case place =>
    rw [Builder.ruling, mode, tableReturn, stack]
    exact h.place
  case columns =>
    rw [mode, Builder.current, stack]
    exact h.columns
  case select =>
    rw [mode, Builder.inScope, stack]
    exact h.select
  case tableReturn =>
    rw [mode, tableReturn]
    exact h.tableReturn

theorem rebuild {a : Arena} (keeps : Keeps b.arena a) : Fit { b with arena := a } :=
  h.stackKept (h.start.rebuild keeps) rfl

theorem report (f : Fault) : Fit (b.report f) := h.stackKept (h.start.report f) (Builder.stack_report b f)

theorem retry : Fit b.retry := h.adjust rfl rfl rfl rfl

theorem insertText (text : String) : Fit (b.insertText text) :=
  h.stackKept (h.start.insertText text) (Builder.stack_insertText b text)

theorem insertComment (parent : Nat) (data : String) : Fit (b.insertComment parent data) :=
  h.stackKept (h.start.insertComment parent data) rfl

theorem startRoot (t : Tag) : Fit (b.startRoot t) := by
  apply h.stackKept (h.start.startRoot t)
  rw [Builder.startRoot]
  split
  · rfl
  · exact Builder.stack_report b _

theorem inScope_seat : b.inScope .table (seat b.stack) = true := findInScope_seat h.seat_ne h.html

end Fit

namespace Builder

theorem modeOf_of_not {name : String} (plain : seatTags.contains name = false) : modeOf name = none := by
  rw [modeOf.eq_def]
  split
  all_goals first
    | rfl
    | exact absurd plain (by decide)

theorem resetModeFrom_cons (b : Builder) {o : Open} {rest : List Open} (more : rest ≠ [])
    (space : o.space = b.standard) (other : fragmentTags.contains o.name = false) :
    b.resetModeFrom (o :: rest) = match modeOf o.name with
      | some mode => b.goto mode
      | none => b.resetModeFrom rest := by
  obtain ⟨p, rest, rfl⟩ := List.exists_cons_of_ne_nil more
  rw [resetModeFrom]
  · cases modeOf o.name <;>
      simp only [other, Bool.false_eq_true, if_false, space, ne_eq, not_true_eq_false]
  · exact fun absurd => by cases absurd

/-- The elements open inside the body call for the mode of the innermost one that has a mode. -/
theorem resetModeFrom_eq (b : Builder) {l : List Open} (html : ∀ o ∈ l, o.space = b.standard)
    (seated : Seated l) (known : selectSeats.contains (seat l) = true) :
    ∃ m, modeOf (seat l) = some m ∧ b.resetModeFrom l = b.goto m := by
  have spec : ∀ name ∈ selectSeats, name ≠ "" ∧ name ≠ "html" ∧ fragmentTags.contains name = false ∧
      (modeOf name).isSome = true := by decide
  induction l with
  | nil => exact absurd known (by decide)
  | cons o l ih =>
      obtain ⟨some', root, kept, leads⟩ := spec _ (List.contains_iff_mem.mp known)
      have more : l ≠ [] := by
        rintro rfl
        obtain ⟨front, body, root, shape, _⟩ := seated.exists_body ⟨some', root⟩
        exact absurd (congrArg List.length shape) (by simp)
      have space := html o List.mem_cons_self
      cases isSeat : o.isSeat
      · have other : fragmentTags.contains o.name = false := by
          have all : ∀ name ∈ fragmentTags, seatTags.contains name = true := by decide
          rw [← Bool.not_eq_true]
          intro fragment
          rw [Open.isSeat, all _ (List.contains_iff_mem.mp fragment)] at isSeat
          cases isSeat
        rw [seat_cons_of_not isSeat] at known ⊢
        rw [b.resetModeFrom_cons more space other, modeOf_of_not isSeat]
        exact ih (fun p inside => html p (List.mem_cons_of_mem o inside)) seated.2 known
      · rw [seat_cons_of isSeat] at kept leads ⊢
        obtain ⟨m, leads⟩ := Option.isSome_iff_exists.mp leads
        rw [b.resetModeFrom_cons more space kept, leads]
        exact ⟨m, rfl, rfl⟩

end Builder

/-- The mode that the open elements call for goes with them. -/
theorem fit_resetMode (ordered : Ordered b) (alive : b.collapse = none)
    (known : selectSeats.contains (seat b.stack) = true) : Fit b.resetMode := by
  have spec : ∀ name ∈ selectSeats, ∀ m, Builder.modeOf name = some m →
      m.isWide = true ∧ m.seats.contains name = true := by
    intro name known m leads
    have all : ∀ name ∈ selectSeats, (Builder.modeOf name).all (fun m =>
        m.isWide && m.seats.contains name) = true := by decide
    have here := all name known
    rw [leads] at here
    exact Bool.and_eq_true_iff.mp here
  have html : ∀ o ∈ b.stack, o.space = b.standard := by
    rw [ordered.standard]
    exact ordered.html
  obtain ⟨m, leads, same⟩ := b.resetModeFrom_eq html ordered.seated known
  obtain ⟨wide, place⟩ := spec _ (List.contains_iff_mem.mp known) m leads
  rw [Builder.resetMode, same]
  exact fit_of_isWide (ordered.same rfl) alive wide place

theorem Ordered.exists_popTo (ordered : Ordered b) (found : seat b.stack ≠ "") (wanted : Open → Bool)
    (others : ∀ o : Open, o.isSeat = false → wanted o = false)
    (here : ∀ o : Open, o.name = seat b.stack → wanted o = true) : ∃ o rest,
      popTo wanted b.stack = o :: rest ∧ popThrough wanted b.stack = rest ∧ o.name = seat b.stack ∧
        Fits o.name rest ∧ o :: rest <:+ b.stack := by
  obtain ⟨o, rest, left, below, named, suffix⟩ := exists_popTo_seat found others here
  exact ⟨o, rest, left, below, named, (ordered.seated.of_suffix suffix).1, suffix⟩

theorem Ordered.popThroughSeat (ordered : Ordered b) (found : seat b.stack ≠ "") {name : String}
    (named : name = seat b.stack) :
    Ordered (b.popThroughName name) ∧ Fits name (b.popThroughName name).stack := by
  subst named
  have others : ∀ o : Open, o.isSeat = false → (o.name == seat b.stack) = false := by
    intro o plain
    rw [beq_eq_false_iff_ne]
    intro same
    rw [Open.isSeat, same, isSeat_of_seat found] at plain
    cases plain
  obtain ⟨o, rest, _, below, named, fit, suffix⟩ := ordered.exists_popTo found _ others
    fun o same => beq_iff_eq.mpr same
  have stack : (b.popThroughName (seat b.stack)).stack = rest := below
  refine ⟨?_, by rwa [stack, ← named]⟩
  rw [Builder.popThroughName, below]
  exact ordered.suffix ((List.suffix_cons o rest).trans suffix)

end HtmlTree.Html
