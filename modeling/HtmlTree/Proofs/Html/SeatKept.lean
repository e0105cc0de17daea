import HtmlTree.Proofs.Html.Rooted
import HtmlTree.Proofs.Html.Seats

/-! Steps that change nothing the modes go by: the same part of a table or of the body is the
innermost one open, and everything is still where it may be. Such steps do not break down. -/

namespace HtmlTree.Html

open Arena (Keeps)

/-- What is open are elements of HTML, each where it may be. -/
structure Ordered (b : Builder) : Prop where
  seated : Seated b.stack
  html : ∀ o ∈ b.stack, o.space = .html
  named : ∀ o ∈ b.stack, b.arena.tag? o.id = some o.name
  tables : ∀ o ∈ b.stack, o.name = "table" → (b.arena.parent o.id).isSome = true
  formatting : ∀ o, some o ∈ b.formatting →
    o.isPassing = true ∧ o.space = .html ∧ b.arena.tag? o.id = some o.name
  form : ∀ o, b.form = some o → b.arena.tag? o.id = some "form"
  context : b.context = none
  standard : b.standard = .html

/-- Steps that keep the seat, the innermost open element that the mode goes by, and with it the mode. -/
structure SeatKept (b c : Builder) : Prop where
  ordered : Ordered c
  seat : seat c.stack = seat b.stack
  mode : c.mode = b.mode
  tableReturn : c.tableReturn = b.tableReturn
  again : c.again = true → b.again = true
  collapse : c.collapse = b.collapse
  keeps : Keeps b.arena c.arena

variable {b c d : Builder}

namespace Builder

/-- A node that is placed has a parent, and every other keeps its own or gets another. -/
theorem exists_kept (b : Builder) (i : Nat) : ∃ a, b.placeNode i = { b with arena := a } ∧
    Keeps b.arena a ∧ (i < b.arena.size → (a.parent i).isSome = true) := by
  have kept : ∀ {p : Nat} {a : Arena}, Arena.Moved b.arena i p a →
      Keeps b.arena a ∧ (i < b.arena.size → (a.parent i).isSome = true) := fun moved =>
    ⟨moved.keeps, fun known => by rw [moved.here known]; rfl⟩
  rw [placeNode]
  split
  · split
    · exact ⟨_, rfl, kept (Arena.moved_insertBefore ..)⟩
    · exact ⟨_, rfl, kept (Arena.moved_append ..)⟩
  · exact ⟨_, rfl, kept (Arena.moved_append ..)⟩

theorem exists_insertText (b : Builder) (text : String) : ∃ a,
    b.insertText text = { b with arena := a } ∧ Keeps b.arena a := by
  obtain ⟨a, placed, keeps, _⟩ := exists_kept { b with arena := (b.arena.make (.text text)).2 }
    b.arena.size
  exact ⟨a, placed, (Arena.keeps_make ..).trans keeps⟩

theorem exists_insertPart (b : Builder) (name : String) (space : Space) (attrs : List BuiltAttr) :
    ∃ a, b.insertPart name space attrs =
        { b with arena := a, stack := ⟨b.arena.size, name, space⟩ :: b.stack } ∧
      Keeps b.arena a ∧ a.tag? b.arena.size = some name ∧ (a.parent b.arena.size).isSome = true := by
  obtain ⟨a, placed, keeps, attached⟩ := exists_kept
    { b with arena := (b.arena.make (.element name space attrs)).2 } b.arena.size
  refine ⟨a, ?_, (Arena.keeps_make ..).trans keeps, ?_, ?_⟩
  · exact congrArg (fun d : Builder => { d with stack := ⟨b.arena.size, name, space⟩ :: d.stack }) placed
  · exact keeps.tag _ _ ((Arena.tag_make ..).trans (if_pos rfl))
  · apply attached
    change b.arena.size < (b.arena.make _).2.size
    rw [Arena.size_make]
    exact Nat.lt_succ_self _

end Builder

namespace Ordered

theorem same (ordered : Ordered b) (same : c.core = b.core) : Ordered c := by
  simp only [Builder.core, Prod.mk.injEq] at same
  obtain ⟨arena, stack, formatting, form, context, standard⟩ := same
  constructor
  case seated => exact stack ▸ ordered.seated
  case html => exact stack ▸ ordered.html
  case named =>
    rw [stack, arena]
    exact ordered.named
  case tables =>
    rw [stack, arena]
    exact ordered.tables
  case formatting =>
    rw [formatting, arena]
    exact ordered.formatting
  case form =>
    rw [form, arena]
    exact ordered.form
  case context => exact context.trans ordered.context
  case standard => exact standard.trans ordered.standard

theorem rebuild (ordered : Ordered b) {a : Arena} (keeps : Keeps b.arena a) :
    Ordered { b with arena := a } :=
  { ordered with
    named := fun o inside => keeps.tag _ _ (ordered.named o inside)
    tables := fun o inside isTable => keeps.attached _ (ordered.tables o inside isTable)
    formatting := fun o inside =>
      let ⟨passing, space, tagged⟩ := ordered.formatting o inside
      ⟨passing, space, keeps.tag _ _ tagged⟩
    form := fun o entered => keeps.tag _ _ (ordered.form o entered) }

theorem trim (ordered : Ordered b) {t : List Open} (fewer : t ⊆ b.stack) (seated : Seated t) :
    Ordered { b with stack := t } :=
  { ordered with
    seated
    html := fun o inside => ordered.html o (fewer inside)
    named := fun o inside => ordered.named o (fewer inside)
    tables := fun o inside => ordered.tables o (fewer inside) }

theorem suffix (ordered : Ordered b) {t : List Open} (suffix : t <:+ b.stack) :
    Ordered { b with stack := t } :=
  ordered.trim suffix.subset (ordered.seated.of_suffix suffix)

theorem push (ordered : Ordered b) {o : Open} (fit : Fits o.name b.stack) (space : o.space = .html)
    (tagged : b.arena.tag? o.id = some o.name)
    (table : o.name = "table" → (b.arena.parent o.id).isSome = true) :
    Ordered { b with stack := o :: b.stack } :=
  { ordered with
    seated := ⟨fit, ordered.seated⟩
    html := List.forall_mem_cons.mpr ⟨space, ordered.html⟩
    named := List.forall_mem_cons.mpr ⟨tagged, ordered.named⟩
    tables := List.forall_mem_cons.mpr ⟨table, ordered.tables⟩ }

theorem insertPart (ordered : Ordered b) {name : String} (fit : Fits name b.stack)
    (attrs : List BuiltAttr) : Ordered (b.insertPart name .html attrs) := by
  obtain ⟨a, inserted, keeps, tagged, attached⟩ := b.exists_insertPart name .html attrs
  rw [inserted]
  exact (ordered.rebuild keeps).push fit rfl tagged fun _ => attached

theorem insert (ordered : Ordered b) {t : Tag} (fit : Fits t.name b.stack) : Ordered (b.insert t) := by
  rw [Builder.insert, ordered.standard]
  exact ordered.insertPart fit _

theorem isHtml_eq (ordered : Ordered b) {o : Open} (inside : o ∈ b.stack) (name : String) :
    o.isHtml name = (o.name == name) := by
  rw [Open.isHtml, ordered.html o inside]
  rfl

end Ordered

namespace SeatKept

theorem refl (ordered : Ordered b) : SeatKept b b := ⟨ordered, rfl, rfl, rfl, id, rfl, .refl _⟩

theorem trans (first : SeatKept b c) (second : SeatKept c d) : SeatKept b d where
  ordered := second.ordered
  seat := second.seat.trans first.seat
  mode := second.mode.trans first.mode
  tableReturn := second.tableReturn.trans first.tableReturn
  again := first.again ∘ second.again
  collapse := second.collapse.trans first.collapse
  keeps := first.keeps.trans second.keeps

section Elementary

variable (s : SeatKept b c)
include s

theorem adjust (core : d.core = c.core) (mode : d.mode = c.mode)
    (tableReturn : d.tableReturn = c.tableReturn) (again : d.again = true → c.again = true)
    (collapse : d.collapse = c.collapse) : SeatKept b d where
  ordered := s.ordered.same core
  seat := by
    have stack : d.stack = c.stack := congrArg (·.2.1) core
    rw [stack, s.seat]
  mode := mode.trans s.mode
  tableReturn := tableReturn.trans s.tableReturn
  again := s.again ∘ again
  collapse := collapse.trans s.collapse
  keeps := by
    have arena : d.arena = c.arena := congrArg (·.1) core
    rw [arena]
    exact s.keeps

theorem report (f : Fault) : SeatKept b (c.report f) := by
  rw [Builder.report]
  split
  · exact s
  · exact s.adjust rfl rfl rfl id rfl

theorem check (p : Prop) [Decidable p] (f : Fault) : SeatKept b (if p then c else c.report f) := by
  split
  · exact s
  · exact s.report f

theorem rebuild {a : Arena} (keeps : Keeps c.arena a) : SeatKept b { c with arena := a } :=
  ⟨s.ordered.rebuild keeps, s.seat, s.mode, s.tableReturn, s.again, s.collapse, s.keeps.trans keeps⟩

theorem trim {t : List Open} (fewer : t ⊆ c.stack) (seated : Seated t)
    (same : Html.seat t = Html.seat c.stack) : SeatKept b { c with stack := t } :=
  ⟨s.ordered.trim fewer seated, same.trans s.seat, s.mode, s.tableReturn, s.again, s.collapse,
    s.keeps⟩

theorem suffix {t : List Open} (suffix : t <:+ c.stack) (same : Html.seat t = Html.seat c.stack) :
    SeatKept b { c with stack := t } :=
  s.trim suffix.subset (s.ordered.seated.of_suffix suffix) same

theorem insertText (text : String) : SeatKept b (c.insertText text) := by
  obtain ⟨a, inserted, keeps⟩ := c.exists_insertText text
  rw [inserted]
  exact s.rebuild keeps

theorem insertComment (parent : Nat) (data : String) : SeatKept b (c.insertComment parent data) :=
  s.rebuild ((Arena.keeps_make ..).trans (Arena.moved_append ..).keeps)

theorem mergeAttrs (i : Nat) (attrs : List (String × String)) : SeatKept b (c.mergeAttrs i attrs) :=
  s.rebuild (Arena.keeps_setAttrs ..)

theorem insertPart {name : String} (other : seatTags.contains name = false) (attrs : List BuiltAttr) :
    SeatKept b (c.insertPart name .html attrs) := by
  have plain : (⟨c.arena.size, name, .html⟩ : Open).isSeat = false := other
  have ordered := s.ordered.insertPart (fits_of_not plain) attrs
  obtain ⟨a, inserted, keeps, _⟩ := c.exists_insertPart name .html attrs
  rw [inserted] at ordered ⊢
  exact ⟨ordered, (seat_cons_of_not plain).trans s.seat, s.mode, s.tableReturn, s.again, s.collapse,
    s.keeps.trans keeps⟩

theorem insert {t : Tag} (other : seatTags.contains t.name = false) : SeatKept b (c.insert t) := by
  rw [Builder.insert, s.ordered.standard]
  exact s.insertPart other _

theorem insertVoid (t : Tag) : SeatKept b (c.insertVoid t) := by
  obtain ⟨a, inserted, keeps, _⟩ := c.exists_insertPart t.name c.standard
    (Foreign.builtAttrs c.standard false t.attrs)
  have shape : c.insertVoid t = { c with arena := a } :=
    congrArg (fun d : Builder => { d with stack := d.stack.tail }) inserted
  rw [shape]
  exact s.rebuild keeps

theorem pop (other : c.current.isSeat = false) : SeatKept b c.pop := by
  apply s.suffix (List.tail_suffix _)
  cases shape : c.stack with
  | nil => rfl
  | cons o rest =>
      rw [Builder.current, shape] at other
      exact (seat_cons_of_not other).symm

theorem dropImplied (except : Option String) : SeatKept b (c.dropImplied except) := by
  have others : ∀ name ∈ impliedEndTags, seatTags.contains name = false := by decide
  apply s.suffix
  · rw [dropImplied_eq]
    exact List.dropWhile_suffix _
  · rw [dropImplied_eq]
    apply seat_dropWhile
    intro o implied
    exact others _ (List.contains_iff_mem.mp (Bool.and_eq_true_iff.mp implied).1)

theorem removeOpen {o : Open} {name : String} (tagged : c.arena.tag? o.id = some name)
    (other : seatTags.contains name = false) : SeatKept b (c.removeOpen o) := by
  have loosened : Loosened c.stack (c.stack.eraseP fun p => p.id == o.id) := by
    apply Loosened.eraseP
    intro p inside same
    have named := s.ordered.named p inside
    rw [eq_of_beq same, tagged, Option.some.injEq] at named
    rw [Open.isSeat, ← named]
    exact other
  exact s.trim List.eraseP_subset (loosened.seated s.ordered.seated) loosened.seat_eq

theorem reformat {entries : List (Option Open)} (known : ∀ o, some o ∈ entries →
    o.isPassing = true ∧ o.space = .html ∧ c.arena.tag? o.id = some o.name) :
    SeatKept b { c with formatting := entries } :=
  ⟨{ s.ordered with formatting := known }, s.seat, s.mode, s.tableReturn, s.again, s.collapse,
    s.keeps⟩

theorem fewerFormatting {entries : List (Option Open)} (fewer : ∀ o, some o ∈ entries →
    some o ∈ c.formatting) : SeatKept b { c with formatting := entries } :=
  s.reformat fun o inside => s.ordered.formatting o (fewer o inside)

theorem pushMarker : SeatKept b c.pushMarker := by
  refine s.fewerFormatting fun o inside => ?_
  rcases List.mem_append.mp inside with before | new
  · exact before
  · cases List.mem_singleton.mp new

theorem clearToMarker : SeatKept b c.clearToMarker := by
  refine s.fewerFormatting fun o inside => ?_
  rw [List.mem_reverse] at inside
  have rest := (List.dropWhile_suffix (p := Option.isSome) (l := c.formatting.reverse)).subset
    (List.mem_of_mem_drop inside)
  exact List.mem_reverse.mp rest

theorem removeFormatting (o : Open) : SeatKept b (c.removeFormatting o) :=
  s.fewerFormatting fun _ inside => List.mem_of_mem_eraseP inside

theorem pushFormatting (current : c.current ∈ c.stack) (passing : c.current.isPassing = true) :
    SeatKept b c.pushFormatting := by
  have entered : ∀ {d : Builder}, SeatKept b d → d.arena = c.arena → d.formatting ⊆ c.formatting →
      SeatKept b { d with formatting := d.formatting ++ [some c.current] } := by
    intro d seatKept arena fewer
    refine seatKept.reformat fun o inside => ?_
    rw [arena]
    rcases List.mem_append.mp inside with before | new
    · exact s.ordered.formatting o (fewer before)
    · cases List.mem_singleton.mp new
      exact ⟨passing, s.ordered.html _ current, s.ordered.named _ current⟩
  rw [Builder.pushFormatting]
  split
  · exact entered (s.removeFormatting _) rfl fun _ inside => List.mem_of_mem_eraseP inside
  · exact entered s rfl fun _ inside => inside

end Elementary

theorem insertFormattingPart (s : SeatKept b c) {name : String}
    (passing : passingTags.contains name = true)
    (attrs : List BuiltAttr) : SeatKept b (c.insertPart name .html attrs) ∧
      (c.insertPart name .html attrs).current ∈ (c.insertPart name .html attrs).stack ∧
        (c.insertPart name .html attrs).current.isPassing = true := by
  have plain : seatTags.contains name = false := isSeat_of_isPassing (o := ⟨0, name, .html⟩) passing
  refine ⟨s.insertPart plain attrs, ?_⟩
  rw [Builder.current, Builder.stack_insertPart]
  exact ⟨List.mem_cons_self, passing⟩

theorem insertFormatting (s : SeatKept b c) {t : Tag} (passing : passingTags.contains t.name = true) :
    SeatKept b (c.insertFormatting t) := by
  obtain ⟨inserted, current, entered⟩ :=
    s.insertFormattingPart passing (Foreign.builtAttrs c.standard false t.attrs)
  rw [Builder.insertFormatting, Builder.insert, s.ordered.standard] at *
  exact inserted.pushFormatting current entered

theorem reopen (entries : List (Option Open)) : ∀ {c : Builder}, SeatKept b c →
    (∀ o, some o ∈ entries → o.isPassing = true ∧ o.space = .html) → SeatKept b (c.reopen entries) := by
  induction entries with
  | nil => exact fun s _ => s
  | cons entry entries ih =>
      intro c s known
      have others : ∀ o, some o ∈ entries → o.isPassing = true ∧ o.space = .html := fun o inside =>
        known o (List.mem_cons_of_mem _ inside)
      cases entry with
      | none => exact ih s others
      | some o =>
          obtain ⟨passing, space⟩ := known o List.mem_cons_self
          obtain ⟨inserted, current, entered⟩ :=
            s.insertFormattingPart passing (c.arena.attrs o.id)
          rw [← space] at inserted current entered
          refine ih (inserted.reformat fun p inside => ?_) others
          rcases List.mem_append.mp inside with before | new
          · exact inserted.ordered.formatting p before
          · cases List.mem_singleton.mp new
            exact ⟨entered, inserted.ordered.html _ current, inserted.ordered.named _ current⟩

theorem reconstruct (s : SeatKept b c) : SeatKept b c.reconstruct := by
  rw [Builder.reconstruct]
  split
  · exact s
  · refine reopen _ (s.fewerFormatting fun o inside => List.mem_of_mem_take inside) fun o inside => ?_
    rw [List.mem_reverse] at inside
    have entry := List.mem_reverse.mp ((List.takeWhile_subset _) inside)
    exact ⟨(s.ordered.formatting o entry).1, (s.ordered.formatting o entry).2.1⟩

end SeatKept

end HtmlTree.Html
