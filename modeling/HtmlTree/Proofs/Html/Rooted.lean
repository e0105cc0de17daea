import HtmlTree.Proofs.Html.Anchors
import HtmlTree.Proofs.Html.OpenElements

/-! A document under construction whose root stands: it is the outermost open element, and nothing
that may still be moved is one of the document's parts. -/

namespace HtmlTree.Html

open Arena (Keeps)

/-- Construction below a root that stays open, with no part of the document among the formatting elements. -/
structure Rooted (k : Anchors) (b : Builder) : Prop where
  planted : Planted k b.arena
  named : ∀ o ∈ b.stack, b.arena.tag? o.id = some o.name
  last : b.stack.getLast? = some ⟨k.root, "html", .html⟩
  /-- The root is open once, and below another part nothing else is. -/
  layered : b.stack.Pairwise fun o p => o.id ≠ k.root ∧ (k.Holds o.id → p.id = k.root)
  formatting : ∀ o, some o ∈ b.formatting → ¬ k.Holds o.id
  form : ∀ o, b.form = some o → ¬ k.Holds o.id
  context : b.context = none
  standard : b.standard = .html

variable {k : Anchors} {b c : Builder}

namespace Builder

/-- What is built and what is open. -/
def core (b : Builder) : Arena × List Open × List (Option Open) × Option Open × Option String × Space :=
  (b.arena, b.stack, b.formatting, b.form, b.context, b.standard)

@[simp] theorem core_report (b : Builder) (f : Fault) : (b.report f).core = b.core := by
  rw [report]
  split <;> rfl

@[simp] theorem core_breakDown (b : Builder) (c : Collapse) : (b.breakDown c).core = b.core := by
  rw [breakDown]
  split <;> rfl

@[simp] theorem stack_report (b : Builder) (f : Fault) : (b.report f).stack = b.stack :=
  congrArg (·.2.1) (core_report b f)

theorem collapse_report (b : Builder) (f : Fault) : (b.report f).collapse = b.collapse := by
  rw [report]
  split <;> rfl

theorem mode_report (b : Builder) (f : Fault) : (b.report f).mode = b.mode := by
  rw [report]
  split <;> rfl

theorem collapse_placeNode (b : Builder) (i : Nat) : (b.placeNode i).collapse = b.collapse := by
  rw [placeNode]
  split
  · split <;> rfl
  · rfl

theorem again_placeNode (b : Builder) (i : Nat) : (b.placeNode i).again = b.again := by
  rw [placeNode]
  split
  · split <;> rfl
  · rfl

theorem collapse_insertText (b : Builder) (text : String) :
    (b.insertText text).collapse = b.collapse := collapse_placeNode ..

theorem again_insertText (b : Builder) (text : String) : (b.insertText text).again = b.again :=
  again_placeNode ..

theorem collapse_insert (b : Builder) (t : Tag) : (b.insert t).collapse = b.collapse :=
  collapse_placeNode ..

theorem again_insert (b : Builder) (t : Tag) : (b.insert t).again = b.again := again_placeNode ..

theorem stack_placeNode (b : Builder) (i : Nat) : (b.placeNode i).stack = b.stack := by
  rw [placeNode]
  split
  · split <;> rfl
  · rfl

theorem stack_insertText (b : Builder) (text : String) : (b.insertText text).stack = b.stack :=
  stack_placeNode ..

theorem stack_insertPart (b : Builder) (name : String) (space : Space) (attrs : List BuiltAttr) :
    (b.insertPart name space attrs).stack = ⟨b.arena.size, name, space⟩ :: b.stack :=
  congrArg (List.cons (⟨b.arena.size, name, space⟩ : Open)) (stack_placeNode ..)

theorem stack_check (b : Builder) (p : Prop) [Decidable p] (f : Fault) :
    (if p then b else b.report f).stack = b.stack := by
  split
  · rfl
  · exact stack_report b f

end Builder

namespace Rooted

theorem same (rooted : Rooted k b) (same : c.core = b.core) : Rooted k c := by
  simp only [Builder.core, Prod.mk.injEq] at same
  obtain ⟨arena, stack, formatting, form, context, standard⟩ := same
  constructor
  case planted => exact arena ▸ rooted.planted
  case named =>
    rw [stack, arena]
    exact rooted.named
  case last => exact stack ▸ rooted.last
  case layered => exact stack ▸ rooted.layered
  case formatting => exact formatting ▸ rooted.formatting
  case form => exact form ▸ rooted.form
  case context => exact context.trans rooted.context
  case standard => exact standard.trans rooted.standard

theorem trim (rooted : Rooted k b) {t : List Open} (trims : Trims b.stack t) :
    Rooted k { b with stack := t } :=
  { rooted with
    named := fun o inside => rooted.named o (trims.sublist.subset inside)
    last := trims.last.trans rooted.last
    layered := rooted.layered.sublist trims.sublist }

theorem rebuild (rooted : Rooted k b) {a : Arena} (planted : Planted k a) (keeps : Keeps b.arena a) :
    Rooted k { b with arena := a } :=
  { rooted with
    planted
    named := fun o inside => keeps.tag _ _ (rooted.named o inside) }

theorem reformat (rooted : Rooted k b) {entries : List (Option Open)}
    (free : ∀ o, some o ∈ entries → ¬ k.Holds o.id) : Rooted k { b with formatting := entries } :=
  { rooted with formatting := free }

theorem push (rooted : Rooted k b) {o : Open} (tagged : b.arena.tag? o.id = some o.name)
    (free : ¬ k.Holds o.id) : Rooted k { b with stack := o :: b.stack } :=
  { rooted with
    named := List.forall_mem_cons.mpr ⟨tagged, rooted.named⟩
    last := by
      rw [List.getLast?_cons, rooted.last, Option.getD_some]
    layered := List.pairwise_cons.mpr ⟨fun _ _ => ⟨fun root => free (Or.inr (Or.inl root)),
      fun held => absurd held free⟩, rooted.layered⟩ }

theorem stack_ne (rooted : Rooted k b) : b.stack ≠ [] := by
  intro nothing
  have last := rooted.last
  rw [nothing] at last
  cases last

theorem root_eq (rooted : Rooted k b) : b.root = ⟨k.root, "html", .html⟩ := by
  rw [Builder.root, rooted.last, Option.getD_some]

theorem current_mem (rooted : Rooted k b) : b.current ∈ b.stack := by
  obtain ⟨o, rest, shape⟩ := List.exists_cons_of_ne_nil rooted.stack_ne
  rw [Builder.current, shape]
  exact List.mem_cons_self

theorem ne_document (rooted : Rooted k b) {o : Open} (inside : o ∈ b.stack) :
    o.id ≠ Arena.document := by
  intro same
  have tagged := rooted.named o inside
  rw [same, rooted.planted.document] at tagged
  cases tagged

theorem last_eq (rooted : Rooted k b) {o : Open} (last : b.stack.getLast? = some o) :
    o = ⟨k.root, "html", .html⟩ := by
  rw [rooted.last, Option.some.injEq] at last
  exact last.symm

theorem fosterPlace_ne (rooted : Rooted k b) : b.fosterPlace.1 ≠ Arena.document := by
  have suffix := popTo_suffix (·.name == "table") b.stack
  rw [Builder.fosterPlace]
  split
  · rw [rooted.root_eq]
    exact rooted.planted.root_ne
  · next table around found =>
    rw [found] at suffix
    have named := rooted.named table (suffix.subset List.mem_cons_self)
    have isTable : table.name = "table" := eq_of_beq (head_popTo (congrArg List.head? found))
    split
    · next p attached =>
      rintro rfl
      have isRoot := rooted.planted.rooted table.id attached (by rw [named]; rfl)
      rw [isRoot, rooted.planted.root, isTable] at named
      exact absurd named (by decide)
    · apply rooted.ne_document
      cases around with
      | nil => exact rooted.current_mem
      | cons o rest => exact suffix.subset (List.mem_cons_of_mem _ List.mem_cons_self)

theorem exists_placed (rooted : Rooted k b) (i : Nat) : ∃ p a,
    b.placeNode i = { b with arena := a } ∧ p ≠ Arena.document ∧ Arena.Moved b.arena i p a := by
  have foster := rooted.fosterPlace_ne
  rw [Builder.placeNode]
  split
  · split
    · next p next place =>
      rw [place] at foster
      exact ⟨p, _, rfl, foster, Arena.moved_insertBefore ..⟩
    · next p place =>
      rw [place] at foster
      exact ⟨p, _, rfl, foster, Arena.moved_append ..⟩
  · exact ⟨_, _, rfl, rooted.ne_document rooted.current_mem, Arena.moved_append ..⟩

theorem exists_inserted (rooted : Rooted k b) (part : Part) : ∃ a,
    Builder.placeNode { b with arena := (b.arena.make part).2 } b.arena.size = { b with arena := a } ∧
      Planted k a ∧ Keeps b.arena a ∧ a.tag? b.arena.size = part.tag? := by
  have made := rooted.rebuild (rooted.planted.make part) (Arena.keeps_make b.arena part)
  obtain ⟨p, a, placed, apart, moved⟩ := made.exists_placed b.arena.size
  have known : b.arena.size < (b.arena.make part).2.size := by
    rw [Arena.size_make]
    exact Nat.lt_succ_self _
  refine ⟨a, placed, made.planted.moved moved rooted.planted.free_size known (Or.inl apart),
    (Arena.keeps_make b.arena part).trans moved.keeps, ?_⟩
  rw [moved.tag?]
  exact (Arena.tag_make ..).trans (if_pos rfl)

theorem exists_insertPart (rooted : Rooted k b) (name : String) (space : Space)
    (attrs : List BuiltAttr) : ∃ a,
      b.insertPart name space attrs =
        { b with arena := a, stack := ⟨b.arena.size, name, space⟩ :: b.stack } ∧
      Planted k a ∧ Keeps b.arena a ∧ a.tag? b.arena.size = some name := by
  obtain ⟨a, inserted, planted, keeps, tagged⟩ := rooted.exists_inserted (.element name space attrs)
  refine ⟨a, ?_, planted, keeps, tagged⟩
  exact congrArg (fun d : Builder => { d with stack := ⟨b.arena.size, name, space⟩ :: d.stack }) inserted

/-- What is open inside something that is no part of the document is no part either. -/
theorem free_above (rooted : Rooted k b) {upper lower : List Open} {f : Open}
    (stack : b.stack = upper ++ f :: lower) (free : ¬ k.Holds f.id) :
    ∀ o ∈ upper, ¬ k.Holds o.id := by
  intro o inside held
  have layered := rooted.layered
  rw [stack, List.pairwise_append] at layered
  have below := (layered.2.2 o inside f List.mem_cons_self).2 held
  exact free (Or.inr (Or.inl below))

theorem eq_root (rooted : Rooted k b) {o : Open} (inside : o ∈ b.stack) (root : o.id = k.root) :
    o = ⟨k.root, "html", .html⟩ := by
  obtain ⟨front, whole⟩ := List.getLast?_eq_some_iff.mp rooted.last
  have layered := rooted.layered
  rw [whole, List.pairwise_append] at layered
  rw [whole, List.mem_append, List.mem_singleton] at inside
  rcases inside with above | here
  · exact absurd root (layered.2.2 o above _ List.mem_cons_self).1
  · exact here

end Rooted

/-- The root stands after steps that did not lead to another mode. -/
structure RootKept (k : Anchors) (b c : Builder) : Prop where
  rooted : Rooted k c
  mode : c.mode = b.mode
  tableReturn : c.tableReturn = b.tableReturn
  collapse : c.collapse = none → b.collapse = none

namespace RootKept

theorem refl (rooted : Rooted k b) : RootKept k b b := ⟨rooted, rfl, rfl, id⟩

theorem trans {d : Builder} (first : RootKept k b c) (second : RootKept k c d) : RootKept k b d where
  rooted := second.rooted
  mode := second.mode.trans first.mode
  tableReturn := second.tableReturn.trans first.tableReturn
  collapse alive := first.collapse (second.collapse alive)

theorem report (s : RootKept k b c) (f : Fault) : RootKept k b (c.report f) := by
  have rooted := s.rooted.same (Builder.core_report c f)
  rw [Builder.report] at rooted ⊢
  split
  · exact s
  · next alive =>
    rw [if_neg alive] at rooted
    exact ⟨rooted, s.mode, s.tableReturn, s.collapse⟩

theorem check (s : RootKept k b c) (p : Prop) [Decidable p] (f : Fault) :
    RootKept k b (if p then c else c.report f) := by
  split
  · exact s
  · exact s.report f

theorem breakDown (s : RootKept k b c) (how : Collapse) : RootKept k b (c.breakDown how) := by
  have rooted := s.rooted.same (Builder.core_breakDown c how)
  rw [Builder.breakDown] at rooted ⊢
  split
  · exact s
  · next alive =>
    rw [if_neg alive] at rooted
    exact ⟨rooted, s.mode, s.tableReturn, fun absurd => by cases absurd⟩

theorem needContext (s : RootKept k b c) : RootKept k b c.needContext := by
  rw [Builder.needContext]
  split
  · exact s
  · exact s.breakDown _

theorem trim (s : RootKept k b c) {t : List Open} (trims : Trims c.stack t) :
    RootKept k b { c with stack := t } :=
  ⟨s.rooted.trim trims, s.mode, s.tableReturn, s.collapse⟩

theorem reformat (s : RootKept k b c) {entries : List (Option Open)}
    (free : ∀ o, some o ∈ entries → ¬ k.Holds o.id) : RootKept k b { c with formatting := entries } :=
  ⟨s.rooted.reformat free, s.mode, s.tableReturn, s.collapse⟩

theorem insertText (s : RootKept k b c) (text : String) : RootKept k b (c.insertText text) := by
  obtain ⟨a, inserted, planted, keeps, _⟩ := s.rooted.exists_inserted (.text text)
  have shape : c.insertText text = { c with arena := a } := inserted
  rw [shape]
  exact ⟨s.rooted.rebuild planted keeps, s.mode, s.tableReturn, s.collapse⟩

theorem insertComment (s : RootKept k b c) (parent : Nat) (data : String) :
    RootKept k b (c.insertComment parent data) where
  rooted := by
    have plain : (Part.comment data).tag? = none := rfl
    refine s.rooted.rebuild (s.rooted.planted.insert (Or.inr plain)) ?_
    exact (Arena.keeps_make ..).trans (Arena.moved_append ..).keeps
  mode := s.mode
  tableReturn := s.tableReturn
  collapse := s.collapse

theorem mergeAttrs (s : RootKept k b c) (i : Nat) (attrs : List (String × String)) :
    RootKept k b (c.mergeAttrs i attrs) where
  rooted := s.rooted.rebuild (s.rooted.planted.setAttrs ..) (Arena.keeps_setAttrs ..)
  mode := s.mode
  tableReturn := s.tableReturn
  collapse := s.collapse

theorem insertPart (s : RootKept k b c) (name : String) (space : Space) (attrs : List BuiltAttr) :
    RootKept k b (c.insertPart name space attrs) := by
  obtain ⟨a, shape, planted, keeps, tagged⟩ := s.rooted.exists_insertPart name space attrs
  rw [shape]
  refine ⟨?_, s.mode, s.tableReturn, s.collapse⟩
  exact (s.rooted.rebuild planted keeps).push tagged s.rooted.planted.free_size

theorem insert (s : RootKept k b c) (t : Tag) : RootKept k b (c.insert t) := s.insertPart ..

theorem insertForeign (s : RootKept k b c) (space : Space) (t : Tag) (name : String) :
    RootKept k b (c.insertForeign space t name) := s.insertPart ..

theorem free_insertPart (s : RootKept k b c) (name : String) (space : Space) (attrs : List BuiltAttr) :
    ¬ k.Holds (c.insertPart name space attrs).current.id := by
  rw [Builder.current, Builder.stack_insertPart]
  exact s.rooted.planted.free_size

theorem pop (s : RootKept k b c) (found : ∃ o ∈ c.stack, o.name ≠ "html") : RootKept k b c.pop := by
  obtain ⟨o, inside, other⟩ := found
  refine s.trim (trims_tail fun same => other ?_)
  obtain ⟨p, rest, shape⟩ := List.exists_cons_of_ne_nil s.rooted.stack_ne
  have layered := s.rooted.layered
  rw [s.rooted.last, shape, List.head?_cons, Option.some.injEq] at same
  rw [shape, List.pairwise_cons] at layered
  rw [shape, List.mem_cons] at inside
  rcases inside with rfl | below
  · rw [same]
  · exact absurd (congrArg Open.id same) (layered.1 o below).1

theorem pop_current (s : RootKept k b c) (other : c.current.name ≠ "html") : RootKept k b c.pop :=
  s.pop ⟨_, s.rooted.current_mem, other⟩

theorem pop_insertPart (s : RootKept k b c) (name : String) (space : Space) (attrs : List BuiltAttr) :
    RootKept k b (c.insertPart name space attrs).pop := by
  have inserted := s.insertPart name space attrs
  refine inserted.trim (trims_tail fun same => ?_)
  rw [inserted.rooted.last, Builder.stack_insertPart, List.head?_cons, Option.some.injEq] at same
  exact s.rooted.planted.free_size (Or.inr (Or.inl (congrArg Open.id same)))

theorem insertVoid (s : RootKept k b c) (t : Tag) : RootKept k b (c.insertVoid t) := s.pop_insertPart ..

section Stack

variable (s : RootKept k b c)
include s

theorem popThroughName {name : String} (found : ∃ o ∈ c.stack, o.name = name)
    (other : name ≠ "html") : RootKept k b (c.popThroughName name) := by
  apply s.trim
  apply trims_popThrough
  · obtain ⟨o, inside, named⟩ := found
    exact ⟨o, inside, beq_iff_eq.mpr named⟩
  · intro o last
    rw [s.rooted.last_eq last]
    exact beq_eq_false_iff_ne.mpr other.symm

theorem popThroughId {o : Open} (inside : o ∈ c.stack) (other : o.id ≠ k.root) :
    RootKept k b { c with stack := popThrough (fun p => p.id == o.id) c.stack } := by
  apply s.trim
  apply trims_popThrough
  · exact ⟨o, inside, beq_self_eq_true _⟩
  · intro p last
    rw [s.rooted.last_eq last]
    exact beq_eq_false_iff_ne.mpr other.symm

theorem popToNames {names : List String} (root : names.contains "html" = true) :
    RootKept k b (c.popToNames names) := by
  refine s.trim (trims_popTo fun o last => ?_)
  rw [s.rooted.last_eq last]
  exact root

theorem dropImplied (except : Option String) : RootKept k b (c.dropImplied except) := by
  refine s.trim (trims_dropImplied fun o last => ?_)
  rw [s.rooted.last_eq last]
  rfl

theorem removeOpen {o : Open} (free : ¬ k.Holds o.id) : RootKept k b (c.removeOpen o) := by
  refine s.trim (trims_eraseP fun p last => ?_)
  rw [s.rooted.last_eq last]
  exact beq_eq_false_iff_ne.mpr fun same => free (Or.inr (Or.inl same.symm))

end Stack

section Formatting

variable (s : RootKept k b c)
include s

theorem pushMarker : RootKept k b c.pushMarker := by
  refine s.reformat fun o inside => ?_
  rcases List.mem_append.mp inside with before | new
  · exact s.rooted.formatting o before
  · cases List.mem_singleton.mp new

theorem clearToMarker : RootKept k b c.clearToMarker := by
  refine s.reformat fun o inside => s.rooted.formatting o ?_
  rw [List.mem_reverse] at inside
  have rest := (List.dropWhile_suffix (p := Option.isSome) (l := c.formatting.reverse)).subset
    (List.mem_of_mem_drop inside)
  exact List.mem_reverse.mp rest

theorem removeFormatting (o : Open) : RootKept k b (c.removeFormatting o) :=
  s.reformat fun p inside => s.rooted.formatting p (List.mem_of_mem_eraseP inside)

theorem pushFormatting (free : ¬ k.Holds c.current.id) : RootKept k b c.pushFormatting := by
  have entered : ∀ {d : Builder}, RootKept k b d → d.formatting ⊆ c.formatting →
      RootKept k b { d with formatting := d.formatting ++ [some c.current] } := by
    intro d rootKept fewer
    refine rootKept.reformat fun o inside => ?_
    rcases List.mem_append.mp inside with before | new
    · exact s.rooted.formatting o (fewer before)
    · cases List.mem_singleton.mp new
      exact free
  rw [Builder.pushFormatting]
  split
  · exact entered (s.removeFormatting _) fun _ inside => List.mem_of_mem_eraseP inside
  · exact entered s fun _ inside => inside

theorem insertFormatting (t : Tag) : RootKept k b (c.insertFormatting t) :=
  (s.insert t).pushFormatting (s.free_insertPart _ _ _)

end Formatting

theorem reopen (entries : List (Option Open)) : ∀ {c : Builder}, RootKept k b c →
    RootKept k b (c.reopen entries) := by
  induction entries with
  | nil => exact fun s => s
  | cons entry entries ih =>
      intro c s
      cases entry with
      | none => exact ih s
      | some o =>
          have inserted := s.insertPart o.name o.space (c.arena.attrs o.id)
          refine ih (inserted.reformat fun p inside => ?_)
          rcases List.mem_append.mp inside with before | new
          · exact inserted.rooted.formatting p before
          · cases List.mem_singleton.mp new
            exact s.free_insertPart _ _ _

theorem reconstruct (s : RootKept k b c) : RootKept k b c.reconstruct := by
  rw [Builder.reconstruct]
  split
  · exact s
  · exact reopen _ (s.reformat fun o inside =>
      s.rooted.formatting o (List.mem_of_mem_take inside))

end RootKept

end HtmlTree.Html
