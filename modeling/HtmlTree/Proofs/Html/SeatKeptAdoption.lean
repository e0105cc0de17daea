import HtmlTree.Proofs.Html.Adoption
import HtmlTree.Proofs.Html.SeatKept

/-! Splitting misnested formatting elements moves them about, and nothing that a mode goes by. -/

namespace HtmlTree.Html

open Builder (splice spliceLimit isEntry bottom)

open Arena (Keeps)

variable {b c d : Builder} {o f f' : Open} {inside around : List Open}

structure Plain (b : Builder) (o : Open) : Prop where
  html : o.space = .html
  named : b.arena.tag? o.id = some o.name

theorem Plain.keep (plain : Plain b o) (keeps : Keeps b.arena c.arena) : Plain c o :=
  ⟨plain.html, keeps.tag _ _ plain.named⟩

/-- An open element of HTML which, where it is a table, is in another node. -/
structure Standing (b : Builder) (o : Open) : Prop extends Plain b o where
  attached : o.name = "table" → (b.arena.parent o.id).isSome = true

theorem Standing.keep (standing : Standing b o) (keeps : Keeps b.arena c.arena) : Standing c o :=
  ⟨standing.toPlain.keep keeps, fun isTable => keeps.attached _ (standing.attached isTable)⟩

theorem Ordered.standing (ordered : Ordered b) (member : o ∈ b.stack) : Standing b o :=
  ⟨⟨ordered.html o member, ordered.named o member⟩, ordered.tables o member⟩

theorem Plain.standing (plain : Plain b o) (other : o.isSeat = false) : Standing b o := by
  refine ⟨plain, fun isTable => ?_⟩
  rw [Open.isSeat, isTable] at other
  exact absurd other (by decide)

theorem ne_html_of_not_isSeat (other : o.isSeat = false) : o.name ≠ "html" := by
  intro root
  rw [Open.isSeat, root] at other
  exact absurd other (by decide)

/-- Such steps that leave all that is open as it is. -/
structure StackKept (b c : Builder) : Prop extends SeatKept b c where
  stack : c.stack = b.stack

namespace StackKept

theorem refl (ordered : Ordered b) : StackKept b b := ⟨.refl ordered, rfl⟩

theorem trans (first : StackKept b c) (second : StackKept c d) : StackKept b d :=
  ⟨first.toSeatKept.trans second.toSeatKept, second.stack.trans first.stack⟩

theorem rebuild (s : StackKept b c) {a : Arena} (keeps : Keeps c.arena a) :
    StackKept b { c with arena := a } :=
  ⟨s.toSeatKept.rebuild keeps, s.stack⟩

theorem reformat (s : StackKept b c) {entries : List (Option Open)} (known : ∀ o, some o ∈ entries →
    o.isPassing = true ∧ o.space = .html ∧ c.arena.tag? o.id = some o.name) :
    StackKept b { c with formatting := entries } :=
  ⟨s.toSeatKept.reformat known, s.stack⟩

theorem cloneElement (s : StackKept b c) (o : Open) : StackKept b (c.cloneElement o).2 :=
  s.rebuild (Arena.keeps_make ..)

end StackKept

theorem Ordered.isPassing_of_isFormatting (ordered : Ordered b) (plain : Plain b o)
    (entered : b.isFormatting o = true) : o.isPassing = true := by
  obtain ⟨entry, inside, here⟩ := List.any_eq_true.mp entered
  cases entry with
  | none => cases here
  | some p =>
      obtain ⟨passing, _, tagged⟩ := ordered.formatting p inside
      have same : (p.id == o.id) = true := here
      rw [eq_of_beq same, plain.named, Option.some.injEq] at tagged
      rwa [Open.isPassing, tagged]

theorem stackKept_copy {s : Builder.Splice} (ordered : Ordered s.builder) (plain : Plain s.builder o)
    (entered : s.builder.isFormatting o = true) :
    StackKept s.builder (s.copy o).2.builder ∧ Plain (s.copy o).2.builder (s.copy o).1 ∧
      (s.copy o).1.isPassing = true := by
  have passing := ordered.isPassing_of_isFormatting plain entered
  have copied := (StackKept.refl ordered).cloneElement o
  have moved := Arena.moved_append (s.builder.cloneElement o).2.arena
    (s.builder.cloneElement o).1.id s.last
  have named := moved.keeps.tag _ _ (RootStackKept.tag_clone s.builder o)
  refine ⟨(copied.rebuild moved.keeps).reformat fun p inside => ?_, ⟨plain.html, named⟩, passing⟩
  rcases List.mem_or_eq_of_mem_set inside with before | new
  · exact (copied.rebuild moved.keeps).ordered.formatting p before
  · cases new
    exact ⟨passing, plain.html, named⟩

/-- Copies take the place of formatting elements, and what else is in between is left out or stays. -/
theorem stackKept_splice (n : Nat) {t t' : List Open} (room : Roomy t) (below : Loosened t t') :
    ∀ {between : List Open} (s : Builder.Splice), Ordered s.builder →
      (∀ o ∈ between, Plain s.builder o ∧ o.isSeat = false) →
        StackKept s.builder (splice n between s).2.builder ∧
          (∀ o ∈ (splice n between s).1, Plain (splice n between s).2.builder o ∧ o.isSeat = false) ∧
            Loosened (between ++ t) ((splice n between s).1 ++ t') := by
  induction n with
  | zero =>
      intro between s ordered all
      cases between <;> exact ⟨.refl ordered, all, below.append _⟩
  | succ n ih =>
      intro between s ordered all
      cases between with
      | nil => exact ⟨.refl ordered, all, below⟩
      | cons o rest =>
          obtain ⟨⟨plain, other⟩, others⟩ := List.forall_mem_cons.mp all
          rw [Builder.splice_succ]
          split
          · next entered =>
            obtain ⟨same, copy, passing⟩ := stackKept_copy ordered plain entered
            obtain ⟨further, kept, loosened⟩ := ih (s.copy o).2 same.ordered fun p inside =>
              ⟨(others p inside).1.keep same.keeps, (others p inside).2⟩
            have roomy : Roomy (rest ++ t) := by
              rw [Roomy, seat_append fun p inside => (others p inside).2]
              exact room
            exact ⟨same.trans further, List.forall_mem_cons.mpr ⟨⟨copy.keep further.keeps,
              isSeat_of_isPassing passing⟩, kept⟩, .drop o other (.put _ passing roomy loosened)⟩
          · obtain ⟨further, kept, loosened⟩ := ih s ordered others
            exact ⟨further, kept, .drop o other loosened⟩

theorem Ordered.exists_fosterPlace (ordered : Ordered b) (member : o ∈ b.stack)
    (part : tableContextTags.contains o.name = true) : ∃ p next, b.fosterPlace = (p, some next) := by
  obtain ⟨upper, lower, stack⟩ := List.append_of_mem member
  have below := ordered.seated
  rw [stack] at below
  have here := below.of_suffix (List.suffix_append upper (o :: lower))
  have grounded : tableParts.contains (ground (o :: lower)) = true := by
    have all : ∀ name ∈ tableContextTags, tableParts.contains name = true ∧
        passingTags.contains name = false := by decide
    obtain ⟨known, other⟩ := all _ (List.contains_iff_mem.mp part)
    rw [ground, if_neg]
    · exact known
    · rw [Open.isPassing, other]
      decide
  obtain ⟨table, inside, isTable⟩ := here.exists_table grounded
  have found : table ∈ popTo (·.name == "table") b.stack :=
    mem_popTo (stack ▸ List.mem_append_right upper inside) (beq_iff_eq.mpr isTable)
  obtain ⟨first, around, shape⟩ := List.exists_cons_of_ne_nil (List.ne_nil_of_mem found)
  have named := head_popTo (congrArg List.head? shape)
  have attached := ordered.tables first
    ((popTo_suffix _ _).subset (shape ▸ List.mem_cons_self)) (eq_of_beq named)
  obtain ⟨p, parent⟩ := Option.isSome_iff_exists.mp attached
  refine ⟨p, first.id, ?_⟩
  rw [Builder.fosterPlace, shape]
  dsimp only
  rw [parent]

theorem StackKept.placeSplice (s : StackKept b c) (member : o ∈ c.stack) (i : Nat) :
    StackKept b (c.placeSplice o i) := by
  rw [Builder.placeSplice]
  split
  · next part =>
    obtain ⟨p, next, place⟩ := s.ordered.exists_fosterPlace member part
    rw [place]
    exact s.rebuild (Arena.moved_insertBefore ..).keeps
  · exact s.rebuild (Arena.moved_append ..).keeps

theorem SeatKept.replace (s : SeatKept b c) {a : Arena} {entries : List (Option Open)} {stack : List Open}
    (ordered : Ordered { c with arena := a, formatting := entries, stack := stack })
    (keeps : Keeps c.arena a) (same : Html.seat stack = Html.seat c.stack) :
    SeatKept b { c with arena := a, formatting := entries, stack := stack } :=
  ⟨ordered, same.trans s.seat, s.mode, s.tableReturn, s.again, s.collapse, s.keeps.trans keeps⟩

theorem StackKept.enclose (s : StackKept b c) {copy : Open} (passing : copy.isPassing = true)
    (known : Plain c copy) {stack : List Open} (loosened : Loosened c.stack stack)
    (standing : ∀ o ∈ stack, Standing c o) (f block : Open) (bookmark : Nat) :
    SeatKept b (c.enclose f copy block bookmark stack) := by
  have keeps := (Arena.keeps_moveChildren c.arena block.id copy.id).trans
    (Arena.moved_append _ block.id copy.id).keeps
  have known' : ∀ o, some o ∈ (c.formatting.eraseP (isEntry f)).take bookmark ++
      some copy :: (c.formatting.eraseP (isEntry f)).drop bookmark → o.isPassing = true ∧
        o.space = .html ∧
        ((c.arena.moveChildren block.id copy.id).append block.id copy.id).tag? o.id = some o.name := by
    intro o member
    rw [List.mem_append, List.mem_cons] at member
    rcases member with member | member | member
    · exact (s.rebuild keeps).ordered.formatting o
        (List.mem_of_mem_eraseP (List.mem_of_mem_take member))
    · cases member
      exact ⟨passing, known.html, keeps.tag _ _ known.named⟩
    · exact (s.rebuild keeps).ordered.formatting o
        (List.mem_of_mem_eraseP (List.mem_of_mem_drop member))
  have filled := (s.rebuild keeps).reformat known'
  have ordered : Ordered (c.enclose f copy block bookmark stack) := { filled.ordered with
    seated := loosened.seated s.ordered.seated
    html := fun o member => (standing o member).html
    named := fun o member => keeps.tag _ _ (standing o member).named
    tables := fun o member isTable => keeps.attached _ ((standing o member).attached isTable) }
  exact s.toSeatKept.replace ordered keeps loosened.seat_eq

theorem stackKept_clone (ordered : Ordered c) (member : o ∈ c.stack) (i : Nat)
    (passing : f.isPassing = true) (html : f.space = .html) :
    StackKept c ((c.placeSplice o i).cloneElement f).2 ∧
      Plain ((c.placeSplice o i).cloneElement f).2 ((c.placeSplice o i).cloneElement f).1 ∧
        ((c.placeSplice o i).cloneElement f).1.isPassing = true :=
  ⟨((StackKept.refl ordered).placeSplice member i).cloneElement f, ⟨html, RootStackKept.tag_clone _ f⟩, passing⟩

theorem head?_getD_mem (room : Roomy (f' :: around)) (other : f'.isSeat = false) :
    around.head?.getD bottom ∈ around := by
  cases around with
  | nil => exact (room.1 (seat_cons_of_not other)).elim
  | cons o rest => exact List.mem_cons_self

/-- The elements between a special one and the formatting element are copied, and the formatting
element is left out. -/
theorem SeatKept.splice_between {within between : List Open} {block : Open} (s : SeatKept b c)
    (room : Roomy c.stack) (other : f'.isSeat = false)
    (stack : c.stack = within.reverse ++ block :: (between.reverse ++ f' :: around))
    (plain : ∀ o ∈ between, isSpecial o = false) {kept : List Open} {t : Builder.Splice}
    {bookmark : Nat}
    (spliced : splice spliceLimit between.reverse ⟨c, block.id, false, bookmark⟩ = (kept, t)) :
    StackKept c t.builder ∧ (∀ o ∈ kept, Plain t.builder o ∧ o.isSeat = false) ∧
      Loosened (between.reverse ++ f' :: around) (kept ++ around) ∧
        around.head?.getD bottom ∈ t.builder.stack := by
  have below : Roomy (f' :: around) := by
    have seated := s.ordered.seated
    rw [stack, ← List.cons_append, ← List.append_assoc] at seated room
    exact seated.roomy_of_mem room ⟨f', List.mem_cons_self, ne_html_of_not_isSeat other⟩
  have quiet : ∀ o ∈ between.reverse, Plain c o ∧ o.isSeat = false := by
    intro o member
    have known := (s.ordered.standing (o := o)
      (by rw [stack]; simp [List.mem_reverse.mp member])).toPlain
    exact ⟨known, isSeat_of_not_isSpecial known.html (plain o (List.mem_reverse.mp member))⟩
  obtain ⟨same, known, loosened⟩ := stackKept_splice spliceLimit below (.drop f' other (.refl around))
    ⟨c, block.id, false, bookmark⟩ s.ordered quiet
  rw [spliced] at same known loosened
  refine ⟨same, known, loosened, ?_⟩
  rw [same.stack, stack]
  simp [head?_getD_mem below other]

theorem SeatKept.adopt_special {within between : List Open} {block : Open} (s : SeatKept b c)
    (room : Roomy c.stack) (passing : f.isPassing = true) (html : f.space = .html)
    (other : f'.isSeat = false)
    (stack : c.stack = within.reverse ++ block :: (between.reverse ++ f' :: around))
    (plain : ∀ o ∈ between, isSpecial o = false) {kept : List Open} {t : Builder.Splice}
    {bookmark : Nat}
    (spliced : splice spliceLimit between.reverse ⟨c, block.id, false, bookmark⟩ = (kept, t))
    {clone : Open} {e : Builder}
    (cloned : (t.builder.placeSplice (around.head?.getD bottom) t.last).cloneElement f = (clone, e)) :
    SeatKept b
      (e.enclose f clone block t.bookmark (within.reverse ++ clone :: block :: kept ++ around)) := by
  obtain ⟨same, known, loosened, outside⟩ := s.splice_between room other stack plain spliced
  obtain ⟨later, cloneKnown, clonePassing⟩ := stackKept_clone same.ordered outside t.last passing html
  rw [cloned] at later cloneKnown clonePassing
  have whole := same.trans later
  have roomy : Roomy (block :: (between.reverse ++ f' :: around)) := by
    have seated := s.ordered.seated
    rw [stack] at seated room
    exact seated.roomy_of_mem room ⟨f', by simp, ne_html_of_not_isSeat other⟩
  have old : ∀ o ∈ c.stack, Standing e o :=
    fun o member => (s.ordered.standing member).keep whole.keeps
  rw [stack] at old
  rw [List.append_assoc, List.cons_append, List.cons_append]
  refine s.trans (whole.enclose clonePassing cloneKnown ?_ ?_ f block t.bookmark)
  · rw [whole.stack, stack]
    exact .append _ (.put clone clonePassing roomy (.keep block loosened))
  · intro o member
    rw [List.mem_append, List.mem_cons, List.mem_cons, List.mem_append] at member
    rcases member with member | rfl | rfl | member | member
    · exact old o (List.mem_append_left _ member)
    · exact cloneKnown.standing (isSeat_of_isPassing clonePassing)
    · exact old o (List.mem_append_right _ List.mem_cons_self)
    · exact ((known o member).1.keep later.keeps).standing (known o member).2
    · exact old o (by simp [member])

/-- One round for a formatting element. -/
theorem SeatKept.adopt (s : SeatKept b c) (room : Roomy c.stack)
    (stack : c.stack = inside ++ f' :: around)
    (same : f'.id = f.id) (entered : some f ∈ c.formatting) :
    SeatKept b (c.adopt f inside around).1 := by
  obtain ⟨passing, space, tagged⟩ := s.ordered.formatting f entered
  have member : f' ∈ c.stack := stack ▸ List.mem_append_right inside List.mem_cons_self
  have named : f'.name = f.name := by
    have here := s.ordered.named f' member
    rw [same, tagged, Option.some.injEq] at here
    exact here.symm
  have other : f'.isSeat = false := by
    rw [Open.isSeat, named]
    exact isSeat_of_isPassing passing
  rcases c.adopt_eq f inside around with ⟨plain, shape⟩ | ⟨between, block, within, split, plain, shape⟩
  · rw [shape]
    refine (s.suffix ?_ ?_).removeFormatting f
    · rw [stack]
      exact (List.suffix_cons f' around).trans (List.suffix_append inside _)
    · rw [stack, seat_append, seat_cons_of_not other]
      exact fun o above => isSeat_of_not_isSpecial
        (s.ordered.html o (stack ▸ List.mem_append_left _ above)) (plain o above)
  · have whole : inside = within.reverse ++ block :: between.reverse := by
      have reversed := congrArg List.reverse split
      rwa [List.reverse_reverse, List.reverse_append, List.reverse_cons, List.append_assoc,
        List.singleton_append] at reversed
    rw [whole, List.append_assoc, List.cons_append] at stack
    rw [shape]
    exact s.adopt_special room passing space other stack plain rfl rfl

namespace SeatKept

theorem endOther (s : SeatKept b c) {name : String} (other : name ≠ Html.seat c.stack) :
    SeatKept b (c.endOther name) := by
  rw [Builder.endOther]
  split
  · exact s
  · next o found =>
    have passed : ∀ p ∈ c.stack, (p.name == name || isSpecial p) = false → p.isSeat = false := by
      intro p member stays
      exact isSeat_of_not_isSpecial (s.ordered.html p member) (Bool.or_eq_false_iff.mp stays).2
    split
    · next named =>
      have plain : o.isSeat = false := by
        rw [← Bool.not_eq_true]
        intro isSeat
        rw [seat_of_find? found isSeat passed] at other
        exact other (eq_of_beq named).symm
      have checked := (s.dropImplied (some name)).check
        ((c.dropImplied (some name)).isCurrent name = true) (.endTag name)
      have stack := (c.dropImplied (some name)).stack_check
        ((c.dropImplied (some name)).isCurrent name = true) (.endTag name)
      dsimp only
      generalize (if (c.dropImplied (some name)).isCurrent name = true then c.dropImplied (some name)
        else (c.dropImplied (some name)).report (.endTag name)) = d at checked stack ⊢
      have dropped : d.stack = c.stack.dropWhile fun o =>
          impliedEndTags.contains o.name && some o.name ≠ some name := by
        rw [stack]
        exact dropImplied_eq ..
      apply checked.suffix
      · rw [popThrough_eq]
        exact (List.tail_suffix _).trans (popTo_suffix _ _)
      · have kept : d.stack.find? (fun p => p.name == name || isSpecial p) = some o := by
          rw [dropped]
          apply find?_dropWhile found
          rw [eq_of_beq named, Bool.and_eq_false_iff]
          exact Or.inr (decide_eq_false fun apart => apart rfl)
        apply seat_popThrough_of_find? kept
        · exact beq_self_eq_true _
        · exact plain
        · intro p member
          rw [dropped] at member
          exact passed p ((List.dropWhile_suffix _).subset member)
    · exact s.report _

theorem adoptionRounds (n : Nat) {name : String} (passing : passingTags.contains name = true)
    (room : Roomy b.stack) :
    ∀ {c : Builder}, SeatKept b c → SeatKept b (Builder.adoptionRounds n name c) := by
  have other : ∀ {c : Builder}, SeatKept b c → name ≠ Html.seat c.stack := by
    rintro c s rfl
    rw [s.seat] at passing
    have plain : seatTags.contains (Html.seat b.stack) = false :=
      isSeat_of_isPassing (o := ⟨0, Html.seat b.stack, .html⟩) passing
    rw [isSeat_of_seat room.1] at plain
    cases plain
  -- Each round ends, or begins the next one from a builder in which the seat is still that of the
  -- first.
  induction n with
  | zero => exact fun s => s
  | succ n ih =>
      intro c s
      rw [Builder.adoptionRounds]
      split
      · exact s.endOther (other s)
      · next f found =>
        have entered := (mem_of_findFormatting found).1
        split
        · next held =>
          split
          · have checked := s.check ((c.current.id == f.id) = true) (.adoptionNotCurrent name)
            have stack := c.stack_check ((c.current.id == f.id) = true) (.adoptionNotCurrent name)
            have formatting : (if (c.current.id == f.id) = true then c
                else c.report (.adoptionNotCurrent name)).formatting = c.formatting := by
              split
              · rfl
              · exact congrArg (·.2.2.1) (c.core_report _)
            generalize (if (c.current.id == f.id) = true then c
              else c.report (.adoptionNotCurrent name)) = d at checked stack formatting ⊢
            obtain ⟨inside, f', around, split, same, parts⟩ := exists_split held
            rw [← stack] at split parts
            rw [← formatting] at entered
            have roomy : Roomy d.stack := by
              rw [Roomy, checked.seat]
              exact room
            have adopted := checked.adopt roomy split same entered
            simp only [parts, List.tail_cons]
            generalize d.adopt f inside around = result at adopted ⊢
            obtain ⟨e, more⟩ := result
            cases more
            · exact adopted
            · exact ih adopted
          · exact s.endOther (other s)
        · exact (s.report _).removeFormatting f

theorem endFormatting (s : SeatKept b c) {name : String} (passing : passingTags.contains name = true)
    (room : Roomy b.stack) : SeatKept b (c.endFormatting name) := adoptionRounds 8 passing room s

end SeatKept

end HtmlTree.Html
