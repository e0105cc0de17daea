import HtmlTree.Proofs.Html.Rooted
import Mathlib.Data.List.TakeDrop

/-! Splitting misnested formatting elements leaves the parts of a document where they are: what is
moved lies inside a formatting element, and that is no part. -/

namespace HtmlTree.Html

open Builder (splice spliceLimit isEntry bottom)

open Arena (Keeps)

variable {k : Anchors} {b c d : Builder}

/-- An element that is no part of the document. -/
structure Unanchored (k : Anchors) (b : Builder) (o : Open) : Prop where
  named : b.arena.tag? o.id = some o.name
  free : ¬ k.Holds o.id

theorem Unanchored.keep {o : Open} (unanchored : Unanchored k b o) (keeps : Keeps b.arena c.arena) :
    Unanchored k c o :=
  ⟨keeps.tag _ _ unanchored.named, unanchored.free⟩

theorem Unanchored.ne_document {o : Open} (unanchored : Unanchored k b o) : o.id ≠ Arena.document :=
  fun same => unanchored.free (Or.inl same)

/-- Steps that leave the stack as it is. -/
structure RootStackKept (k : Anchors) (b c : Builder) : Prop extends RootKept k b c where
  stack : c.stack = b.stack
  keeps : Keeps b.arena c.arena

namespace RootStackKept

theorem refl (rooted : Rooted k b) : RootStackKept k b b := ⟨.refl rooted, rfl, .refl _⟩

theorem trans (first : RootStackKept k b c) (second : RootStackKept k c d) : RootStackKept k b d :=
  ⟨first.toRootKept.trans second.toRootKept, second.stack.trans first.stack,
    first.keeps.trans second.keeps⟩

theorem rebuild (q : RootStackKept k b c) {a : Arena} (planted : Planted k a) (keeps : Keeps c.arena a) :
    RootStackKept k b { c with arena := a } where
  rooted := q.rooted.rebuild planted keeps
  mode := q.mode
  tableReturn := q.tableReturn
  collapse := q.collapse
  stack := q.stack
  keeps := q.keeps.trans keeps

theorem reformat (q : RootStackKept k b c) {entries : List (Option Open)}
    (free : ∀ o, some o ∈ entries → ¬ k.Holds o.id) :
    RootStackKept k b { c with formatting := entries } :=
  ⟨q.toRootKept.reformat free, q.stack, q.keeps⟩

theorem move (q : RootStackKept k b c) {i p : Nat} {a : Arena} (moved : Arena.Moved c.arena i p a)
    (free : ¬ k.Holds i) (known : i < c.arena.size) (apart : p ≠ Arena.document) :
    RootStackKept k b { c with arena := a } :=
  q.rebuild (q.rooted.planted.moved moved free known (Or.inl apart)) moved.keeps

theorem cloneElement (q : RootStackKept k b c) (o : Open) : RootStackKept k b (c.cloneElement o).2 :=
  q.rebuild (q.rooted.planted.make _) (Arena.keeps_make ..)

theorem fill (q : RootStackKept k b c) {block copy : Open} (inner : Unanchored k c block)
    (outer : Unanchored k c copy) : RootStackKept k b { c with
      arena := (c.arena.moveChildren block.id copy.id).append block.id copy.id } := by
  have emptied := q.rebuild (q.rooted.planted.moveChildren inner.free outer.ne_document)
    (Arena.keeps_moveChildren c.arena block.id copy.id)
  have known := Arena.lt_size_of_tag
    ((Arena.keeps_moveChildren c.arena block.id copy.id).tag _ _ outer.named)
  exact emptied.move (Arena.moved_append ..) outer.free known inner.ne_document

theorem tag_clone (c : Builder) (o : Open) :
    (c.cloneElement o).2.arena.tag? (c.cloneElement o).1.id = some o.name :=
  (Arena.tag_make ..).trans (if_pos rfl)

end RootStackKept

theorem loose_clone (rooted : Rooted k b) (o : Open) :
    Unanchored k (b.cloneElement o).2 (b.cloneElement o).1 :=
  ⟨RootStackKept.tag_clone b o, rooted.planted.free_size⟩

structure Spliced (k : Anchors) (b : Builder) (kept : List Open) (s : Builder.Splice) : Prop where
  rootStackKept : RootStackKept k b s.builder
  free : ¬ k.Holds s.last
  known : s.last < s.builder.arena.size
  kept : ∀ o ∈ kept, Unanchored k s.builder o

def Builder.Splice.copy (s : Splice) (o : Open) : Open × Splice :=
  let place := s.builder.formatting.findIdx (isEntry o)
  let (copy, b) := s.builder.cloneElement o
  (copy, ⟨{ b with
    arena := b.arena.append copy.id s.last
    formatting := b.formatting.set place (some copy) }, copy.id, true,
      if s.copied then s.bookmark else place + 1⟩)

theorem Builder.splice_succ (n : Nat) (o : Open) (rest : List Open) (s : Splice) :
    splice (n + 1) (o :: rest) s = if s.builder.isFormatting o then
      ((s.copy o).1 :: (splice n rest (s.copy o).2).1, (splice n rest (s.copy o).2).2)
    else splice n rest s := rfl

theorem spliced_copy {kept : List Open} {s : Builder.Splice} (spliced : Spliced k b kept s)
    (o : Open) : Spliced k s.builder [(s.copy o).1] (s.copy o).2 := by
  obtain ⟨rootStackKept, free, known, -⟩ := spliced
  have copy := loose_clone rootStackKept.rooted o
  have old : s.last < (s.builder.cloneElement o).2.arena.size :=
    Nat.lt_of_lt_of_eq (Nat.lt_succ_of_lt known) (Arena.size_make ..).symm
  have moved := Arena.moved_append (s.builder.cloneElement o).2.arena
    (s.builder.cloneElement o).1.id s.last
  have step := ((RootStackKept.refl rootStackKept.rooted).cloneElement o).move moved free old
    copy.ne_document
  have named := moved.keeps.tag _ _ copy.named
  have entered : ∀ p, some p ∈ s.builder.formatting.set
      (s.builder.formatting.findIdx (Builder.isEntry o)) (some (s.builder.cloneElement o).1) →
        ¬ k.Holds p.id := by
    intro p inside
    rcases List.mem_or_eq_of_mem_set inside with before | new
    · exact rootStackKept.rooted.formatting p before
    · cases new
      exact copy.free
  exact ⟨step.reformat entered, copy.free, Arena.lt_size_of_tag named,
    List.forall_mem_singleton.mpr ⟨named, copy.free⟩⟩

theorem Spliced.start {kept : List Open} {s : Builder.Splice} (spliced : Spliced k b kept s)
    (others : List Open) (unanchored : ∀ o ∈ others, Unanchored k s.builder o) :
    Spliced k s.builder others s :=
  ⟨.refl spliced.rootStackKept.rooted, spliced.free, spliced.known, unanchored⟩

/-- Copies are new elements, and what is left of those in between stays as it was. -/
theorem spliced_splice (n : Nat) : ∀ {between : List Open} (s : Builder.Splice),
    Spliced k s.builder between s →
      Spliced k s.builder (splice n between s).1 (splice n between s).2 := by
  induction n with
  | zero =>
      intro between s spliced
      cases between <;> exact spliced
  | succ n ih =>
      intro between s spliced
      cases between with
      | nil => exact spliced
      | cons o rest =>
          have others := (List.forall_mem_cons.mp spliced.kept).2
          rw [Builder.splice_succ]
          split
          · have copied := spliced_copy spliced o
            have further := ih _ (copied.start rest fun p inside =>
              (others p inside).keep copied.rootStackKept.keeps)
            have copy := copied.kept _ List.mem_cons_self
            exact ⟨copied.rootStackKept.trans further.rootStackKept, further.free, further.known,
              List.forall_mem_cons.mpr ⟨copy.keep further.rootStackKept.keeps, further.kept⟩⟩
          · exact ih _ (spliced.start rest others)

theorem RootStackKept.placeSplice (q : RootStackKept k b c) {around : Open}
    (inside : around ∈ c.stack) {i : Nat}
    (free : ¬ k.Holds i) (known : i < c.arena.size) : RootStackKept k b (c.placeSplice around i) := by
  have foster := q.rooted.fosterPlace_ne
  rw [Builder.placeSplice]
  split
  · split
    · next p next place =>
      rw [place] at foster
      exact q.move (Arena.moved_insertBefore ..) free known foster
    · have core := Builder.core_breakDown c .noPlace
      have stack : (c.breakDown .noPlace).stack = c.stack := congrArg (·.2.1) core
      have arena : (c.breakDown .noPlace).arena = c.arena := congrArg (·.1) core
      exact ⟨q.toRootKept.breakDown _, stack.trans q.stack, arena ▸ q.keeps⟩
  · exact q.move (Arena.moved_append ..) free known (q.rooted.ne_document inside)

section Round

variable {f f' : Open} {inside around : List Open}

theorem Rooted.around_ne (rooted : Rooted k b) (stack : b.stack = inside ++ f' :: around)
    (free : ¬ k.Holds f'.id) : around ≠ [] := by
  rintro rfl
  have last := rooted.last
  rw [stack, List.getLast?_append, List.getLast?_singleton, Option.some_or, Option.some.injEq] at last
  exact free (Or.inr (Or.inl (congrArg Open.id last)))

theorem Rooted.trims_around (rooted : Rooted k b) (stack : b.stack = inside ++ f' :: around)
    (free : ¬ k.Holds f'.id) : Trims b.stack around := by
  apply trims_of_suffix _ (rooted.around_ne stack free)
  rw [stack]
  exact (List.suffix_cons f' around).trans (List.suffix_append inside _)

/-- New and old elements open around one another, none of them a part, in what was open already. -/
theorem Rooted.restack (rooted : Rooted k b) (stack : b.stack = inside ++ f' :: around)
    (free : ¬ k.Holds f'.id) {upper : List Open} (unanchored : ∀ o ∈ upper, Unanchored k b o) :
    Rooted k { b with stack := upper ++ around } := by
  have below := rooted.trim (rooted.trims_around stack free)
  induction upper with
  | nil => exact below
  | cons o upper ih =>
      obtain ⟨here, others⟩ := List.forall_mem_cons.mp unanchored
      exact (ih others).push here.named here.free

/-- The end of a round: the block's children are in a copy of the formatting element, and that is the
block's only child. -/
def Builder.enclose (b : Builder) (f copy block : Open) (bookmark : Nat) (stack : List Open) :
    Builder :=
  let formatting := b.formatting.eraseP (isEntry f)
  { b with
    arena := (b.arena.moveChildren block.id copy.id).append block.id copy.id
    formatting := formatting.take bookmark ++ some copy :: formatting.drop bookmark
    stack }

theorem Builder.adopt_eq (b : Builder) (f : Open) (inside around : List Open) :
    (∀ o ∈ inside, isSpecial o = false) ∧
      (b.adopt f inside around).1 = { b with stack := around }.removeFormatting f ∨
    ∃ between block within, inside.reverse = between ++ block :: within ∧
      (∀ o ∈ between, isSpecial o = false) ∧ (b.adopt f inside around).1 =
        let (kept, s) := splice spliceLimit between.reverse
          ⟨b, block.id, false, b.formatting.findIdx (isEntry f)⟩
        let (copy, c) := (s.builder.placeSplice (around.head?.getD bottom) s.last).cloneElement f
        c.enclose f copy block s.bookmark (within.reverse ++ copy :: block :: kept ++ around) := by
  have whole : (inside.reverse.span fun o => !isSpecial o).1 ++
      (inside.reverse.span fun o => !isSpecial o).2 = inside.reverse := by
    rw [List.span_eq_takeWhile_dropWhile]
    exact List.takeWhile_append_dropWhile
  rw [adopt]
  split
  · next between split =>
    left
    refine ⟨fun o member => ?_, rfl⟩
    rw [List.span_eq_takeWhile_dropWhile] at split
    have nothing := (congrArg Prod.snd split)
    have all := List.dropWhile_eq_nil_iff.mp nothing o (List.mem_reverse.mpr member)
    exact (Bool.not_eq_true' _).mp all
  · next between block within split =>
    right
    rw [split] at whole
    refine ⟨between, block, within, whole.symm, fun o member => ?_, rfl⟩
    rw [List.span_eq_takeWhile_dropWhile] at split
    have front : _ = between := congrArg Prod.fst split
    rw [← front] at member
    exact (Bool.not_eq_true' _).mp (List.mem_takeWhile_imp (p := fun o => !isSpecial o) member)

theorem RootKept.replace (s : RootKept k b c) {a : Arena} {entries : List (Option Open)}
    {stack : List Open}
    (rooted : Rooted k { c with arena := a, formatting := entries, stack := stack }) :
    RootKept k b { c with arena := a, formatting := entries, stack := stack } :=
  ⟨rooted, s.mode, s.tableReturn, s.collapse⟩

theorem RootStackKept.enclose (q : RootStackKept k b c) (stack : b.stack = inside ++ f' :: around)
    (free : ¬ k.Holds f'.id) {copy block : Open} {upper : List Open} (inner : Unanchored k c block)
    (outer : Unanchored k c copy) (unanchored : ∀ o ∈ upper, Unanchored k c o) (f : Open)
    (bookmark : Nat) :
    RootKept k b (c.enclose f copy block bookmark (upper ++ around)) := by
  have entered : ∀ o, some o ∈ (c.formatting.eraseP (isEntry f)).take bookmark ++
      some copy :: (c.formatting.eraseP (isEntry f)).drop bookmark → ¬ k.Holds o.id := by
    intro o member
    rw [List.mem_append, List.mem_cons] at member
    rcases member with member | member | member
    · exact q.rooted.formatting o (List.mem_of_mem_eraseP (List.mem_of_mem_take member))
    · cases member
      exact outer.free
    · exact q.rooted.formatting o (List.mem_of_mem_eraseP (List.mem_of_mem_drop member))
  have filled := ((RootStackKept.refl q.rooted).fill inner outer).reformat entered
  have before : c.stack = inside ++ f' :: around := q.stack.trans stack
  have kept : ∀ o ∈ upper, Unanchored k _ o := fun o member => (unanchored o member).keep filled.keeps
  have restacked := filled.rooted.restack before free kept
  exact q.toRootKept.replace restacked

theorem RootKept.adopt (s : RootKept k b c) (stack : c.stack = inside ++ f' :: around)
    (free : ¬ k.Holds f'.id) (f : Open) : RootKept k b (c.adopt f inside around).1 := by
  have unanchored : ∀ o ∈ inside, Unanchored k c o := fun o above =>
    ⟨s.rooted.named o (stack ▸ List.mem_append_left _ above), s.rooted.free_above stack free o above⟩
  rcases c.adopt_eq f inside around with ⟨_, same⟩ | ⟨between, block, within, split, _, same⟩
  · rw [same]
    exact (s.trim (s.rooted.trims_around stack free)).removeFormatting f
  · have parts : ∀ o ∈ between ++ block :: within, Unanchored k c o := fun o member =>
      unanchored o (List.mem_reverse.mp (split ▸ member))
    rw [List.forall_mem_append, List.forall_mem_cons] at parts
    obtain ⟨before, here, after⟩ := parts
    rw [same]
    have spliced := spliced_splice spliceLimit
      ⟨c, block.id, false, c.formatting.findIdx (isEntry f)⟩ ⟨.refl s.rooted, here.free,
        Arena.lt_size_of_tag here.named, fun o member => before o (List.mem_reverse.mp member)⟩
    generalize splice spliceLimit between.reverse
      ⟨c, block.id, false, c.formatting.findIdx (isEntry f)⟩ = result at spliced ⊢
    obtain ⟨kept, t⟩ := result
    dsimp only at spliced ⊢
    have outside : around.head?.getD bottom ∈ t.builder.stack := by
      obtain ⟨o, rest, rfl⟩ := List.exists_cons_of_ne_nil (s.rooted.around_ne stack free)
      rw [spliced.rootStackKept.stack, stack]
      exact List.mem_append_right _ (List.mem_cons_of_mem _ List.mem_cons_self)
    have placed := (RootStackKept.refl spliced.rootStackKept.rooted).placeSplice outside spliced.free
      spliced.known
    have copy := loose_clone placed.rooted f
    have later := placed.cloneElement f
    generalize (t.builder.placeSplice (around.head?.getD bottom) t.last).cloneElement f = result
      at copy later ⊢
    obtain ⟨clone, e⟩ := result
    dsimp only at copy later ⊢
    have whole := spliced.rootStackKept.trans later
    have upper : ∀ o ∈ within.reverse ++ clone :: block :: kept, Unanchored k e o := by
      intro o member
      rw [List.mem_append, List.mem_cons, List.mem_cons] at member
      rcases member with member | rfl | rfl | member
      · exact (after o (List.mem_reverse.mp member)).keep whole.keeps
      · exact copy
      · exact here.keep whole.keeps
      · exact (spliced.kept o member).keep later.keeps
    have enclosed := whole.enclose stack free (here.keep whole.keeps) copy upper f t.bookmark
    exact s.trans enclosed

end Round

theorem mem_of_findFormatting {name : String} {f : Open} (found : b.findFormatting name = some f) :
    some f ∈ b.formatting ∧ f.name = name := by
  rw [Builder.findFormatting] at found
  have entry := List.mem_of_find?_eq_some found
  have named := List.find?_some found
  rw [Builder.recentFormatting, List.mem_filterMap] at entry
  obtain ⟨o, inside, same⟩ := entry
  have here : o = some f := same
  rw [here] at inside
  exact ⟨List.mem_reverse.mp ((List.takeWhile_prefix _).subset inside), eq_of_beq named⟩

theorem exists_split {s : List Open} {f : Open} (held : (s.any fun p => p.id == f.id) = true) :
    ∃ inside f' around, s = inside ++ f' :: around ∧ f'.id = f.id ∧
      s.span (fun o => o.id != f.id) = (inside, f' :: around) := by
  have left : s.dropWhile (fun o => o.id != f.id) ≠ [] := by
    intro nothing
    obtain ⟨p, inside, same⟩ := List.any_eq_true.mp held
    have passed := List.dropWhile_eq_nil_iff.mp nothing p inside
    rw [eq_of_beq same, bne_self_eq_false] at passed
    cases passed
  obtain ⟨f', around, shape⟩ := List.exists_cons_of_ne_nil left
  have stops := List.head?_dropWhile_not (fun o : Open => o.id != f.id) s
  rw [shape, List.head?_cons] at stops
  refine ⟨s.takeWhile fun o => o.id != f.id, f', around, ?_, ?_, ?_⟩
  · rw [← shape, List.takeWhile_append_dropWhile]
  · exact eq_of_beq (bne_eq_false_iff_eq.mp stops ▸ beq_self_eq_true _)
  · rw [List.span_eq_takeWhile_dropWhile, shape]

namespace RootKept

theorem endOther (s : RootKept k b c) {name : String} (other : name ≠ "html") :
    RootKept k b (c.endOther name) := by
  rw [Builder.endOther]
  split
  · exact s
  · next o found =>
    split
    · next named =>
      have isNamed := eq_of_beq named
      have here := mem_dropImplied (List.mem_of_find?_eq_some found) (Or.inr (congrArg some isNamed))
      have checked := (s.dropImplied (some name)).check
        ((c.dropImplied (some name)).isCurrent name = true) (.endTag name)
      have outside : o.id ≠ k.root := by
        intro root
        have isRoot := s.rooted.eq_root (List.mem_of_find?_eq_some found) root
        rw [isRoot] at isNamed
        exact other isNamed.symm
      refine checked.popThroughId ?_ outside
      rw [Builder.stack_check]
      exact here
    · exact s.report _

theorem adoptionRounds (n : Nat) {name : String} (other : name ≠ "html") : ∀ {c : Builder},
    RootKept k b c → RootKept k b (Builder.adoptionRounds n name c) := by
  induction n with
  | zero => exact fun s => s
  | succ n ih =>
      intro c s
      rw [Builder.adoptionRounds]
      split
      · exact s.endOther other
      · next f found =>
        have free := s.rooted.formatting f (mem_of_findFormatting found).1
        split
        · next held =>
          split
          · have checked := s.check ((c.current.id == f.id) = true) (.adoptionNotCurrent name)
            have stack := c.stack_check ((c.current.id == f.id) = true) (.adoptionNotCurrent name)
            generalize (if (c.current.id == f.id) = true then c
              else c.report (.adoptionNotCurrent name)) = d at checked stack ⊢
            obtain ⟨inside, f', around, split, same, parts⟩ := exists_split held
            rw [← stack] at split parts
            have adopted := checked.adopt split (same ▸ free) f
            simp only [parts, List.tail_cons]
            generalize d.adopt f inside around = result at adopted ⊢
            obtain ⟨e, more⟩ := result
            cases more
            · exact adopted
            · exact ih adopted
          · exact s.endOther other
        · exact (s.report _).removeFormatting f

theorem endFormatting (s : RootKept k b c) {name : String} (other : name ≠ "html") :
    RootKept k b (c.endFormatting name) := adoptionRounds 8 other s

end RootKept

end HtmlTree.Html
