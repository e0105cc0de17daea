import HtmlTree.Proofs.Dom.Merging
import HtmlTree.Proofs.Dom.Preorder
import HtmlTree.Proofs.Markup.Spelling

/-! The two loops over trees that keep what is left on a stack, one that merges texts and one that finds
tokens. A node may be listed several times and refer to any parent. The first loop changes lists while
nodes below them wait, but never the containers in them; the second puts an element back on its stack
for the end tag. Both come to an end, after as many rounds as the trees tell. -/

namespace HtmlTree

def Halts {σ : Type} (round : σ → Option σ) : σ → Prop :=
  Acc fun later earlier => round earlier = some later

section Halting

variable {σ : Type} {round : σ → Option σ} {state later : σ}

theorem halts_of_none (ended : round state = none) : Halts round state := by
  apply Acc.intro
  intro other moved
  simp [ended] at moved

theorem Halts.before (halts : Halts round later) (moved : round state = some later) :
    Halts round state := by
  apply Acc.intro
  intro other elsewhere
  have same : later = other := by simpa [moved] using elsewhere
  rwa [← same]

end Halting

namespace Store

variable {s t u : Store}

section Merging

theorem isContainer_of_isText {i : NodeId} (text : s.isText i = true) : s.isContainer i = false := by
  rw [isText_eq, Option.isSome_iff_exists] at text
  obtain ⟨value, text⟩ := text
  exact s.isContainer_of_text i value text

theorem isContainer_join {last : NodeId} (text : s.isText last = true) (value : String)
    (c i : NodeId) :
    ((s.setContent last (.text (some value))).setParent c none).isContainer i = s.isContainer i := by
  simp only [isContainer, content_setParent, content_setContent]
  split
  · next here =>
    have leaf := isContainer_of_isText text
    rw [here.1] at leaf
    exact leaf.symm
  · rfl

theorem mergeChild_cases (m : Merge) (c : NodeId) :
    mergeChild m c =
        ⟨m.store, c :: m.kept, if m.store.isContainer c then c :: m.below else m.below⟩ ∨
      ∃ t, mergeChild m c = ⟨t, m.kept, m.below⟩ ∧ m.store.isContainer c = false ∧
        (∀ i, t.isContainer i = m.store.isContainer i) ∧
        ∀ i, t.children i = m.store.children i := by
  cases text : m.store.isText c with
  | false =>
      left
      cases owner : m.store.isContainer c <;> simp [mergeChild, text, owner]
  | true =>
      have leaf := isContainer_of_isText text
      by_cases empty : m.store.textValue c = ""
      · right
        refine ⟨m.store.setParent c none, ?_, leaf, ?_, ?_⟩
        · simp [mergeChild, text, empty]
        · simp [isContainer]
        · simp
      · cases kept : m.kept with
        | nil =>
            left
            simp [mergeChild, text, empty, kept, leaf]
        | cons last before =>
            cases lastText : m.store.isText last with
            | false =>
                left
                simp [mergeChild, text, empty, kept, lastText, leaf]
            | true =>
                right
                refine ⟨_, ?_, leaf, isContainer_join lastText
                  (m.store.textValue last ++ m.store.textValue c) c, ?_⟩
                · simp [mergeChild, text, empty, kept, lastText]
                · simp

/-- In two stores the same nodes own children, and every list has the same ones of them in order. -/
structure SameContainers (s t : Store) : Prop where
  owners : ∀ i, t.isContainer i = s.isContainer i
  listed : ∀ p, (t.children p).filter s.isContainer = (s.children p).filter s.isContainer

theorem SameContainers.refl (s : Store) : SameContainers s s := ⟨fun _ => rfl, fun _ => rfl⟩

theorem SameContainers.trans (first : SameContainers s t) (second : SameContainers t u) :
    SameContainers s u where
  owners i := (second.owners i).trans (first.owners i)
  listed p := by
    have owners : t.isContainer = s.isContainer := funext first.owners
    have onward := second.listed p
    rw [owners] at onward
    exact onward.trans (first.listed p)

/-- A pass over a list under way: of what it has met, the containers are kept and put on the stack. -/
structure Sifted (s : Store) (done : List NodeId) (m : Merge) : Prop where
  owners : ∀ i, m.store.isContainer i = s.isContainer i
  children : ∀ i, m.store.children i = s.children i
  kept : m.kept.filter s.isContainer = (done.filter s.isContainer).reverse
  below : m.below = (done.filter s.isContainer).reverse

theorem Sifted.step {done : List NodeId} {m : Merge} (sifted : Sifted s done m) (c : NodeId) :
    Sifted s (done ++ [c]) (mergeChild m c) := by
  rcases mergeChild_cases m c with kept | ⟨t, dropped, leaf, owners, children⟩
  · rw [kept, sifted.owners]
    refine ⟨sifted.owners, sifted.children, ?_, ?_⟩
    · cases owner : s.isContainer c <;> simp [owner, sifted.kept]
    · cases owner : s.isContainer c <;> simp [owner, sifted.below]
  · rw [sifted.owners] at leaf
    rw [dropped]
    refine ⟨fun i => (owners i).trans (sifted.owners i),
      fun i => (children i).trans (sifted.children i), ?_, ?_⟩
    · simp [leaf, sifted.kept]
    · simp [leaf, sifted.below]

theorem Sifted.walk (rest : List NodeId) : ∀ {done : List NodeId} {m : Merge}, Sifted s done m →
    Sifted s (done ++ rest) (rest.foldl mergeChild m) := by
  induction rest with
  | nil =>
      intro done m sifted
      simpa using sifted
  | cons c rest ih =>
      intro done m sifted
      rw [List.append_cons]
      exact ih (sifted.step c)

theorem sameContainers_mergeChildren (s : Store) (i : NodeId) :
    SameContainers s (s.mergeChildren i).store ∧
      (s.mergeChildren i).below = ((s.children i).filter s.isContainer).reverse := by
  have start : Sifted s [] ⟨s, [], []⟩ := ⟨fun _ => rfl, fun _ => rfl, rfl, rfl⟩
  have sifted := start.walk (s.children i)
  rw [List.nil_append] at sifted
  rw [mergeChildren]
  generalize (s.children i).foldl mergeChild ⟨s, [], []⟩ = m at sifted ⊢
  refine ⟨⟨?_, ?_⟩, sifted.below⟩
  · intro j
    rw [isContainer, content_setChildren]
    exact sifted.owners j
  · intro p
    rw [children_setChildren]
    split
    · next here =>
      rw [← here.1, List.filter_reverse, sifted.kept, List.reverse_reverse]
    · rw [sifted.children]

def mergeRound : Store × List NodeId → Option (Store × List NodeId)
  | (_, []) => none
  | (s, i :: pending) => some (s.normalizeStep i pending)

/-- Rounds of merging, with the nodes they take from the stack. -/
inductive Rounds : Store × List NodeId → List NodeId → Store × List NodeId → Prop
  | rest (w : Store × List NodeId) : Rounds w [] w
  | round {s : Store} {i : NodeId} {pending taken : List NodeId} {next last : Store × List NodeId}
      (moved : mergeRound (s, i :: pending) = some next) (onward : Rounds next taken last) :
      Rounds (s, i :: pending) (i :: taken) last

namespace Rounds

variable {first middle last : Store × List NodeId} {taken more : List NodeId}

theorem append (before : Rounds first taken middle) (after : Rounds middle more last) :
    Rounds first (taken ++ more) last := by
  induction before with
  | rest w => exact after
  | round moved _ ih => exact Rounds.round moved (ih after)

theorem halts (rounds : Rounds first taken last) (ended : last.2 = []) : Halts mergeRound first := by
  induction rounds with
  | rest w =>
      obtain ⟨s, pending⟩ := w
      cases ended
      exact halts_of_none rfl
  | round moved _ ih => exact (ih ended).before moved

theorem normalizeLoop_eq (rounds : Rounds first taken last) (ended : last.2 = []) (fuel : Nat)
    (enough : taken.length ≤ fuel) : first.1.normalizeLoop fuel first.2 = last.1 := by
  induction rounds generalizing fuel with
  | rest w =>
      rw [ended]
      cases fuel <;> rfl
  | @round s i pending taken next last moved _ ih =>
      rw [List.length_cons] at enough
      obtain ⟨fuel, rfl⟩ : ∃ less, fuel = less + 1 := ⟨fuel - 1, by omega⟩
      have next_eq : s.normalizeStep i pending = next := Option.some.inj moved
      rw [normalizeLoop, next_eq]
      exact ih ended fuel (by omega)

end Rounds

/-- The containers of trees as they come off a stack, last first. -/
def pile (s : Store) : Forest NodeId → Forest NodeId
  | .nil => .nil
  | .cons i below rest =>
    (s.pile rest).append (if s.isContainer i then .cons i (s.pile below) .nil else .nil)

/-- Below every node of the forest are the containers it lists, last first. -/
def Piles (s : Store) : Forest NodeId → Prop
  | .nil => True
  | .cons i below rest =>
    ((s.children i).filter s.isContainer).reverse = below.tops ∧ s.Piles below ∧ s.Piles rest

theorem piles_append (f g : Forest NodeId) : s.Piles (f.append g) ↔ s.Piles f ∧ s.Piles g := by
  induction f with
  | nil => simp [Forest.append, Piles]
  | cons i below rest _ ih => simp [Forest.append, Piles, ih, and_assoc]

theorem tops_pile (s : Store) (f : Forest NodeId) :
    (s.pile f).tops = (f.tops.filter s.isContainer).reverse := by
  induction f with
  | nil => rfl
  | cons i below rest _ ih =>
      rw [pile, Forest.tops_append, ih, Forest.tops]
      cases owner : s.isContainer i <;> simp [owner, Forest.tops]

theorem Unfolds.piles {f : Forest NodeId} (unfolded : s.Unfolds f) : s.Piles (s.pile f) := by
  induction f with
  | nil => trivial
  | cons i below rest ihBelow ihRest =>
      obtain ⟨listed, deeper, beside⟩ := unfolded
      rw [pile, piles_append]
      refine ⟨ihRest beside, ?_⟩
      split
      · exact ⟨by rw [listed, tops_pile], ihBelow deeper, trivial⟩
      · trivial

theorem length_pile_le (s : Store) (f : Forest NodeId) :
    (s.pile f).labels.length ≤ f.labels.length := by
  induction f with
  | nil => exact Nat.le_refl 0
  | cons i below rest ihBelow ihRest =>
      rw [pile, Forest.labels_append, Forest.labels]
      cases s.isContainer i <;> simp [Forest.labels] <;> omega

theorem Unfolds.pile_perm {f : Forest NodeId} (unfolded : s.Unfolds f) (bare : s.Bare f.labels) :
    (s.pile f).labels.Perm (f.labels.filter s.isContainer) := by
  induction f with
  | nil => exact List.Perm.refl []
  | cons i below rest ihBelow ihRest =>
      obtain ⟨listed, deeper, beside⟩ := unfolded
      rw [Forest.labels, Bare, List.forall_mem_cons, List.forall_mem_append] at bare
      obtain ⟨here, bareBelow, bareRest⟩ := bare
      rw [pile, Forest.labels_append, Forest.labels]
      cases owner : s.isContainer i with
      | true =>
          calc
            ((s.pile rest).labels ++ (Forest.cons i (s.pile below) .nil).labels).Perm
                ((Forest.cons i (s.pile below) .nil).labels ++ (s.pile rest).labels) :=
              List.perm_append_comm
            _ = i :: ((s.pile below).labels ++ (s.pile rest).labels) := by simp [Forest.labels]
            List.Perm _ (i :: (below.labels.filter s.isContainer ++
                rest.labels.filter s.isContainer)) :=
              ((ihBelow deeper bareBelow).append (ihRest beside bareRest)).cons i
            _ = (i :: (below.labels ++ rest.labels)).filter s.isContainer := by simp [owner]
      | false =>
          have flat : below = .nil := by
            rw [here owner] at listed
            cases below with
            | nil => rfl
            | cons j inner others => cases listed
          simpa [flat, owner, Forest.labels] using ihRest beside bareRest

theorem SameContainers.piles {f : Forest NodeId} (same : SameContainers s t) (piles : s.Piles f) :
    t.Piles f := by
  have owners : t.isContainer = s.isContainer := funext same.owners
  induction f with
  | nil => trivial
  | cons i below rest ihBelow ihRest =>
      obtain ⟨listed, deeper, beside⟩ := piles
      exact ⟨by rw [owners, same.listed, listed], ihBelow deeper, ihRest beside⟩

/-- A pile is worked off node by node. What the rounds at its nodes change does not change the pile. -/
theorem Piles.exists_rounds {f : Forest NodeId} (piles : s.Piles f) (pending : List NodeId) :
    ∃ t, Rounds (s, f.tops ++ pending) f.labels (t, pending) ∧ SameContainers s t := by
  induction f generalizing s pending with
  | nil => exact ⟨s, Rounds.rest _, SameContainers.refl s⟩
  | cons i below rest ihBelow ihRest =>
      obtain ⟨listed, deeper, beside⟩ := piles
      obtain ⟨merged, stacked⟩ := s.sameContainers_mergeChildren i
      obtain ⟨t, inner, inside⟩ := ihBelow (merged.piles deeper) (rest.tops ++ pending)
      obtain ⟨u, outer, further⟩ := ihRest ((merged.trans inside).piles beside) pending
      have moved : mergeRound (s, i :: (rest.tops ++ pending)) =
          some ((s.mergeChildren i).store, below.tops ++ (rest.tops ++ pending)) := by
        rw [mergeRound, normalizeStep, stacked, listed]
      exact ⟨u, Rounds.round moved (inner.append outer), (merged.trans inside).trans further⟩

/-- Normalizing takes up each container once for every place it has in the trees. -/
theorem Unfolds.rounds_normalize {f : Forest NodeId} (unfolded : s.Unfolds f) (i : NodeId)
    (tops : s.children i = f.tops) :
    Rounds (s, if s.isContainer i then [i] else []) (s.pile (.cons i f .nil)).labels
      (s.normalize i, []) := by
  have whole : s.Unfolds (.cons i f .nil) := ⟨tops, unfolded, trivial⟩
  obtain ⟨t, rounds, _⟩ := whole.piles.exists_rounds []
  rw [List.append_nil, tops_pile] at rounds
  have short : (s.pile (.cons i f .nil)).labels.length ≤ s.reach i + 1 := by
    have fewer := s.length_pile_le (.cons i f .nil)
    rw [Forest.labels_single, List.length_cons] at fewer
    have reach := unfolded.reach_eq i tops
    omega
  have looped := rounds.normalizeLoop_eq rfl (s.reach i + 1) short
  rw [normalize]
  cases owner : s.isContainer i with
  | true =>
      simp only [Forest.tops, List.filter_cons, owner, if_true, List.filter_nil,
        List.reverse_singleton] at rounds looped ⊢
      rwa [looped]
  | false =>
      simp only [Forest.tops, List.filter_cons, owner, Bool.false_eq_true, if_false, List.filter_nil,
        List.reverse_nil] at rounds looped ⊢
      have same : s = t := looped
      rwa [← same] at rounds

end Merging

end Store

namespace Content

def hasEndTag : Content → Bool
  | element tag space _ => !Markup.isVoidElement tag space
  | _ => false

end Content

namespace Markup.Walk

variable {s : Store} {escape : Bool} {first last : State} {visits : List Visit}

def Task.isLeave : Task → Bool
  | enter .. => false
  | leave .. => true

def advance (s : Store) (escape : Bool) (w : State) : Option State := (step s escape w).map (·.2)

theorem Runs.halts (runs : Runs s escape first visits last) (ended : last.pending = []) :
    Halts (advance s escape) first := by
  induction runs with
  | rest w =>
      apply halts_of_none
      rw [advance, step, ended]
      rfl
  | round moved _ ih =>
      apply (ih ended).before
      rw [advance, moved]
      rfl

theorem countP_isLeave_tasks (children : List NodeId) (i : NodeId) :
    (tasks children i).countP Task.isLeave = 0 := by
  simp [tasks, List.countP_eq_zero, Task.isLeave]

theorem countP_isLeave_enter (s : Store) (escape : Bool) (i : NodeId) (container : Option NodeId)
    (w : State) : (enter s escape i container w).2.pending.countP Task.isLeave =
      w.pending.countP Task.isLeave + if (s.content i).hasEndTag then 1 else 0 := by
  unfold enter
  cases content : s.content i with
  | element tag space attrs =>
      cases void : isVoidElement tag space <;>
        simp [void, Content.hasEndTag, countP_isLeave_tasks, List.countP_cons, Task.isLeave]
  | _ => simp [Content.hasEndTag, countP_isLeave_tasks]

/-- Every round takes up a node or leaves an element, and elements are left as often as they wait. -/
theorem Runs.length_eq (runs : Runs s escape first visits last) :
    visits.length + last.pending.countP Task.isLeave =
      first.pending.countP Task.isLeave + (entered visits).length +
        (entered visits).countP fun i => (s.content i).hasEndTag := by
  induction runs with
  | rest w => simp [entered]
  | @round raw task pending found next _ visits moved _ ih =>
      cases task with
      | leave tag space =>
          cases moved
          have here : entered (⟨.leave tag space, [.endTag tag space]⟩ :: visits) = entered visits := rfl
          simp only [here, List.length_cons, List.countP_cons, Task.isLeave, if_true] at ih ⊢
          omega
      | enter i container =>
          have stacked := countP_isLeave_enter s escape i container ⟨raw, pending⟩
          simp only [step, Option.some.injEq] at moved
          simp only [moved] at stacked
          have here : entered (⟨.enter i container, found⟩ :: visits) = i :: entered visits := rfl
          simp only [here, List.length_cons, List.countP_cons, Task.isLeave, Bool.false_eq_true,
            if_false]
          omega

theorem countP_isLeave_start (s : Store) (root : NodeId) :
    (start s root).pending.countP Task.isLeave = 0 := by
  rw [start]
  split
  · exact countP_isLeave_tasks _ root
  · rfl

end Markup.Walk

namespace Store

open Markup (tokens)
open Markup.Walk (Runs tokensOf entered)

variable {s : Store}

/-- From a node below which no way goes on for ever, both loops come to an end, whoever lists a node and
how often and whatever it refers to as its parent. Merging takes each container up once for every place
it has in the trees below the node, from the last to the first; what it does to lists that wait does not
change that. The walk takes up what it can reach in order, and every element among it that is not void
once more for its end tag. The functions that run do as many rounds. -/
theorem worklists_end (s : Store) (i : NodeId) (acyclic : s.Acyclic i) :
    ∃ f : Forest NodeId, s.children i = f.tops ∧ s.Unfolds f ∧
      (Halts mergeRound (s, if s.isContainer i then [i] else []) ∧
        Rounds (s, if s.isContainer i then [i] else []) (s.pile (.cons i f .nil)).labels
          (s.normalize i, []) ∧
        (s.Bare (s.flatten i) →
          (s.pile (.cons i f .nil)).labels.Perm ((s.flatten i).filter s.isContainer))) ∧
      ∀ escape, Halts (Markup.Walk.advance s escape) (Markup.Walk.start s i) ∧
        ∃ visits raw, Runs s escape (Markup.Walk.start s i) visits ⟨raw, []⟩ ∧
          tokens s i escape = tokensOf visits ∧
          entered visits = (if s.isContainer i then (s.trimmed f).labels else [i]) ∧
          visits.length = (entered visits).length +
            (entered visits).countP fun j => (s.content j).hasEndTag := by
  obtain ⟨f, tops, unfolded⟩ := s.exists_unfolds i acyclic
  have rounds := unfolded.rounds_normalize i tops
  refine ⟨f, tops, unfolded, ⟨rounds.halts rfl, rounds, ?_⟩, ?_⟩
  · intro bare
    have whole : s.Unfolds (.cons i f .nil) := ⟨tops, unfolded, trivial⟩
    have labels : (Forest.cons i f .nil).labels = s.flatten i := by
      rw [unfolded.flatten_eq i tops, Forest.labels_single]
    have places := whole.pile_perm (by rwa [labels])
    rwa [labels] at places
  · intro escape
    obtain ⟨visits, raw, runs, found, nodes, _⟩ :=
      Markup.exists_walk_spell s escape i f tops unfolded
    refine ⟨runs.halts rfl, visits, raw, runs, ?_, nodes, ?_⟩
    · rw [Markup.tokens_eq_spell s escape i f tops unfolded, found]
    · have counted := runs.length_eq
      simpa [Markup.Walk.countP_isLeave_start] using counted

/-- A division listed twice, a span listed by it and beside it, a text listed twice in a row, another one
below a line break, and parents that fit none of this. -/
def crossedLists : Store where
  nodes := #[
    ⟨.fragment, some 2, [1, 2, 2, 3, 1]⟩, ⟨.text (some "a"), none, []⟩,
    ⟨.element "div" (some htmlNamespace) [], some 2, [4, 4, 3]⟩,
    ⟨.element "span" (some htmlNamespace) [], none, [4, 5]⟩, ⟨.text (some "b"), some 0, []⟩,
    ⟨.element "br" (some htmlNamespace) [], some 3, [1]⟩]

def crossedForest : Forest NodeId :=
  let span (rest : Forest NodeId) : Forest NodeId :=
    .cons 3 (.cons 4 .nil (.cons 5 (.cons 1 .nil .nil) .nil)) rest
  let division (rest : Forest NodeId) : Forest NodeId :=
    .cons 2 (.cons 4 .nil (.cons 4 .nil (span .nil))) rest
  .cons 1 .nil (division (division (span (.cons 1 .nil .nil))))

theorem unfolds_crossedForest : crossedLists.Unfolds crossedForest := by
  simp [crossedLists, crossedForest, Unfolds, children, node, Forest.tops]

theorem worklists_end_crossedLists : crossedLists.Acyclic 0 ∧
    crossedLists.Bare (crossedLists.flatten 0) ∧ Halts mergeRound (crossedLists, [0]) ∧
    Rounds (crossedLists, [0]) [0, 3, 5, 2, 3, 5, 2, 3, 5] (crossedLists.normalize 0, []) ∧
    [0, 3, 5, 2, 3, 5, 2, 3, 5].Perm ((crossedLists.flatten 0).filter crossedLists.isContainer) ∧
    Halts (Markup.Walk.advance crossedLists true) (Markup.Walk.start crossedLists 0) ∧
    ∃ visits raw, Runs crossedLists true (Markup.Walk.start crossedLists 0) visits ⟨raw, []⟩ ∧
      entered visits = [1, 2, 4, 4, 3, 4, 5, 2, 4, 4, 3, 4, 5, 3, 4, 5, 1] ∧
      visits.length = 17 + 5 := by
  have listed : crossedLists.children 0 = crossedForest.tops := rfl
  have whole : crossedLists.Unfolds (.cons 0 crossedForest .nil) :=
    ⟨listed, unfolds_crossedForest, trivial⟩
  have acyclic := whole.acyclic 0 List.mem_cons_self
  have bare : crossedLists.Bare (crossedLists.flatten 0) := by
    rw [Bare]
    decide
  obtain ⟨f, tops, unfolded, ⟨halts, rounds, places⟩, walked⟩ :=
    worklists_end crossedLists 0 acyclic
  obtain rfl := unfolded.unique unfolds_crossedForest (tops.symm.trans listed)
  obtain ⟨walkHalts, visits, raw, runs, _, nodes, length⟩ := walked true
  have taken : (crossedLists.pile (.cons 0 crossedForest .nil)).labels =
      [0, 3, 5, 2, 3, 5, 2, 3, 5] := by decide
  rw [taken] at rounds places
  have nodes : entered visits = [1, 2, 4, 4, 3, 4, 5, 2, 4, 4, 3, 4, 5, 3, 4, 5, 1] :=
    nodes.trans (by decide)
  refine ⟨acyclic, bare, halts, rounds, places bare, walkHalts, visits, raw, runs, nodes, ?_⟩
  rw [length, nodes]
  decide

end Store

end HtmlTree
