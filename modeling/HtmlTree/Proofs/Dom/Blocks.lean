import HtmlTree.Proofs.Dom.Calls
import HtmlTree.Proofs.Dom.Preorder

/-! Structural edits on the preorder of a whole tree. Each edit gives one node another list of
children, so each takes one block of the preorder out, or puts one in, and leaves the rest alone. Of two
blocks one is in the other or they have nothing in common, as one node contains the other or not. -/

namespace HtmlTree.Store

variable {s t : Store}

/-- The second store is the first one, but that a node has another list of children, with no node
around it among them. -/
structure Relisted (s t : Store) (p : NodeId) (cs : List NodeId) : Prop where
  before : s.WellLinked
  after : t.WellLinked
  children : ∀ q, t.children q = if q = p then cs else s.children q
  apart : ∀ c ∈ cs, p ∉ s.flatten c

/-- Whatever is a root before or after an edit, other than one, has the preorder it had. -/
def RootsKept (s t : Store) (r : NodeId) : Prop :=
  ∀ q, q ≠ r → s.parent q = none ∨ t.parent q = none → t.flatten q = s.flatten q

namespace Relisted

variable {p : NodeId} {cs : List NodeId}

theorem children_of_ne (edit : Relisted s t p cs) {q : NodeId} (other : q ≠ p) :
    t.children q = s.children q := by
  rw [edit.children, if_neg other]

theorem flatten_outside (edit : Relisted s t p cs) (i : NodeId) (outside : p ∉ s.flatten i) :
    t.flatten i = s.flatten i := by
  induction edit.before.acyclic_down i with
  | intro i _ ih =>
      rw [edit.before.flatten_eq, List.mem_cons, List.mem_flatMap, not_or] at outside
      have below : ∀ c ∈ s.children i, t.flatten c = s.flatten c := fun c listed =>
        ih c listed fun inside => outside.2 ⟨c, listed, inside⟩
      rw [edit.after.flatten_eq, edit.before.flatten_eq, edit.children_of_ne (Ne.symm outside.1),
        List.flatMap_congr below]

theorem flatten_self (edit : Relisted s t p cs) : t.flatten p = p :: cs.flatMap s.flatten := by
  have kept : ∀ c ∈ cs, t.flatten c = s.flatten c := fun c member =>
    edit.flatten_outside c (edit.apart c member)
  rw [edit.after.flatten_eq, edit.children, if_pos rfl, List.flatMap_congr kept]

/-- Around the block of the node, which was one block before, nothing changes. -/
theorem exists_block (edit : Relisted s t p cs) (i : NodeId) (inside : p ∈ s.flatten i) :
    ∃ front back, s.flatten i = front ++ s.flatten p ++ back ∧
      t.flatten i = front ++ t.flatten p ++ back := by
  induction edit.before.acyclic_down i with
  | intro i _ ih =>
      by_cases here : p = i
      · subst here
        exact ⟨[], [], by simp, by simp⟩
      · rw [edit.before.flatten_eq, List.mem_cons, List.mem_flatMap] at inside
        obtain ⟨c, listed, below⟩ := inside.resolve_left here
        obtain ⟨front, back, old, new⟩ := ih c listed below
        obtain ⟨left, right, split⟩ := List.append_of_mem listed
        have distinct := edit.before.nodup_children i
        rw [split, List.nodup_middle, List.nodup_cons, List.mem_append, not_or] at distinct
        have beside : ∀ d ∈ s.children i, d ≠ c → t.flatten d = s.flatten d := by
          intro d other different
          apply edit.flatten_outside
          exact fun also => different (edit.before.child_unique other listed also below)
        have leftKept : ∀ d ∈ left, t.flatten d = s.flatten d := by
          intro d member
          refine beside d (by rw [split]; simp [member]) ?_
          rintro rfl
          exact distinct.1.1 member
        have rightKept : ∀ d ∈ right, t.flatten d = s.flatten d := by
          intro d member
          refine beside d (by rw [split]; simp [member]) ?_
          rintro rfl
          exact distinct.1.2 member
        refine ⟨i :: (left.flatMap s.flatten ++ front), back ++ right.flatMap s.flatten, ?_, ?_⟩
        · rw [edit.before.flatten_eq, split, List.flatMap_append, List.flatMap_cons, old]
          simp
        · rw [edit.after.flatten_eq, edit.children_of_ne (Ne.symm here), split, List.flatMap_append,
            List.flatMap_cons, new, List.flatMap_congr leftKept, List.flatMap_congr rightKept]
          simp

theorem flatten_around (edit : Relisted s t p cs) {r : NodeId} {front back : List NodeId}
    (block : s.flatten r = front ++ s.flatten p ++ back) :
    t.flatten r = front ++ t.flatten p ++ back := by
  have inside : p ∈ s.flatten r := by
    rw [block, edit.before.flatten_eq]
    simp
  obtain ⟨front', back', old, new⟩ := edit.exists_block r inside
  obtain ⟨rfl, rfl⟩ := edit.before.block_unique block old
  exact new

theorem rootsKept (edit : Relisted s t p cs) {r : NodeId} (root : s.parent r = none)
    (inside : p ∈ s.flatten r) : s.RootsKept t r := by
  intro q other free
  apply edit.flatten_outside
  intro also
  have noneAbove : ∀ a b, s.parent b = none → b ∈ s.flatten a → b = a := by
    intro a b detached member
    exact ((edit.before.mem_flatten a b).mp member).resolve_right
      (not_above_of_detached s a b detached)
  have below : q ∈ s.flatten r := by
    rcases edit.before.comparable inside also with below | above
    · exact below
    · exact absurd (noneAbove q r root above).symm other
  rcases free with free | free
  · exact other (noneAbove r q free below)
  · obtain ⟨u, edge, _⟩ := (above_iff s r q).mp
      (((edit.before.mem_flatten r q).mp below).resolve_left other)
    have listed := edit.before.mem_children u q edge
    have elsewhere : u ≠ p := by
      rintro rfl
      exact edit.before.not_mem_flatten_child listed also
    rw [← edit.children_of_ne elsewhere] at listed
    rw [edit.after.parent_of_listed u q listed] at free
    cases free

end Relisted

theorem Insertable.apart (linked : s.WellLinked) {n p : NodeId} (insertable : s.Insertable n p) :
    p ∉ s.flatten n := by
  rw [linked.mem_flatten]
  exact apart_of_insertable linked n p insertable

theorem relisted_link (linked : s.WellLinked) {p n : NodeId} (parentKnown : p < s.size)
    (insertable : s.Insertable n p) (place : List NodeId → List NodeId)
    (perm : (place (s.children p)).Perm (n :: s.children p)) :
    Relisted s (s.link p n place) p (place (s.children p)) := by
  have grafted := grafted_link s p n place parentKnown insertable.1 perm
  refine ⟨linked, linked.graft grafted insertable.2.1 (apart_of_insertable linked n p insertable),
    grafted.children, ?_⟩
  intro c member
  rcases List.mem_cons.mp (perm.mem_iff.mp member) with rfl | old
  · exact insertable.apart linked
  · exact linked.not_mem_flatten_child old

theorem Pruned.relisted (linked : s.WellLinked) {p : NodeId} {kept : List NodeId}
    (pruned : Pruned s t p kept) : Relisted s t p kept :=
  ⟨linked, linked.prune pruned, pruned.children, fun _ member =>
    linked.not_mem_flatten_child (pruned.sublist.subset member)⟩

theorem exists_relisted_remove (linked : s.WellLinked) {o p : NodeId} (edge : s.parent o = some p) :
    ∃ before after, s.children p = before ++ o :: after ∧
      Relisted s (s.remove o) p (before ++ after) ∧ (s.remove o).parent o = none := by
  obtain ⟨k, found⟩ := s.indexOf_of_mem p o (linked.mem_children p o edge)
  obtain ⟨before, after, split, place, _⟩ := s.indexOf_eq_some p o k found
  have pruned := s.pruned_remove linked.traced p o k before after split place
  have removed : s.remove o = (s.setChildren p ((s.children p).eraseIdx k)).setParent o none := by
    simp [remove, edge, found]
  rw [← removed] at pruned
  refine ⟨before, after, split, pruned.relisted linked, ?_⟩
  rw [removed, parent_setParent, size_setChildren, if_pos ⟨rfl, s.lt_size_of_parent o p edge⟩]

theorem exists_relisted_replace (linked : s.WellLinked) {o n p : NodeId}
    (edge : s.parent o = some p) (insertable : s.Insertable n o) :
    ∃ before after t, s.children p = before ++ o :: after ∧ s.replace o n = .done t ∧
      Relisted s t p (before ++ n :: after) ∧ t.parent o = none := by
  obtain ⟨before, after, split, done⟩ := linked.replace_eq o n p edge
  have listed := linked.mem_children p o edge
  have parentKnown := s.lt_size_of_mem_children p o listed
  have oldKnown := s.lt_size_of_parent o p edge
  have different : n ≠ o := by
    rintro rfl
    rw [insertable.2.1] at edge
    cases edge
  rw [if_neg different] at done
  have allowed := apart_of_insertable linked n o insertable
  refine ⟨before, after, _, split, done, ⟨linked, ?_, ?_, ?_⟩, ?_⟩
  · exact linked.replace o n done (Or.inr ⟨insertable.1, insertable.2.1, allowed⟩)
  · intro q
    rw [children_setParent, children_link]
    by_cases here : q = p
    · rw [here, if_pos ⟨rfl, parentKnown⟩, if_pos rfl, split, set_middle]
    · rw [if_neg (fun both => here both.1.symm), if_neg here]
  · intro c member
    rw [List.mem_append, List.mem_cons] at member
    have old : c = n ∨ c ∈ s.children p := by
      rw [split]
      simp
      tauto
    rcases old with rfl | old
    · rw [linked.mem_flatten]
      intro up
      exact allowed (Or.inr ((s.above_iff c o).mpr ⟨p, edge, up⟩))
    · exact linked.not_mem_flatten_child old
  · rw [parent_setParent, size_link, if_pos ⟨rfl, oldKnown⟩]

theorem children_setText (s : Store) {p : NodeId} (known : p < s.size) (value : String)
    (q : NodeId) : (s.setText p value).children q = if q = p then [s.size] else s.children q := by
  simp only [setText, createText, make_fst, append, children_link, children_make, size_make,
    size_setChildren, size_release, children_setChildren, children_release]
  by_cases here : q = p
  · subst here
    simp [known, Nat.lt_succ_of_lt known]
  · simp [here, Ne.symm here]

@[simp] theorem size_setText (s : Store) (p : NodeId) (value : String) :
    (s.setText p value).size = s.size + 1 := by
  simp [setText, createText, append]

theorem content_setText (s : Store) (p : NodeId) (value : String) (i : NodeId) :
    (s.setText p value).content i = if i = s.size then .text (some value) else s.content i := by
  simp [setText, createText, append, content_make]

theorem parent_setText (s : Store) (p : NodeId) (value : String) (i : NodeId) :
    (s.setText p value).parent i = if i = s.size then some p
      else if i ∈ s.children p ∧ s.parent i = some p then none else s.parent i := by
  simp only [setText, createText, make_fst, append, parent_link, parent_make, size_make,
    size_setChildren, size_release, parent_setChildren, parent_release]
  by_cases here : i = s.size
  · simp [here]
  · simp [here, Ne.symm here]

theorem relisted_setText (linked : s.WellLinked) {p : NodeId} (known : p < s.size)
    (value : String) : Relisted s (s.setText p value) p [s.size] := by
  refine ⟨linked, linked.setText p value known, children_setText s known value, ?_⟩
  intro c member
  rw [List.mem_singleton.mp member, linked.flatten_eq, s.children_of_size]
  simpa using Nat.ne_of_lt known

/-- The block of a child gives way to those of other nodes. -/
theorem Relisted.flatten_exchange {o p r : NodeId} {before new after front back : List NodeId}
    (edit : Relisted s t p (before ++ new ++ after)) (split : s.children p = before ++ o :: after)
    (inside : p ∈ s.flatten r) (block : s.flatten r = front ++ s.flatten o ++ back) :
    t.flatten r = front ++ new.flatMap s.flatten ++ back := by
  obtain ⟨outer, rest, old, now⟩ := edit.exists_block r inside
  have apart : s.flatten r = (outer ++ p :: before.flatMap s.flatten) ++ s.flatten o ++
      (after.flatMap s.flatten ++ rest) := by
    rw [old, edit.before.flatten_eq p, split]
    simp
  obtain ⟨rfl, rfl⟩ := edit.before.block_unique block apart
  rw [now, edit.flatten_self]
  simp

theorem WellLinked.exists_parent_inside (linked : s.WellLinked) {r o : NodeId}
    {front back : List NodeId} (other : o ≠ r) (block : s.flatten r = front ++ s.flatten o ++ back) :
    ∃ p, s.parent o = some p ∧ p ∈ s.flatten r := by
  have inside : o ∈ s.flatten r := by
    rw [block, linked.flatten_eq o]
    simp
  obtain ⟨p, edge, up⟩ := (s.above_iff r o).mp
    (((linked.mem_flatten r o).mp inside).resolve_left other)
  exact ⟨p, edge, (linked.mem_flatten r p).mpr up⟩

section Blocks

variable {r o p : NodeId} {front back : List NodeId}

theorem WellLinked.exists_block (linked : s.WellLinked) {i : NodeId} (inside : i ∈ s.flatten r) :
    ∃ front back, s.flatten r = front ++ s.flatten i ++ back := by
  have unchanged : Relisted s s i (s.children i) :=
    ⟨linked, linked, fun q => by split <;> simp_all, fun c => linked.not_mem_flatten_child⟩
  obtain ⟨front, back, block, _⟩ := unchanged.exists_block r inside
  exact ⟨front, back, block⟩

theorem WellLinked.mem_of_block (linked : s.WellLinked)
    (block : s.flatten r = front ++ s.flatten p ++ back) : p ∈ s.flatten r := by
  rw [block, linked.flatten_eq p]
  simp

theorem WellLinked.flatten_removed (linked : s.WellLinked) (root : s.parent r = none) (other : o ≠ r)
    (block : s.flatten r = front ++ s.flatten o ++ back) :
    (s.remove o).flatten r = front ++ back ∧ (s.remove o).parent o = none ∧
      s.RootsKept (s.remove o) r := by
  obtain ⟨p, edge, inside⟩ := linked.exists_parent_inside other block
  obtain ⟨before, after, split, edit, free⟩ := exists_relisted_remove linked edge
  refine ⟨?_, free, edit.rootsKept root inside⟩
  rw [← List.append_nil before] at edit
  simpa using edit.flatten_exchange split inside block

theorem WellLinked.exists_flatten_replaced (linked : s.WellLinked) (root : s.parent r = none)
    (other : o ≠ r) (block : s.flatten r = front ++ s.flatten o ++ back) {n : NodeId}
    (insertable : s.Insertable n o) :
    ∃ t, s.replace o n = .done t ∧ t.flatten r = front ++ s.flatten n ++ back ∧
      t.parent o = none ∧ s.RootsKept t r := by
  obtain ⟨p, edge, inside⟩ := linked.exists_parent_inside other block
  obtain ⟨before, after, t, split, done, edit, free⟩ :=
    exists_relisted_replace linked edge insertable
  refine ⟨t, done, ?_, free, edit.rootsKept root inside⟩
  rw [List.append_cons] at edit
  simpa using edit.flatten_exchange split inside block

theorem WellLinked.flatten_appended (linked : s.WellLinked) (root : s.parent r = none)
    (known : p < s.size) (block : s.flatten r = front ++ s.flatten p ++ back) {n : NodeId}
    (insertable : s.Insertable n p) :
    (s.append p n).flatten r = front ++ s.flatten p ++ s.flatten n ++ back ∧
      s.RootsKept (s.append p n) r := by
  have behind : Relisted s (s.append p n) p (s.children p ++ [n]) :=
    relisted_link linked known insertable _ (List.perm_append_singleton n _)
  refine ⟨?_, behind.rootsKept root (linked.mem_of_block block)⟩
  rw [behind.flatten_around block, behind.flatten_self, linked.flatten_eq p]
  simp

theorem WellLinked.flatten_prepended (linked : s.WellLinked) (root : s.parent r = none)
    (known : p < s.size) (block : s.flatten r = front ++ s.flatten p ++ back) {n : NodeId}
    (insertable : s.Insertable n p) :
    (s.prepend p n).flatten r = front ++ [p] ++ s.flatten n ++ (s.flatten p).tail ++ back ∧
      s.RootsKept (s.prepend p n) r := by
  have first : Relisted s (s.prepend p n) p (n :: s.children p) :=
    relisted_link linked known insertable _ (List.Perm.refl _)
  refine ⟨?_, first.rootsKept root (linked.mem_of_block block)⟩
  rw [first.flatten_around block, first.flatten_self, linked.flatten_eq p]
  simp

theorem WellLinked.flatten_retexted (linked : s.WellLinked) (root : s.parent r = none)
    (known : p < s.size) (block : s.flatten r = front ++ s.flatten p ++ back) (value : String) :
    (s.setText p value).flatten r = front ++ [p, s.size] ++ back ∧
      s.RootsKept (s.setText p value) r := by
  have edit := relisted_setText linked known value
  have single : s.flatten s.size = [s.size] := by
    rw [linked.flatten_eq, s.children_of_size]
    rfl
  refine ⟨?_, edit.rootsKept root (linked.mem_of_block block)⟩
  rw [edit.flatten_around block, edit.flatten_self]
  simp [single]

theorem WellLinked.parent_retexted (linked : s.WellLinked) (value : String) {c : NodeId}
    (listed : c ∈ s.children p) : (s.setText p value).parent c = none := by
  have edge := linked.parent_of_listed p c listed
  have old := s.lt_size_of_parent c p edge
  rw [parent_setText, if_neg (Nat.ne_of_lt old), if_pos ⟨listed, edge⟩]

end Blocks

/-- Every node below a root has its preorder as a block in the root's. Taking a node out takes its
block out, and a replacement puts the other node's block there; what is appended or prepended comes
as a block behind the node's own or right behind the node, and a new text takes the place of all
below it. No other root's preorder changes, neither that of a tree elsewhere nor that of what was
detached. -/
theorem blocks_of_edits (s : Store) (linked : s.WellLinked) (r : NodeId) (root : s.parent r = none) :
    (∀ i ∈ s.flatten r, ∃ front back, s.flatten r = front ++ s.flatten i ++ back) ∧
    (∀ o front back, o ≠ r → s.flatten r = front ++ s.flatten o ++ back →
      (∃ t, Operand.removeFrom s (.node o) = .ok (o, t) ∧ t.flatten r = front ++ back ∧
        t.parent o = none ∧ s.RootsKept t r) ∧
      ∀ n, s.Insertable n o → ∃ t,
        Operand.replaceBy s (.node o) (.node n) = .ok ⟨(some n, t), []⟩ ∧
        t.flatten r = front ++ s.flatten n ++ back ∧ t.parent o = none ∧ s.RootsKept t r) ∧
    ∀ p front back, s.isContainer p = true → s.flatten r = front ++ s.flatten p ++ back →
      (∀ n, s.Insertable n p →
        (∃ t, Operand.appendTo s (.node p) (.node n) = .ok (n, t) ∧
          t.flatten r = front ++ s.flatten p ++ s.flatten n ++ back ∧ s.RootsKept t r) ∧
        ∃ t, Operand.prependTo s (.node p) (.node n) = .ok (n, t) ∧
          t.flatten r = front ++ [p] ++ s.flatten n ++ (s.flatten p).tail ++ back ∧
          s.RootsKept t r) ∧
      ∀ value, ∃ t, Operand.setText s (.node p) (some value) = .ok (p, t) ∧
        t.flatten r = front ++ [p, s.size] ++ back ∧ t.content s.size = .text (some value) ∧
        (∀ c ∈ s.children p, t.parent c = none) ∧ s.RootsKept t r := by
  refine ⟨fun i inside => linked.exists_block inside, ?_, ?_⟩
  · intro o front back other block
    obtain ⟨taken, free, kept⟩ := linked.flatten_removed root other block
    refine ⟨⟨s.remove o, rfl, taken, free, kept⟩, ?_⟩
    intro n insertable
    obtain ⟨t, done, exchanged⟩ := linked.exists_flatten_replaced root other block insertable
    refine ⟨t, ?_, exchanged⟩
    simp [Operand.replaceBy, Operand.linked, Operand.node?, done, bind, Except.bind, pure,
      Except.pure]
  · intro p front back container block
    have known := s.lt_size_of_isContainer p container
    refine ⟨fun n insertable => ⟨⟨s.append p n, ?_, linked.flatten_appended root known block insertable⟩,
      ⟨s.prepend p n, ?_, linked.flatten_prepended root known block insertable⟩⟩, fun value => ?_⟩
    · simp [Operand.appendTo, Operand.container, container, Operand.linked, bind, Except.bind, pure,
        Except.pure]
    · simp [Operand.prependTo, Operand.container, container, Operand.linked, bind, Except.bind, pure,
        Except.pure]
    · obtain ⟨short, kept⟩ := linked.flatten_retexted root known block value
      refine ⟨s.setText p value, ?_, short, (s.content_setText p value _).trans (if_pos rfl),
        fun c listed => linked.parent_retexted value listed, kept⟩
      simp [Operand.setText, Operand.container, container]

def twoEntries : Store :=
  let list := (empty.make (.element "ul" (some htmlNamespace) [])).2
  let first := (list.make (.element "li" (some htmlNamespace) [])).2.append 0 list.size
  let filled := (first.make (.text (some "one"))).2.append 1 first.size
  let second := (filled.make (.element "li" (some htmlNamespace) [])).2.append 0 filled.size
  (second.make (.element "hr" (some htmlNamespace) [])).2

theorem wellLinked_twoEntries : twoEntries.WellLinked := by
  refine WellLinked.make (WellLinked.append_make (WellLinked.append_make (WellLinked.append_make
    (wellLinked_empty.make _) 0 _ ?_) 1 _ ?_) 0 _ ?_) _
  all_goals decide

theorem blocks_of_edits_twoEntries : twoEntries.WellLinked ∧ twoEntries.parent 0 = none ∧
    (1 ≠ 0 ∧ twoEntries.flatten 0 = [0] ++ twoEntries.flatten 1 ++ [3]) ∧
    twoEntries.Insertable 4 1 ∧ twoEntries.isContainer 1 = true ∧
    (∃ t, Operand.removeFrom twoEntries (.node 1) = .ok (1, t) ∧ t.flatten 0 = [0, 3]) ∧
    (∃ t, Operand.replaceBy twoEntries (.node 1) (.node 4) = .ok ⟨(some 4, t), []⟩ ∧
      t.flatten 0 = [0, 4, 3]) ∧
    (∃ t, Operand.appendTo twoEntries (.node 1) (.node 4) = .ok (4, t) ∧
      t.flatten 0 = [0, 1, 2, 4, 3]) ∧
    (∃ t, Operand.prependTo twoEntries (.node 1) (.node 4) = .ok (4, t) ∧
      t.flatten 0 = [0, 1, 4, 2, 3]) ∧
    ∃ t, Operand.setText twoEntries (.node 1) (some "two") = .ok (1, t) ∧
      t.flatten 0 = [0, 1, 5, 3] := by
  have root : twoEntries.parent 0 = none := by decide
  have block : twoEntries.flatten 0 = [0] ++ twoEntries.flatten 1 ++ [3] := by decide
  have insertable : twoEntries.Insertable 4 1 := ⟨by decide, by decide, by decide⟩
  have container : twoEntries.isContainer 1 = true := by decide
  obtain ⟨_, out, inside⟩ := blocks_of_edits twoEntries wellLinked_twoEntries 0 root
  obtain ⟨⟨removed, done, taken, _⟩, other⟩ := out 1 [0] [3] (by decide) block
  obtain ⟨replaced, done', exchanged, _⟩ := other 4 insertable
  obtain ⟨put, texts⟩ := inside 1 [0] [3] container block
  obtain ⟨⟨longer, appended, behind, _⟩, ⟨wider, prepended, first, _⟩⟩ := put 4 insertable
  obtain ⟨retexted, set, short, _⟩ := texts "two"
  refine ⟨wellLinked_twoEntries, root, ⟨by decide, block⟩, insertable, container,
    ⟨removed, done, taken⟩, ⟨replaced, done', exchanged.trans ?_⟩,
    ⟨longer, appended, behind.trans ?_⟩, ⟨wider, prepended, first.trans ?_⟩,
    ⟨retexted, set, short.trans ?_⟩⟩
  all_goals decide

/-- What a node contains, found by following references up, is what its preorder lists, found by
following lists of children down. Each node is listed once, and two preorders have a node in common
just if one of the two nodes contains the other. -/
theorem contains_iff_mem_flatten (s : Store) (linked : s.WellLinked) (a b : NodeId) :
    (s.contains a b = true ↔ b ∈ s.flatten a) ∧ (s.flatten a).Nodup ∧
      ((s.flatten a).Disjoint (s.flatten b) ↔ s.contains a b = false ∧ s.contains b a = false) := by
  have inside : ∀ c d, s.contains c d = true ↔ d ∈ s.flatten c := by
    intro c d
    rw [contains_iff s linked.acyclic, linked.mem_flatten]
  have self : ∀ c, c ∈ s.flatten c := by
    intro c
    rw [linked.flatten_eq]
    exact List.mem_cons_self
  refine ⟨inside a b, linked.nodup_flatten a, ?_⟩
  rw [← Bool.not_eq_true, ← Bool.not_eq_true, inside, inside]
  constructor
  · intro apart
    constructor
    · intro below
      exact apart below (self b)
    · intro above
      exact apart (self a) above
  · intro outside i inFirst inSecond
    rcases linked.comparable inFirst inSecond with below | above
    · exact outside.1 below
    · exact outside.2 above

theorem contains_twoEntries : twoEntries.WellLinked ∧
    (2 ∈ twoEntries.flatten 0 ∧ twoEntries.contains 0 2 = true) ∧ (twoEntries.flatten 0).Nodup ∧
    (twoEntries.contains 1 3 = false ∧ twoEntries.contains 3 1 = false) ∧
    (twoEntries.flatten 1).Disjoint (twoEntries.flatten 3) := by
  have below : 2 ∈ twoEntries.flatten 0 := by decide
  have beside : twoEntries.contains 1 3 = false ∧ twoEntries.contains 3 1 = false := by decide
  obtain ⟨inside, distinct, _⟩ := contains_iff_mem_flatten twoEntries wellLinked_twoEntries 0 2
  obtain ⟨_, _, apart⟩ := contains_iff_mem_flatten twoEntries wellLinked_twoEntries 1 3
  exact ⟨wellLinked_twoEntries, ⟨below, inside.mpr below⟩, distinct, beside, apart.mpr beside⟩

end HtmlTree.Store
