import HtmlTree.Dom.Preorder
import HtmlTree.Proofs.Dom.Trees
import Mathlib.Data.List.Nodup
import Mathlib.Data.List.Flatten

/-! The preorder of a node in a well linked store. Each node below has its own preorder as one block
in it, at one place. -/

namespace HtmlTree.Store

variable {s t : Store}

theorem flattenLoop_append (s : Store) (f : Forest NodeId) (unfolded : s.Unfolds f) :
    ∀ (fuel : Nat) (pending done : List NodeId),
      s.flattenLoop (f.labels.length + fuel) (f.tops ++ pending) done =
        s.flattenLoop fuel pending (f.labels.reverse ++ done) := by
  induction f with
  | nil =>
      intro fuel pending done
      rw [Forest.labels, List.length_nil, Nat.zero_add]
      rfl
  | cons i below rest ihBelow ihRest =>
      intro fuel pending done
      have counted : (Forest.cons i below rest).labels.length + fuel =
          (below.labels.length + (rest.labels.length + fuel)) + 1 := by
        simp [Forest.labels]
        omega
      rw [counted, Forest.tops, List.cons_append, flattenLoop, unfolded.1, ihBelow unfolded.2.1,
        ihRest unfolded.2.2, Forest.labels]
      simp

theorem Unfolds.flatten_eq {f : Forest NodeId} (unfolded : s.Unfolds f) (i : NodeId)
    (tops : s.children i = f.tops) : s.flatten i = i :: f.labels := by
  have whole : s.Unfolds (.cons i f .nil) := ⟨tops, unfolded, trivial⟩
  have looped := s.flattenLoop_append _ whole 1 [] []
  have fuel : s.reach i + 1 = (Forest.cons i f .nil).labels.length + 1 := by
    rw [unfolded.reach_eq i tops, Forest.labels_single, List.length_cons]
    omega
  calc
    s.flatten i = s.flattenLoop ((Forest.cons i f .nil).labels.length + 1)
        ((Forest.cons i f .nil).tops ++ []) [] := by
      rw [flatten, fuel]
      rfl
    _ = i :: f.labels := by
      rw [looped]
      simp [flattenLoop, Forest.labels]

/-- A node and then, child by child, all that is below it. -/
theorem Acyclic.flatten_eq {i : NodeId} (acyclic : s.Acyclic i) :
    s.flatten i = i :: (s.children i).flatMap s.flatten := by
  obtain ⟨f, tops, unfolded⟩ := s.exists_unfolds i acyclic
  have blocks : f.labels = f.trees.flatMap fun u => s.flatten u.1 := by
    rw [Forest.labels_eq]
    apply List.flatMap_congr
    intro u member
    obtain ⟨below, deeper⟩ := unfolded.of_mem_trees u member
    exact (deeper.flatten_eq u.1 below).symm
  rw [unfolded.flatten_eq i tops, blocks, tops, Forest.tops_eq, List.flatMap_map]

namespace WellLinked

theorem acyclic_down (linked : s.WellLinked) (i : NodeId) : s.Acyclic i := by
  obtain ⟨height, bounded, falls⟩ := exists_height s linked.acyclic
  have lower : ∀ c p, c ∈ s.children p → s.size - height c < s.size - height p := by
    intro c p listed
    have below := falls c p (linked.parent_of_listed p c listed)
    have room := bounded c
    omega
  exact (Subrelation.wf (lower _ _) (measure fun j => s.size - height j).wf).apply i

theorem flatten_eq (linked : s.WellLinked) (i : NodeId) :
    s.flatten i = i :: (s.children i).flatMap s.flatten :=
  (linked.acyclic_down i).flatten_eq

theorem mem_flatten (linked : s.WellLinked) (i j : NodeId) :
    j ∈ s.flatten i ↔ j = i ∨ s.Above i j := by
  constructor
  · intro member
    induction linked.acyclic_down i with
    | intro i _ ih =>
        rw [linked.flatten_eq, List.mem_cons, List.mem_flatMap] at member
        rcases member with here | ⟨c, listed, below⟩
        · exact Or.inl here
        · have edge := linked.parent_of_listed i c listed
          rcases ih c listed below with rfl | above
          · exact Or.inr (Relation.TransGen.single edge)
          · exact Or.inr (Relation.TransGen.head edge above)
  · rintro (rfl | above)
    · rw [linked.flatten_eq]
      exact List.mem_cons_self
    · induction above using Relation.TransGen.head_induction_on with
      | single edge =>
          have listed := linked.mem_children _ _ edge
          rw [linked.flatten_eq, List.mem_cons, List.mem_flatMap]
          refine Or.inr ⟨j, listed, ?_⟩
          rw [linked.flatten_eq]
          exact List.mem_cons_self
      | head edge _ ih =>
          have listed := linked.mem_children _ _ edge
          rw [linked.flatten_eq, List.mem_cons, List.mem_flatMap]
          exact Or.inr ⟨_, listed, ih⟩

theorem comparable (linked : s.WellLinked) {a b i : NodeId} (inA : i ∈ s.flatten a)
    (inB : i ∈ s.flatten b) : b ∈ s.flatten a ∨ a ∈ s.flatten b := by
  have upward : ∀ c, i ∈ s.flatten c →
      Relation.ReflTransGen (fun c p => s.parent c = some p) i c := by
    intro c below
    exact Relation.reflTransGen_swap.mp
      (Relation.reflTransGen_iff_eq_or_transGen.mpr ((linked.mem_flatten c i).mp below))
  have unique : Relator.RightUnique fun c p => s.parent c = some p := by
    intro c p q first second
    exact Option.some.inj (first.symm.trans second)
  have downward : ∀ c d, Relation.ReflTransGen (fun c p => s.parent c = some p) c d →
      c ∈ s.flatten d := by
    intro c d up
    exact (linked.mem_flatten d c).mpr
      (Relation.reflTransGen_iff_eq_or_transGen.mp (Relation.reflTransGen_swap.mp up))
  rcases Relation.ReflTransGen.total_of_right_unique unique (upward a inA) (upward b inB) with up | up
  · exact Or.inr (downward a b up)
  · exact Or.inl (downward b a up)

theorem not_mem_flatten_child (linked : s.WellLinked) {p c : NodeId} (listed : c ∈ s.children p) :
    p ∉ s.flatten c := by
  have edge := linked.parent_of_listed p c listed
  rw [linked.mem_flatten]
  rintro (rfl | above)
  · exact linked.acyclic p (Relation.TransGen.single edge)
  · exact linked.acyclic p (Relation.TransGen.head edge above)

theorem child_unique (linked : s.WellLinked) {p c d i : NodeId} (first : c ∈ s.children p)
    (second : d ∈ s.children p) (inFirst : i ∈ s.flatten c) (inSecond : i ∈ s.flatten d) : c = d := by
  have between : ∀ a b, a ∈ s.children p → b ∈ s.children p → b ∈ s.flatten a → a = b := by
    intro a b firstListed secondListed below
    rcases (linked.mem_flatten a b).mp below with same | above
    · exact same.symm
    · obtain ⟨q, edge, up⟩ := (above_iff s a b).mp above
      rw [linked.parent_of_listed p b secondListed] at edge
      cases edge
      have inside := (linked.mem_flatten a p).mpr up
      exact absurd inside (linked.not_mem_flatten_child firstListed)
  rcases linked.comparable inFirst inSecond with below | below
  · exact between c d first second below
  · exact (between d c second first below).symm

theorem nodup_flatten (linked : s.WellLinked) (i : NodeId) : (s.flatten i).Nodup := by
  induction linked.acyclic_down i with
  | intro i _ ih =>
      rw [linked.flatten_eq, List.nodup_cons, List.nodup_flatMap]
      refine ⟨?_, ih, ?_⟩
      · rw [List.mem_flatMap]
        rintro ⟨c, listed, below⟩
        exact linked.not_mem_flatten_child listed below
      · apply (linked.nodup_children i).imp_of_mem
        intro c d first second different j inFirst inSecond
        exact different (linked.child_unique first second inFirst inSecond)

theorem block_unique (linked : s.WellLinked) {r i : NodeId} {front back front' back' : List NodeId}
    (one : s.flatten r = front ++ s.flatten i ++ back)
    (other : s.flatten r = front' ++ s.flatten i ++ back') : front = front' ∧ back = back' := by
  have distinct := linked.nodup_flatten r
  have same := one.symm.trans other
  have heads := same
  rw [one] at distinct
  simp only [linked.flatten_eq i, List.append_assoc, List.cons_append] at heads distinct
  rw [List.nodup_middle, List.nodup_cons, List.mem_append, not_or] at distinct
  obtain ⟨rfl, _⟩ := (List.append_cons_inj_of_notMem distinct.1.1 distinct.1.2).mp heads
  exact ⟨rfl, by simpa using same⟩

end WellLinked

end HtmlTree.Store
