import HtmlTree.Proofs.Dom.Linked
import HtmlTree.Proofs.Forest

/-! The trees below a node of a store, written out in full. A node that is listed several times is
written out each time; a node on a cycle has no such trees. -/

namespace HtmlTree.Store

/-- The forest follows the lists of children down to where they end. -/
def Unfolds (s : Store) : Forest NodeId → Prop
  | .nil => True
  | .cons i below rest => s.children i = below.tops ∧ s.Unfolds below ∧ s.Unfolds rest

/-- Every top of the forest has this parent, and every other node in it the one it stands under. -/
def LinkedTo (s : Store) (p : Option NodeId) : Forest NodeId → Prop
  | .nil => True
  | .cons i below rest => s.parent i = p ∧ s.LinkedTo (some i) below ∧ s.LinkedTo p rest

/-- Whatever owns no children lists none. -/
def Bare (s : Store) (nodes : List NodeId) : Prop :=
  ∀ i ∈ nodes, s.isContainer i = false → s.children i = []

/-- No way down from the node goes on for ever. -/
def Acyclic (s : Store) : NodeId → Prop := Acc fun c p => c ∈ s.children p

theorem unfolds_ofTrees (s : Store) (us : List (NodeId × Forest NodeId)) :
    s.Unfolds (.ofTrees us) ↔ ∀ u ∈ us, s.children u.1 = u.2.tops ∧ s.Unfolds u.2 := by
  induction us with
  | nil => simp [Forest.ofTrees, Unfolds]
  | cons u us ih =>
      rw [Forest.ofTrees, Unfolds, ih, List.forall_mem_cons]
      constructor
      · rintro ⟨listed, below, rest⟩
        exact ⟨⟨listed, below⟩, rest⟩
      · rintro ⟨⟨listed, below⟩, rest⟩
        exact ⟨listed, below, rest⟩

theorem Unfolds.of_mem_trees {s : Store} {f : Forest NodeId} (unfolded : s.Unfolds f)
    (u : NodeId × Forest NodeId) (member : u ∈ f.trees) :
    s.children u.1 = u.2.tops ∧ s.Unfolds u.2 := by
  induction f with
  | nil => cases member
  | cons i below rest _ ih =>
      rcases List.mem_cons.mp member with rfl | member
      · exact ⟨unfolded.1, unfolded.2.1⟩
      · exact ih unfolded.2.2 member

/-- There is one way only to write out what is below a list of nodes. -/
theorem Unfolds.unique {s : Store} {f g : Forest NodeId} (left : s.Unfolds f) (right : s.Unfolds g)
    (tops : f.tops = g.tops) : f = g := by
  induction f generalizing g with
  | nil =>
      cases g with
      | nil => rfl
      | cons i below rest => cases tops
  | cons i below rest ihBelow ihRest =>
      cases g with
      | nil => cases tops
      | cons j below' rest' =>
          rw [Forest.tops, Forest.tops, List.cons.injEq] at tops
          obtain ⟨rfl, tops⟩ := tops
          have same := ihBelow left.2.1 right.2.1 (left.1.symm.trans right.1)
          rw [same, ihRest left.2.2 right.2.2 tops]

theorem Unfolds.congr {s t : Store} {f : Forest NodeId} (unfolded : s.Unfolds f)
    (children : ∀ i ∈ f.labels, t.children i = s.children i) : t.Unfolds f := by
  induction f with
  | nil => trivial
  | cons i below rest ihBelow ihRest =>
      refine ⟨?_, ihBelow unfolded.2.1 ?_, ihRest unfolded.2.2 ?_⟩
      · rw [children i List.mem_cons_self]
        exact unfolded.1
      · intro j member
        exact children j (List.mem_cons_of_mem _ (List.mem_append_left _ member))
      · intro j member
        exact children j (List.mem_cons_of_mem _ (List.mem_append_right _ member))

theorem Unfolds.children_subset {s : Store} {f : Forest NodeId} (unfolded : s.Unfolds f)
    (p c : NodeId) (inside : p ∈ f.labels) (listed : c ∈ s.children p) : c ∈ f.labels := by
  induction f with
  | nil => cases inside
  | cons i below rest ihBelow ihRest =>
      rw [Forest.labels, List.mem_cons, List.mem_append] at inside ⊢
      rcases inside with rfl | inside | inside
      · rw [unfolded.1] at listed
        exact Or.inr (Or.inl (below.mem_labels_of_mem_tops c listed))
      · exact Or.inr (Or.inl (ihBelow unfolded.2.1 inside))
      · exact Or.inr (Or.inr (ihRest unfolded.2.2 inside))

theorem Unfolds.exists_subtree {s : Store} {f : Forest NodeId} (unfolded : s.Unfolds f) (i : NodeId)
    (inside : i ∈ f.labels) : ∃ below : Forest NodeId, s.children i = below.tops ∧
      s.Unfolds below ∧ (i :: below.labels).Sublist f.labels := by
  induction f with
  | nil => cases inside
  | cons j below rest ihBelow ihRest =>
      rw [Forest.labels, List.mem_cons, List.mem_append] at inside
      rcases inside with rfl | inside | inside
      · exact ⟨below, unfolded.1, unfolded.2.1, (List.sublist_append_left _ _).cons_cons i⟩
      · obtain ⟨deeper, tops, unfolds, sublist⟩ := ihBelow unfolded.2.1 inside
        exact ⟨deeper, tops, unfolds, (sublist.trans (List.sublist_append_left _ _)).cons j⟩
      · obtain ⟨deeper, tops, unfolds, sublist⟩ := ihRest unfolded.2.2 inside
        exact ⟨deeper, tops, unfolds, (sublist.trans (List.sublist_append_right _ _)).cons j⟩

theorem Unfolds.linkedTo_iff {s : Store} {f : Forest NodeId} (unfolded : s.Unfolds f)
    (p : Option NodeId) :
    s.LinkedTo p f ↔ (∀ c ∈ f.tops, s.parent c = p) ∧
      ∀ q ∈ f.labels, ∀ c ∈ s.children q, s.parent c = some q := by
  induction f generalizing p with
  | nil => simp [LinkedTo, Forest.tops, Forest.labels]
  | cons i below rest ihBelow ihRest =>
      simp only [LinkedTo, Forest.tops, Forest.labels, List.forall_mem_cons,
        List.forall_mem_append, ihBelow unfolded.2.1, ihRest unfolded.2.2, unfolded.1]
      constructor
      · rintro ⟨top, ⟨listed, deeper⟩, tops, beside⟩
        exact ⟨⟨top, tops⟩, listed, deeper, beside⟩
      · rintro ⟨⟨top, tops⟩, listed, deeper, beside⟩
        exact ⟨top, ⟨listed, deeper⟩, tops, beside⟩

/-- Every node of the forest is a top or is listed by one of its nodes, as often as it occurs. -/
theorem Unfolds.labels_perm {s : Store} {f : Forest NodeId} (unfolded : s.Unfolds f) :
    f.labels.Perm (f.tops ++ f.labels.flatMap s.children) := by
  induction f with
  | nil => exact List.Perm.refl []
  | cons i below rest ihBelow ihRest =>
      rw [Forest.labels, Forest.tops, List.flatMap_cons, List.flatMap_append, unfolded.1,
        List.cons_append]
      apply List.Perm.cons
      calc
        (below.labels ++ rest.labels).Perm
            ((below.tops ++ below.labels.flatMap s.children) ++
              (rest.tops ++ rest.labels.flatMap s.children)) :=
          (ihBelow unfolded.2.1).append (ihRest unfolded.2.2)
        List.Perm _ (rest.tops ++ ((below.tops ++ below.labels.flatMap s.children) ++
            rest.labels.flatMap s.children)) :=
          List.perm_append_comm_assoc _ _ _
        _ = rest.tops ++ (below.tops ++ (below.labels.flatMap s.children ++
            rest.labels.flatMap s.children)) := by
          rw [List.append_assoc]

theorem Unfolds.acyclic {s : Store} {f : Forest NodeId} (unfolded : s.Unfolds f) (i : NodeId)
    (inside : i ∈ f.labels) : s.Acyclic i := by
  induction f generalizing i with
  | nil => cases inside
  | cons j below rest ihBelow ihRest =>
      rw [Forest.labels, List.mem_cons, List.mem_append] at inside
      rcases inside with rfl | inside | inside
      · apply Acc.intro
        intro c listed
        rw [unfolded.1] at listed
        exact ihBelow unfolded.2.1 c (below.mem_labels_of_mem_tops c listed)
      · exact ihBelow unfolded.2.1 i inside
      · exact ihRest unfolded.2.2 i inside

theorem exists_unfolds (s : Store) (i : NodeId) (acyclic : s.Acyclic i) :
    ∃ f : Forest NodeId, s.children i = f.tops ∧ s.Unfolds f := by
  induction acyclic with
  | intro i _ ih =>
      have written : ∀ cs : List NodeId, (∀ c ∈ cs, c ∈ s.children i) →
          ∃ f : Forest NodeId, cs = f.tops ∧ s.Unfolds f := by
        intro cs
        induction cs with
        | nil => exact fun _ => ⟨.nil, rfl, trivial⟩
        | cons c cs ihRest =>
            intro listed
            obtain ⟨below, belowTops, belowUnfolded⟩ := ih c (listed c List.mem_cons_self)
            obtain ⟨rest, restTops, restUnfolded⟩ :=
              ihRest fun d member => listed d (List.mem_cons_of_mem c member)
            refine ⟨.cons c below rest, ?_, belowTops, belowUnfolded, restUnfolded⟩
            rw [Forest.tops, ← restTops]
      exact written (s.children i) fun c listed => listed

theorem Acyclic.no_cycle {s : Store} {i : NodeId} (acyclic : s.Acyclic i) :
    ¬ Relation.TransGen (fun p c => c ∈ s.children p) i i := by
  induction acyclic with
  | intro i _ ih =>
      intro cycle
      obtain ⟨c, edge, back⟩ := Relation.TransGen.head'_iff.mp cycle
      exact ih c edge (Relation.TransGen.tail' back edge)

/-- Below an acyclic node some number goes down with every step, and it is at most as great as the
store. -/
theorem Unfolds.exists_rank {s : Store} {f : Forest NodeId} (unfolded : s.Unfolds f) :
    ∃ rank : NodeId → Nat, (∀ i, rank i ≤ s.size) ∧
      ∀ p ∈ f.labels, ∀ c ∈ s.children p, rank c < rank p := by
  obtain ⟨rank, bounded, falls⟩ := Store.exists_rank s.size
    (fun p c => p ∈ f.labels ∧ c ∈ s.children p)
    (fun p c edge => lt_size_of_mem_children s p c edge.2) (by
      intro i cycle
      obtain ⟨_, edge, _⟩ := Relation.TransGen.head'_iff.mp cycle
      refine (unfolded.acyclic i edge.1).no_cycle (Relation.TransGen.mono ?_ i i cycle)
      intro p c step
      exact step.2)
  exact ⟨rank, bounded, fun p inside c listed => falls p c ⟨inside, listed⟩⟩

theorem Unfolds.depth_le {s : Store} {f : Forest NodeId} (unfolded : s.Unfolds f)
    (rank : NodeId → Nat) (falls : ∀ p ∈ f.labels, ∀ c ∈ s.children p, rank c < rank p) (d : Nat)
    (low : ∀ i ∈ f.tops, rank i ≤ d) : f.depth ≤ d + 1 := by
  induction f generalizing d with
  | nil => exact Nat.zero_le _
  | cons i below rest ihBelow ihRest =>
      have topLow := low i List.mem_cons_self
      have restLow := ihRest unfolded.2.2
        (fun p inside => falls p (List.mem_cons_of_mem _ (List.mem_append_right _ inside))) d
        (fun j top => low j (List.mem_cons_of_mem i top))
      have belowFalls : ∀ p ∈ below.labels, ∀ c ∈ s.children p, rank c < rank p :=
        fun p inside => falls p (List.mem_cons_of_mem _ (List.mem_append_left _ inside))
      have belowLow : below.depth ≤ d := by
        cases below with
        | nil => exact Nat.zero_le d
        | cons j deeper beside =>
            have smaller : ∀ c ∈ (Forest.cons j deeper beside).tops, rank c < rank i := by
              intro c top
              rw [← unfolded.1] at top
              exact falls i List.mem_cons_self c top
            have positive := smaller j List.mem_cons_self
            obtain ⟨e, rfl⟩ : ∃ e, d = e + 1 := ⟨d - 1, by omega⟩
            apply ihBelow unfolded.2.1 belowFalls
            intro c top
            have lower := smaller c top
            omega
      rw [Forest.depth]
      omega

theorem Unfolds.sum_extent {s : Store} {f : Forest NodeId} (unfolded : s.Unfolds f) (d : Nat)
    (deep : f.depth ≤ d + 1) :
    (f.tops.map (s.extent d)).foldr (· + ·) 0 = f.labels.length := by
  induction f generalizing d with
  | nil => rfl
  | cons i below rest ihBelow ihRest =>
      rw [Forest.depth] at deep
      have here : s.extent d i = 1 + below.labels.length := by
        cases d with
        | zero =>
            have flat : below = .nil := by
              cases below with
              | nil => rfl
              | cons j deeper beside =>
                  rw [Forest.depth] at deep
                  omega
            rw [flat]
            rfl
        | succ d =>
            rw [extent, unfolded.1, ihBelow unfolded.2.1 d (by omega)]
      rw [Forest.tops, Forest.labels, List.map_cons, List.foldr_cons, List.length_cons,
        List.length_append, here, ihRest unfolded.2.2 d (by omega)]
      omega

/-- The reach of a node is the number of places in the trees at and below it. -/
theorem Unfolds.reach_eq {s : Store} {f : Forest NodeId} (unfolded : s.Unfolds f) (i : NodeId)
    (tops : s.children i = f.tops) : s.reach i = 1 + f.labels.length := by
  have whole : s.Unfolds (.cons i f .nil) := ⟨tops, unfolded, trivial⟩
  obtain ⟨rank, bounded, falls⟩ := whole.exists_rank
  have deep := whole.depth_le rank falls s.size fun j _ => bounded j
  have counted := whole.sum_extent s.size deep
  simp only [Forest.tops, Forest.labels, List.map_cons, List.map_nil, List.foldr_cons, List.foldr_nil,
    List.append_nil, List.length_cons] at counted
  rw [reach]
  omega

theorem Unfolds.depth_le_size {s : Store} {f : Forest NodeId} (unfolded : s.Unfolds f) (i : NodeId)
    (tops : s.children i = f.tops) : f.depth ≤ s.size := by
  have whole : s.Unfolds (.cons i f .nil) := ⟨tops, unfolded, trivial⟩
  obtain ⟨rank, bounded, falls⟩ := whole.exists_rank
  have deep := whole.depth_le rank falls s.size fun j _ => bounded j
  rw [Forest.depth] at deep
  omega

theorem Unfolds.all_sameTree {s : Store} {f : Forest NodeId} (left : s.Unfolds f) :
    ∀ (g : Forest NodeId) (depth : Nat), s.Unfolds g → f.map s.content = g.map s.content →
      f.depth ≤ depth → f.tops.length = g.tops.length ∧
        ((f.tops.zip g.tops).all fun pair => s.sameTree depth pair.1 pair.2) = true := by
  induction f with
  | nil =>
      intro g depth _ same _
      cases g with
      | nil => exact ⟨rfl, rfl⟩
      | cons j below rest => cases same
  | cons i below rest ihBelow ihRest =>
      intro g depth right same deep
      obtain ⟨j, below', rest', rfl, content, belowSame, restSame⟩ := Forest.map_eq_cons same.symm
      rw [Forest.depth] at deep
      obtain ⟨d, rfl⟩ : ∃ d, depth = d + 1 := ⟨depth - 1, by omega⟩
      obtain ⟨short, beside⟩ := ihRest left.2.2 rest' (d + 1) right.2.2 restSame.symm (by omega)
      obtain ⟨few, inside⟩ := ihBelow left.2.1 below' d right.2.1 belowSame.symm (by omega)
      have here : s.sameTree (d + 1) i j = true := by
        rw [sameTree, content, left.1, right.1, few, inside]
        simp only [beq_self_eq_true, Bool.and_self]
      refine ⟨congrArg Nat.succ short, ?_⟩
      rw [Forest.tops, Forest.tops, List.zip_cons_cons, List.all_cons, here, beside, Bool.and_self]

theorem isEqualNode_of_map_eq {s : Store} {a b : NodeId} {f g : Forest NodeId}
    (content : s.content a = s.content b) (left : s.Unfolds f) (right : s.Unfolds g)
    (tops : s.children a = f.tops) (tops' : s.children b = g.tops)
    (same : f.map s.content = g.map s.content) : s.isEqualNode a b = true := by
  obtain ⟨few, inside⟩ := left.all_sameTree g s.size right same (left.depth_le_size a tops)
  rw [isEqualNode, sameTree, content, tops, tops', few, inside]
  simp only [beq_self_eq_true, Bool.and_self]

end HtmlTree.Store
