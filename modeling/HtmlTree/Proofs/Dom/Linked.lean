import HtmlTree.Dom.Compare
import HtmlTree.Proofs.Dom.Store
import Mathlib.Data.Finset.Card
import Mathlib.Data.Finset.Range
import Mathlib.Data.List.Count
import Mathlib.Logic.Relation

/-! Stores in which lists of children and references to parents agree. Every edit of such a store is
made of two kinds of step: a list loses some of its children, which are detached, or a detached node
enters a list. Both keep the two sides in agreement. -/

namespace HtmlTree.Store

def Above (s : Store) : NodeId → NodeId → Prop :=
  Relation.TransGen fun p c => s.parent c = some p

structure WellLinked (s : Store) : Prop where
  /-- Whoever is listed refers back to the lister. -/
  parent_of_listed : ∀ p c, c ∈ s.children p → s.parent c = some p
  /-- Whoever has a parent is listed by it once, and by nobody else. -/
  listed_once : ∀ p c, s.parent c = some p →
    (s.children p).count c = 1 ∧ ∀ q, c ∈ s.children q → q = p
  acyclic : ∀ i, ¬ s.Above i i

/-- What is left of it where a node may come to be above itself: whoever is listed refers back, and
is listed once. -/
structure Traced (s : Store) : Prop where
  parent_of_listed : ∀ p c, c ∈ s.children p → s.parent c = some p
  nodup_children : ∀ p, (s.children p).Nodup

theorem Traced.not_mem_of_detached {s : Store} (traced : s.Traced) (p c : NodeId)
    (free : s.parent c = none) : c ∉ s.children p := by
  intro member
  have edge := traced.parent_of_listed p c member
  rw [free] at edge
  cases edge

theorem above_iff (s : Store) (a i : NodeId) :
    s.Above a i ↔ ∃ p, s.parent i = some p ∧ (p = a ∨ s.Above a p) := by
  constructor
  · intro above
    cases above with
    | single edge => exact ⟨a, edge, Or.inl rfl⟩
    | tail before edge => exact ⟨_, edge, Or.inr before⟩
  · rintro ⟨p, edge, rfl | before⟩
    · exact Relation.TransGen.single edge
    · exact Relation.TransGen.tail before edge

theorem not_above_of_detached (s : Store) (a i : NodeId) (free : s.parent i = none) :
    ¬ s.Above a i := by
  intro above
  obtain ⟨p, edge, _⟩ := (above_iff s a i).mp above
  rw [free] at edge
  cases edge

theorem wellLinked_empty : empty.WellLinked where
  parent_of_listed p c member := absurd (lt_size_of_mem_children empty p c member) (Nat.not_lt_zero p)
  listed_once p c edge := absurd (lt_size_of_parent empty c p edge) (Nat.not_lt_zero c)
  acyclic i above := by
    obtain ⟨p, edge, _⟩ := (above_iff empty i i).mp above
    exact absurd (lt_size_of_parent empty i p edge) (Nat.not_lt_zero i)

namespace WellLinked

variable {s t : Store}

theorem congr (linked : s.WellLinked) (children : ∀ i, t.children i = s.children i)
    (parent : ∀ i, t.parent i = s.parent i) : t.WellLinked where
  parent_of_listed p c member := by
    rw [children] at member
    rw [parent]
    exact linked.parent_of_listed p c member
  listed_once p c edge := by
    rw [parent] at edge
    obtain ⟨once, only⟩ := linked.listed_once p c edge
    refine ⟨by rw [children]; exact once, ?_⟩
    intro q member
    rw [children] at member
    exact only q member
  acyclic i above := by
    apply linked.acyclic i
    refine Relation.TransGen.mono ?_ i i above
    intro p c edge
    rw [← parent c]
    exact edge

theorem mem_children (linked : s.WellLinked) (p c : NodeId) (edge : s.parent c = some p) :
    c ∈ s.children p := by
  have once := (linked.listed_once p c edge).1
  exact List.count_pos_iff.mp (by omega)

theorem nodup_children (linked : s.WellLinked) (p : NodeId) : (s.children p).Nodup := by
  rw [List.nodup_iff_count_le_one]
  intro c
  by_cases member : c ∈ s.children p
  · exact Nat.le_of_eq (linked.listed_once p c (linked.parent_of_listed p c member)).1
  · rw [List.count_eq_zero_of_not_mem member]
    exact Nat.zero_le 1

theorem traced (linked : s.WellLinked) : s.Traced := ⟨linked.parent_of_listed, linked.nodup_children⟩

theorem not_mem_of_detached (linked : s.WellLinked) (p c : NodeId) (free : s.parent c = none) :
    c ∉ s.children p := linked.traced.not_mem_of_detached p c free

end WellLinked

/-- The second store is the first one, but that a node keeps only some of its children and the
others are detached. -/
structure Pruned (s t : Store) (p : NodeId) (kept : List NodeId) : Prop where
  sublist : kept.Sublist (s.children p)
  children : ∀ q, t.children q = if q = p then kept else s.children q
  parent : ∀ c, t.parent c = if c ∈ s.children p ∧ c ∉ kept then none else s.parent c

theorem Pruned.parent_eq {s t : Store} {p : NodeId} {kept : List NodeId}
    (pruned : Pruned s t p kept) (c q : NodeId) (edge : t.parent c = some q) :
    s.parent c = some q ∧ (c ∈ s.children p → c ∈ kept) := by
  rw [pruned.parent] at edge
  split at edge
  · cases edge
  · next outside =>
    refine ⟨edge, ?_⟩
    intro member
    by_contra dropped
    exact outside ⟨member, dropped⟩

theorem Traced.prune {s t : Store} {p : NodeId} {kept : List NodeId} (traced : s.Traced)
    (pruned : Pruned s t p kept) : t.Traced where
  parent_of_listed q c member := by
    rw [pruned.children] at member
    rw [pruned.parent]
    by_cases here : q = p
    · subst here
      rw [if_pos rfl] at member
      rw [if_neg (fun dropped => dropped.2 member)]
      exact traced.parent_of_listed q c (pruned.sublist.subset member)
    · rw [if_neg here] at member
      have edge := traced.parent_of_listed q c member
      have elsewhere : c ∉ s.children p := fun also =>
        here (Option.some.inj (edge.symm.trans (traced.parent_of_listed p c also)))
      rw [if_neg (fun dropped => elsewhere dropped.1)]
      exact edge
  nodup_children q := by
    rw [pruned.children]
    split
    · exact (traced.nodup_children p).sublist pruned.sublist
    · exact traced.nodup_children q

theorem WellLinked.prune {s t : Store} {p : NodeId} {kept : List NodeId} (linked : s.WellLinked)
    (pruned : Pruned s t p kept) : t.WellLinked := by
  have listed := (linked.traced.prune pruned).parent_of_listed
  refine ⟨listed, ?_, ?_⟩
  · intro q c edge
    obtain ⟨old, stays⟩ := pruned.parent_eq c q edge
    refine ⟨?_, fun r member => Option.some.inj ((listed r c member).symm.trans edge)⟩
    have once := (linked.listed_once q c old).1
    rw [pruned.children]
    by_cases here : q = p
    · subst here
      have member := stays (linked.mem_children q c old)
      have atMost := pruned.sublist.count_le c
      have atLeast := List.count_pos_iff.mpr member
      rw [if_pos rfl]
      omega
    · rw [if_neg here]
      exact once
  · intro i above
    apply linked.acyclic i
    refine Relation.TransGen.mono ?_ i i above
    intro q c edge
    exact (pruned.parent_eq c q edge).1

/-- The second store is the first one, but that a node has entered another one's list. -/
structure Grafted (s t : Store) (p n : NodeId) (listed : List NodeId) : Prop where
  perm : listed.Perm (n :: s.children p)
  children : ∀ q, t.children q = if q = p then listed else s.children q
  parent : ∀ c, t.parent c = if c = n then some p else s.parent c

theorem Grafted.above {s t : Store} {p n : NodeId} {listed : List NodeId}
    (grafted : Grafted s t p n listed) (x y : NodeId) (above : t.Above x y) :
    s.Above x y ∨ ((x = p ∨ s.Above x p) ∧ (y = n ∨ s.Above n y)) := by
  induction above with
  | single edge =>
      rw [grafted.parent] at edge
      split at edge
      · next new => exact Or.inr ⟨Or.inl (Option.some.inj edge).symm, Or.inl new⟩
      · exact Or.inl (Relation.TransGen.single edge)
  | tail _ edge ih =>
      rw [grafted.parent] at edge
      split at edge
      · next new =>
        cases edge
        rcases ih with old | ⟨up, _⟩
        · exact Or.inr ⟨Or.inr old, Or.inl new⟩
        · exact Or.inr ⟨up, Or.inl new⟩
      · rcases ih with old | ⟨up, rfl | down⟩
        · exact Or.inl (Relation.TransGen.tail old edge)
        · exact Or.inr ⟨up, Or.inr (Relation.TransGen.single edge)⟩
        · exact Or.inr ⟨up, Or.inr (Relation.TransGen.tail down edge)⟩

theorem Traced.graft {s t : Store} {p n : NodeId} {listed : List NodeId} (traced : s.Traced)
    (grafted : Grafted s t p n listed) (free : s.parent n = none) : t.Traced where
  parent_of_listed q c member := by
    rw [grafted.children] at member
    rw [grafted.parent]
    by_cases here : q = p
    · subst here
      rw [if_pos rfl, grafted.perm.mem_iff, List.mem_cons] at member
      split
      · rfl
      · next other => exact traced.parent_of_listed q c (member.resolve_left other)
    · rw [if_neg here] at member
      have other : c ≠ n := by
        rintro rfl
        exact traced.not_mem_of_detached q c free member
      rw [if_neg other]
      exact traced.parent_of_listed q c member
  nodup_children q := by
    rw [grafted.children]
    split
    · rw [grafted.perm.nodup_iff, List.nodup_cons]
      exact ⟨traced.not_mem_of_detached p n free, traced.nodup_children p⟩
    · exact traced.nodup_children q

theorem WellLinked.graft {s t : Store} {p n : NodeId} {listed : List NodeId}
    (linked : s.WellLinked) (grafted : Grafted s t p n listed) (free : s.parent n = none)
    (apart : ¬ (p = n ∨ s.Above n p)) : t.WellLinked := by
  have backward := (linked.traced.graft grafted free).parent_of_listed
  refine ⟨backward, ?_, ?_⟩
  · intro q c edge
    refine ⟨?_, fun r member => Option.some.inj ((backward r c member).symm.trans edge)⟩
    rw [grafted.parent] at edge
    rw [grafted.children]
    split at edge
    · next new =>
      subst new
      cases edge
      rw [if_pos rfl, grafted.perm.count_eq, List.count_cons_self,
        List.count_eq_zero_of_not_mem (linked.not_mem_of_detached p c free)]
    · next other =>
      have once := (linked.listed_once q c edge).1
      split
      · next here =>
        subst here
        rw [grafted.perm.count_eq, List.count_cons_of_ne (Ne.symm other)]
        exact once
      · exact once
  · intro i above
    rcases grafted.above i i above with old | ⟨rfl | up, rfl | down⟩
    · exact linked.acyclic i old
    · exact apart (Or.inl rfl)
    · exact apart (Or.inr down)
    · exact apart (Or.inr up)
    · exact apart (Or.inr (Relation.TransGen.trans down up))

/-- Along a relation without cycles that only leads on from finitely many nodes, some number goes
down with every step. -/
theorem exists_rank (n : Nat) (r : NodeId → NodeId → Prop) (bound : ∀ a b, r a b → a < n)
    (acyclic : ∀ a, ¬ Relation.TransGen r a a) :
    ∃ rank : NodeId → Nat, (∀ a, rank a ≤ n) ∧ ∀ a b, r a b → rank b < rank a := by
  classical
  refine ⟨fun a => ((Finset.range n).filter (Relation.ReflTransGen r a)).card, ?_, ?_⟩
  · intro a
    calc
      ((Finset.range n).filter (Relation.ReflTransGen r a)).card ≤ (Finset.range n).card :=
        Finset.card_filter_le _ _
      _ = n := Finset.card_range n
  · intro a b edge
    apply Finset.card_lt_card
    rw [Finset.ssubset_iff_of_subset]
    · refine ⟨a, ?_, ?_⟩
      · simp only [Finset.mem_filter, Finset.mem_range]
        exact ⟨bound a b edge, Relation.ReflTransGen.refl⟩
      · simp only [Finset.mem_filter, Finset.mem_range, not_and]
        intro _ back
        exact acyclic a (Relation.TransGen.head' edge back)
    · intro c member
      simp only [Finset.mem_filter, Finset.mem_range] at member ⊢
      exact ⟨member.1, Relation.ReflTransGen.head edge member.2⟩

theorem exists_height (s : Store) (acyclic : ∀ i, ¬ s.Above i i) :
    ∃ height : NodeId → Nat, (∀ i, height i ≤ s.size) ∧
      ∀ i p, s.parent i = some p → height p < height i := by
  apply exists_rank s.size (fun i p => s.parent i = some p)
  · intro i p edge
    exact lt_size_of_parent s i p edge
  · intro i cycle
    exact acyclic i (Relation.transGen_swap.mp cycle)

/-- The way up that is followed is long enough to meet whatever is above. -/
theorem contains_iff (s : Store) (acyclic : ∀ i, ¬ s.Above i i) (a b : NodeId) :
    s.contains a b = true ↔ b = a ∨ s.Above a b := by
  obtain ⟨height, bounded, falls⟩ := exists_height s acyclic
  have climbs : ∀ steps i, height i < steps →
      (s.climb a steps (some i) = true ↔ i = a ∨ s.Above a i) := by
    intro steps
    induction steps with
    | zero => intro i low; omega
    | succ steps ih =>
        intro i low
        rw [above_iff, climb, Bool.or_eq_true, beq_iff_eq]
        cases parent : s.parent i with
        | none => simp [climb]
        | some p =>
            have lower := falls i p parent
            rw [ih p (by omega)]
            simp
  exact climbs (s.size + 1) b (Nat.lt_succ_of_le (bounded b))

end HtmlTree.Store
