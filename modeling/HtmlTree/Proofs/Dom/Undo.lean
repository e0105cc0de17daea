import HtmlTree.Proofs.Dom.Blocks

/-! Edits taken back. Taking out what was put in restores the store, and so does putting a node back
in the place of the one that took its own. Between the two replacements the node's tree may be edited:
each such edit leaves all nodes alone that are neither in the tree nor brought into it. -/

namespace HtmlTree.Store

variable {s t u : Store} {o n p q x i : NodeId} {before after : List NodeId}

theorem ext_node (size : t.size = s.size) (node : ∀ i, t.node i = s.node i) : t = s := by
  have nodes : t.nodes = s.nodes := by
    refine Array.ext size fun i here there => ?_
    have same := node i
    rw [Store.node, Store.node, Array.getElem?_eq_getElem here, Array.getElem?_eq_getElem there] at same
    exact same
  cases s
  cases t
  exact congrArg Store.mk nodes

theorem remove_link {place : List NodeId → List NodeId} (known : p < s.size) (child : n < s.size)
    (free : s.parent n = none) (listed : n ∈ place (s.children p))
    (rest : (place (s.children p)).erase n = s.children p) :
    (s.link p n place).remove n = s := by
  have children : (s.link p n place).children p = place (s.children p) := by
    rw [children_link, if_pos ⟨rfl, known⟩]
  have edge : (s.link p n place).parent n = some p := by
    rw [parent_link, if_pos ⟨rfl, child⟩]
  obtain ⟨k, found⟩ := indexOf_of_mem _ p n (children.symm ▸ listed)
  obtain ⟨before, after, split, length, first⟩ := indexOf_eq_some _ p n k found
  have shorter : (place (s.children p)).eraseIdx k = s.children p := by
    rw [← children, split, ← length, List.eraseIdx_append_of_length_le (Nat.le_refl _), Nat.sub_self,
      ← rest, ← children, split, List.erase_append_right _ first]
    simp
  have removed : (s.link p n place).remove n =
      ((s.link p n place).setChildren p (s.children p)).setParent n none := by
    simp only [remove, edge, found, children, shorter]
  rw [removed]
  refine ext_node (by simp) fun i => node_eq (by simp) ?_ ?_
  · rw [parent_setParent, parent_setChildren, size_setChildren, size_link, parent_link]
    by_cases here : n = i
    · subst here
      rw [if_pos ⟨rfl, child⟩, free]
    · rw [if_neg (fun both => here both.1), if_neg (fun both => here both.1)]
  · rw [children_setParent, children_setChildren, size_link, children_link]
    by_cases here : p = i
    · subst here
      rw [if_pos ⟨rfl, known⟩]
    · rw [if_neg (fun both => here both.1), if_neg (fun both => here both.1)]

/-- The second store is the first one, but that a node stands where another one stood, which is
detached. -/
structure Exchanged (s t : Store) (p o n : NodeId) (before after : List NodeId) : Prop where
  size : t.size = s.size
  content : ∀ i, t.content i = s.content i
  children : ∀ q, t.children q = if q = p then before ++ n :: after else s.children q
  parent : ∀ i, t.parent i = if i = o then none else if i = n then some p else s.parent i

theorem indexOf_of_split (split : s.children p = before ++ o :: after) (first : o ∉ before)
    (last : o ∉ after) : s.indexOf p o = some before.length := by
  obtain ⟨k, found⟩ := s.indexOf_of_mem p o (by rw [split]; simp)
  obtain ⟨before', after', split', length, _⟩ := s.indexOf_eq_some p o k found
  rw [split'] at split
  have same := ((List.append_cons_inj_of_notMem first last).mp split.symm).1
  rw [found, ← length, same]

theorem exists_exchanged (traced : s.Traced) (edge : s.parent o = some p)
    (split : s.children p = before ++ o :: after) (known : n < s.size) (other : n ≠ o) :
    ∃ t, s.replace o n = .done t ∧ Exchanged s t p o n before after := by
  have distinct := traced.nodup_children p
  rw [split, List.nodup_middle, List.nodup_cons, List.mem_append, not_or] at distinct
  have found := indexOf_of_split split distinct.1.1 distinct.1.2
  have listed : o ∈ s.children p := by
    rw [split]
    simp
  have parentKnown := s.lt_size_of_mem_children p o listed
  have oldKnown := s.lt_size_of_parent o p edge
  have done : s.replace o n = .done
      ((s.link p n fun children => children.set before.length n).setParent o none) := by
    simp only [replace, edge, found, other, if_false]
  refine ⟨_, done, by simp, by simp, ?_, ?_⟩
  · intro q
    rw [children_setParent, children_link]
    by_cases here : p = q
    · subst here
      rw [if_pos ⟨rfl, parentKnown⟩, if_pos rfl, split, set_middle]
    · rw [if_neg (fun both => here both.1), if_neg (Ne.symm here)]
  · intro i
    rw [parent_setParent, size_link, parent_link]
    by_cases here : o = i
    · subst here
      rw [if_pos ⟨rfl, oldKnown⟩, if_pos rfl]
    · rw [if_neg (fun both => here both.1), if_neg (Ne.symm here)]
      by_cases new : n = i
      · subst new
        rw [if_pos ⟨rfl, known⟩, if_pos rfl]
      · rw [if_neg (fun both => new both.1), if_neg (Ne.symm new)]

namespace Exchanged

theorem traced (exchanged : Exchanged s t p o n before after) (traced : s.Traced)
    (edge : s.parent o = some p) (split : s.children p = before ++ o :: after)
    (free : s.parent n = none) : t.Traced where
  parent_of_listed q c member := by
    have distinct := traced.nodup_children p
    rw [split, List.nodup_middle, List.nodup_cons, List.mem_append] at distinct
    have different : n ≠ o := by
      rintro rfl
      rw [free] at edge
      cases edge
    rw [exchanged.children] at member
    rw [exchanged.parent]
    by_cases here : q = p
    · rw [if_pos here, List.mem_append, List.mem_cons, or_left_comm] at member
      rcases member with rfl | old
      · rw [if_neg different, if_pos rfl, here]
      · have other : c ≠ o := by
          rintro rfl
          exact distinct.1 old
        have listed : c ∈ s.children p := by
          rw [split, List.perm_middle.mem_iff, List.mem_cons, List.mem_append]
          exact Or.inr old
        have new : c ≠ n := by
          rintro rfl
          exact traced.not_mem_of_detached p c free listed
        rw [if_neg other, if_neg new, here]
        exact traced.parent_of_listed p c listed
    · rw [if_neg here] at member
      have up := traced.parent_of_listed q c member
      have other : c ≠ o := by
        rintro rfl
        exact here (Option.some.inj (up.symm.trans edge))
      have new : c ≠ n := by
        rintro rfl
        exact traced.not_mem_of_detached q c free member
      rw [if_neg other, if_neg new, up]
  nodup_children q := by
    rw [exchanged.children]
    split
    · have distinct := traced.nodup_children p
      have fresh := traced.not_mem_of_detached p n free
      rw [split, List.perm_middle.mem_iff, List.mem_cons, not_or] at fresh
      rw [split, List.nodup_middle, List.nodup_cons] at distinct
      rw [List.nodup_middle, List.nodup_cons]
      exact ⟨fresh.2, distinct.2⟩
    · exact traced.nodup_children q

theorem undo_node {v : Store} (exchanged : Exchanged s t p o n before after)
    (back : Exchanged u v p n o before after) (edge : s.parent o = some p)
    (split : s.children p = before ++ o :: after) (free : s.parent n = none)
    (kept : u.node i = t.node i) : v.node i = s.node i := by
  have content : u.content i = t.content i := congrArg Node.content kept
  have parent : u.parent i = t.parent i := congrArg Node.parent kept
  have children : u.children i = t.children i := congrArg Node.children kept
  refine node_eq ((back.content i).trans (content.trans (exchanged.content i))) ?_ ?_
  · rw [back.parent, parent, exchanged.parent]
    by_cases new : i = n
    · rw [if_pos new, new, free]
    · rw [if_neg new, if_neg new]
      by_cases old : i = o
      · rw [if_pos old, old, edge]
      · rw [if_neg old, if_neg old]
  · rw [back.children, children, exchanged.children]
    by_cases here : i = p
    · rw [if_pos here, here, split]
    · rw [if_neg here, if_neg here]

end Exchanged

/-- Being in a node's tree: the node itself, what it lists, and so on. -/
def Within (s : Store) : NodeId → NodeId → Prop :=
  Relation.ReflTransGen fun p c => c ∈ s.children p

theorem Traced.parent_within (traced : s.Traced) (inside : s.Within o i) (other : i ≠ o) :
    ∃ p, s.parent i = some p ∧ i ∈ s.children p ∧ s.Within o p := by
  rcases Relation.ReflTransGen.cases_tail inside with same | ⟨p, above, listed⟩
  · exact absurd same other
  · exact ⟨p, traced.parent_of_listed p i listed, listed, above⟩

theorem WellLinked.within_iff (linked : s.WellLinked) (o i : NodeId) :
    s.Within o i ↔ s.contains o i = true := by
  rw [contains_iff s linked.acyclic]
  constructor
  · intro inside
    induction inside with
    | refl => exact Or.inl rfl
    | tail _ listed ih =>
        exact Or.inr ((above_iff s o _).mpr ⟨_, linked.parent_of_listed _ _ listed, ih⟩)
  · rintro (rfl | above)
    · exact Relation.ReflTransGen.refl
    · induction above with
      | single edge => exact Relation.ReflTransGen.single (linked.mem_children _ _ edge)
      | tail _ edge ih => exact ih.tail (linked.mem_children _ _ edge)

theorem Traced.acyclic_within (traced : s.Traced) (free : s.parent o = none)
    (inside : s.Within o i) : ¬ Relation.TransGen (fun c p => s.parent c = some p) i i := by
  induction inside with
  | refl =>
      intro cycle
      obtain ⟨p, edge, _⟩ := Relation.TransGen.head'_iff.mp cycle
      rw [free] at edge
      cases edge
  | @tail p c _ listed ih =>
      intro cycle
      obtain ⟨q, edge, back⟩ := Relation.TransGen.head'_iff.mp cycle
      have up := traced.parent_of_listed p c listed
      cases up.symm.trans edge
      exact ih (Relation.TransGen.tail' back up)

theorem Traced.contains_of_within (traced : s.Traced) (free : s.parent o = none)
    (inside : s.Within o i) : s.contains o i = true := by
  obtain ⟨rank, bounded, falls⟩ := exists_rank s.size (fun c p => s.parent c = some p ∧ s.Within o c)
    (fun c p edge => lt_size_of_parent s c p edge.1) (by
      intro c cycle
      obtain ⟨p, edge, _⟩ := Relation.TransGen.head'_iff.mp cycle
      exact traced.acyclic_within free edge.2 (Relation.TransGen.mono (fun _ _ edge => edge.1) _ _ cycle))
  have climbs : ∀ steps i, s.Within o i → rank i < steps → s.climb o steps (some i) = true := by
    intro steps
    induction steps with
    | zero =>
        intro i _ low
        exact absurd low (Nat.not_lt_zero _)
    | succ steps ih =>
        intro i inside low
        rw [climb, Bool.or_eq_true, beq_iff_eq]
        by_cases same : i = o
        · exact Or.inl same
        · obtain ⟨p, edge, _, above⟩ := traced.parent_within inside same
          have lower := falls i p ⟨edge, inside⟩
          rw [edge]
          exact Or.inr (ih p above (by omega))
  exact climbs (s.size + 1) i inside (Nat.lt_succ_of_le (bounded i))

theorem Insertable.ne_root (insertable : s.Insertable n p) (traced : s.Traced)
    (free : s.parent o = none) (inside : s.Within o p) : n ≠ o := by
  rintro rfl
  have apart := insertable.2.2
  rw [traced.contains_of_within free inside] at apart
  cases apart

/-- Two stores between which only nodes changed that were in a root's tree or were brought into it.
The root stays one. -/
structure Confined (s t : Store) (o : NodeId) (brought : NodeId → Prop) : Prop where
  size : s.size ≤ t.size
  node : ∀ i, ¬ s.Within o i → ¬ brought i → t.node i = s.node i
  within : ∀ i, t.Within o i → s.Within o i ∨ brought i
  traced : t.Traced
  free : t.parent o = none

theorem Confined.trans {first second : NodeId → Prop} (before : Confined s t o first)
    (after : Confined t u o second) : Confined s u o fun i => first i ∨ second i where
  size := Nat.le_trans before.size after.size
  node i outside unbrought := by
    rw [not_or] at unbrought
    have still : ¬ t.Within o i := fun inside =>
      (before.within i inside).elim outside unbrought.1
    exact (after.node i still unbrought.2).trans (before.node i outside unbrought.1)
  within i inside := by
    rcases after.within i inside with earlier | brought
    · exact (before.within i earlier).imp_right Or.inl
    · exact Or.inr (Or.inr brought)
  traced := after.traced
  free := after.free

/-- Between two stores lists only got shorter, and only in a root's tree. -/
structure Shrunk (s t : Store) (o : NodeId) : Prop where
  size : t.size = s.size
  node : ∀ i, ¬ s.Within o i → t.node i = s.node i
  children : ∀ i, ∀ c ∈ t.children i, c ∈ s.children i
  traced : t.Traced
  free : t.parent o = none

namespace Shrunk

theorem refl (traced : s.Traced) (free : s.parent o = none) : Shrunk s s o :=
  ⟨rfl, fun _ _ => rfl, fun _ _ member => member, traced, free⟩

theorem prune {kept : List NodeId} (shrunk : Shrunk s t o) (inside : s.Within o p)
    (pruned : Pruned t u p kept) (size : u.size = t.size)
    (content : ∀ i, i ∉ t.children p → u.content i = t.content i) : Shrunk s u o where
  size := size.trans shrunk.size
  node i outside := by
    have unlisted : i ∉ t.children p := fun listed =>
      outside (inside.tail (shrunk.children p i listed))
    have other : i ≠ p := by
      rintro rfl
      exact outside inside
    have same : u.node i = t.node i := by
      refine node_eq (content i unlisted) ?_ ?_
      · rw [pruned.parent, if_neg fun both => unlisted both.1]
      · rw [pruned.children, if_neg other]
    exact same.trans (shrunk.node i outside)
  children i c member := by
    rw [pruned.children] at member
    split at member
    · next here =>
      rw [here]
      exact shrunk.children p c (pruned.sublist.subset member)
    · exact shrunk.children i c member
  traced := shrunk.traced.prune pruned
  free := by
    rw [pruned.parent, shrunk.free]
    exact ite_self _

theorem confined (shrunk : Shrunk s t o) : Confined s t o fun _ => False where
  size := Nat.le_of_eq shrunk.size.symm
  node i outside _ := shrunk.node i outside
  within i inside := Or.inl (Relation.ReflTransGen.mono (fun p c member => shrunk.children p c member)
    o i inside)
  traced := shrunk.traced
  free := shrunk.free

theorem mergeChildren (shrunk : Shrunk s t o) (inside : s.Within o i) :
    Shrunk s (t.mergeChildren i).store o := by
  have merged := merged_mergeChildren t i (shrunk.traced.nodup_children i)
  exact shrunk.prune inside merged.pruned merged.size fun j unlisted =>
    merged.unmerged j fun kept => unlisted (merged.pruned.sublist.subset kept)

theorem normalizeLoop (shrunk : Shrunk s t o) (fuel : Nat) (pending : List NodeId)
    (inside : ∀ i ∈ pending, s.Within o i) : Shrunk s (t.normalizeLoop fuel pending) o := by
  induction fuel generalizing t pending with
  | zero => exact shrunk
  | succ fuel ih =>
      cases pending with
      | nil => exact shrunk
      | cons i pending =>
          have here := inside i List.mem_cons_self
          refine ih (shrunk.mergeChildren here) _ fun j member => ?_
          rcases List.mem_append.mp member with below | later
          · rw [(merged_mergeChildren t i (shrunk.traced.nodup_children i)).below, List.mem_reverse]
              at below
            exact here.tail (shrunk.children i j (List.mem_of_mem_filter below))
          · exact inside j (List.mem_cons_of_mem i later)

theorem normalize (shrunk : Shrunk s t o) (inside : s.Within o i) :
    Shrunk s (t.normalize i) o := by
  rw [Store.normalize]
  split
  · exact shrunk.normalizeLoop _ [i] fun j member => by rwa [List.mem_singleton.mp member]
  · exact shrunk

theorem remove (traced : s.Traced) (free : s.parent o = none) (inside : s.Within o n) :
    Shrunk s (s.remove n) o := by
  rw [Store.remove]
  split
  · exact refl traced free
  · next q edge =>
    split
    · exact refl traced free
    · next k found =>
      have other : n ≠ o := by
        rintro rfl
        rw [free] at edge
        cases edge
      obtain ⟨p, up, _, above⟩ := traced.parent_within inside other
      cases up.symm.trans edge
      obtain ⟨before, after, split, place, _⟩ := indexOf_eq_some s q n k found
      exact (refl traced free).prune above (pruned_remove s traced q n k before after split place)
        (by simp) fun i _ => by simp

end Shrunk

namespace Confined

theorem refl (traced : s.Traced) (free : s.parent o = none) (brought : NodeId → Prop) :
    Confined s s o brought :=
  ⟨Nat.le_refl _, fun _ _ _ => rfl, fun _ inside => Or.inl inside, traced, free⟩

theorem within_of_listed (brought : NodeId → Prop)
    (listed : ∀ q, s.Within o q ∨ brought q → ∀ c ∈ t.children q, c ∈ s.children q ∨ brought c)
    (closed : ∀ q, brought q → ∀ c ∈ s.children q, brought c) (inside : t.Within o i) :
    s.Within o i ∨ brought i := by
  induction inside with
  | refl => exact Or.inl Relation.ReflTransGen.refl
  | @tail q c _ member ih =>
      rcases listed q ih c member with old | new
      · exact ih.imp (fun inside => inside.tail old) fun new => closed q new c old
      · exact Or.inr new

theorem link (traced : s.Traced) (free : s.parent o = none) (inside : s.Within o p)
    (known : p < s.size) (insertable : s.Insertable n p) (place : List NodeId → List NodeId)
    (perm : (place (s.children p)).Perm (n :: s.children p)) :
    Confined s (s.link p n place) o (s.Within n) := by
  have grafted := grafted_link s p n place known insertable.1 perm
  have other := insertable.ne_root traced free inside
  refine ⟨by simp, fun i outside unbrought => ?_, fun i => within_of_listed (s.Within n) ?_ ?_,
    traced.graft grafted insertable.2.1, ?_⟩
  · refine node_eq (by simp) ?_ ?_
    · rw [grafted.parent, if_neg]
      rintro rfl
      exact unbrought Relation.ReflTransGen.refl
    · rw [grafted.children, if_neg]
      rintro rfl
      exact outside inside
  · intro q _ c member
    rw [grafted.children] at member
    split at member
    · next here =>
      rw [grafted.perm.mem_iff, List.mem_cons] at member
      rcases member with rfl | old
      · exact Or.inr Relation.ReflTransGen.refl
      · exact Or.inl (here ▸ old)
    · exact Or.inl member
  · exact fun q brought c member => brought.tail member
  · rw [grafted.parent, if_neg (Ne.symm other), free]

theorem exchange (traced : s.Traced) (free : s.parent o = none) (inside : s.Within o q)
    (above : s.Within o p) (edge : s.parent q = some p)
    (split : s.children p = before ++ q :: after) (insertable : s.Insertable n q)
    (exchanged : Exchanged s t p q n before after) : Confined s t o (s.Within n) := by
  have other := insertable.ne_root traced free inside
  refine ⟨Nat.le_of_eq exchanged.size.symm, fun i outside unbrought => ?_,
    fun i => within_of_listed (s.Within n) ?_ ?_,
    exchanged.traced traced edge split insertable.2.1, ?_⟩
  · refine node_eq (exchanged.content i) ?_ ?_
    · rw [exchanged.parent, if_neg, if_neg]
      · rintro rfl
        exact unbrought Relation.ReflTransGen.refl
      · rintro rfl
        exact outside inside
    · rw [exchanged.children, if_neg]
      rintro rfl
      exact outside above
  · intro r _ c member
    rw [exchanged.children] at member
    split at member
    · next here =>
      rw [List.mem_append, List.mem_cons, or_left_comm] at member
      rcases member with rfl | old
      · exact Or.inr Relation.ReflTransGen.refl
      · left
        rw [here, split, List.perm_middle.mem_iff, List.mem_cons, List.mem_append]
        exact Or.inr old
    · exact Or.inl member
  · exact fun r brought c member => brought.tail member
  · rw [exchanged.parent, if_neg (Ne.symm other), free]
    exact ite_self _

theorem replace (traced : s.Traced) (free : s.parent o = none) (inside : s.Within o q)
    (insertable : s.Insertable n q) (done : s.replace q n = .done t) :
    Confined s t o (s.Within n) := by
  by_cases root : q = o
  · rw [root, Store.replace, free] at done
    cases done
  · obtain ⟨p, edge, listed, above⟩ := traced.parent_within inside root
    obtain ⟨before, after, split⟩ := List.append_of_mem listed
    have different : n ≠ q := by
      rintro rfl
      rw [insertable.2.1] at edge
      cases edge
    obtain ⟨u, made, exchanged⟩ := exists_exchanged traced edge split insertable.1 different
    cases made.symm.trans done
    exact exchange traced free inside above edge split insertable exchanged

theorem setText (traced : s.Traced) (free : s.parent o = none) (inside : s.Within o p)
    (root : o < s.size) (known : p < s.size) (value : String) :
    Confined s (s.setText p value) o fun i => i = s.size := by
  have children := s.children_setText known value
  have parent := s.parent_setText p value
  refine ⟨by simp, fun i outside unbrought => ?_, fun i => within_of_listed (· = s.size) ?_ ?_,
    ⟨?_, ?_⟩, ?_⟩
  · have unlisted : i ∉ s.children p := fun listed => outside (inside.tail listed)
    refine node_eq ?_ ?_ ?_
    · rw [content_setText, if_neg unbrought]
    · rw [parent, if_neg unbrought, if_neg fun both => unlisted both.1]
    · rw [children, if_neg]
      rintro rfl
      exact outside inside
  · intro q _ c member
    rw [children] at member
    split at member
    · exact Or.inr (List.mem_singleton.mp member)
    · exact Or.inl member
  · rintro q rfl c member
    rw [children_of_size] at member
    cases member
  · intro q c member
    rw [children] at member
    rw [parent]
    split at member
    · next here => rw [if_pos (List.mem_singleton.mp member), here]
    · next elsewhere =>
      have edge := traced.parent_of_listed q c member
      rw [if_neg (Nat.ne_of_lt (lt_size_of_parent s c q edge)), if_neg, edge]
      rintro ⟨_, up⟩
      exact elsewhere (Option.some.inj (edge.symm.trans up))
  · intro q
    rw [children]
    split
    · exact List.nodup_singleton _
    · exact traced.nodup_children q
  · rw [parent, if_neg (Nat.ne_of_lt root), free]
    exact ite_self _

end Confined

/-- Calls of edits in a node's tree. What is inserted is detached, does not hold the place where it is
put, and is allowed. -/
def EditWithin (s : Store) (o : NodeId) (allowed : Store → NodeId → Prop) : Call → Prop
  | .append (.node p) (.node n) | .prepend (.node p) (.node n) | .replace (.node p) (.node n) =>
    s.Within o p ∧ s.Insertable n p ∧ allowed s n
  | .remove (.node n) | .setText (.node n) _ | .normalize n => s.Within o n
  | _ => False

def Brings (s : Store) : Call → NodeId → Prop
  | .append _ (.node n) | .prepend _ (.node n) | .replace _ (.node n) => s.Within n
  | .setText .. => fun i => i = s.size
  | _ => fun _ => False

def EditsWithin (s : Store) (o : NodeId) (allowed : Store → NodeId → Prop) : List Call → Prop
  | [] => True
  | call :: calls =>
    s.EditWithin o allowed call ∧ EditsWithin (s.perform call).store o allowed calls

def BroughtBy (s : Store) : List Call → NodeId → Prop
  | [], _ => False
  | call :: calls, i => s.Brings call i ∨ BroughtBy (s.perform call).store calls i

variable {allowed : Store → NodeId → Prop} {call : Call} {calls : List Call}

theorem confined_put (traced : s.Traced) (free : s.parent o = none) (inside : s.Within o p)
    (insertable : s.Insertable n p) (place : List NodeId → List NodeId)
    (perm : (place (s.children p)).Perm (n :: s.children p)) :
    Confined s (Effect.ofTree s (fun r : NodeId × Store => r.2) (do
      let p ← (Operand.node p).container s
      let n ← (Operand.node n).linked
      return (n, s.link p n place))).store o (s.Within n) := by
  cases container : (Operand.node p).container s with
  | error failure => exact Confined.refl traced free _
  | ok q =>
      obtain ⟨same, known⟩ := lt_size_of_container s (.node p) q container
      cases same
      exact Confined.link traced free inside known insertable place perm

theorem confined_replaceBy (traced : s.Traced) (free : s.parent o = none) (inside : s.Within o q)
    (insertable : s.Insertable n q) :
    Confined s (s.perform (.replace (.node q) (.node n))).store o (s.Within n) := by
  have same := Confined.refl traced free (s.Within n)
  simp only [perform, Operand.replaceBy, Operand.linked, Operand.node?, Option.getD_some, bind,
    Except.bind]
  cases result : s.replace q n with
  | detached => exact same
  | unlisted p =>
      dsimp only
      cases s.unlistedRecord q p <;> exact same
  | done t => exact Confined.replace traced free inside insertable result

theorem confined_perform (traced : s.Traced) (free : s.parent o = none) (root : o < s.size)
    (edit : s.EditWithin o allowed call) : Confined s (s.perform call).store o (s.Brings call) := by
  unfold EditWithin at edit
  split at edit
  · exact confined_put traced free edit.1 edit.2.1 _ (List.perm_append_singleton _ _)
  · exact confined_put traced free edit.1 edit.2.1 _ (List.Perm.refl _)
  · exact confined_replaceBy traced free edit.1 edit.2.1
  · exact (Shrunk.remove traced free edit).confined
  · next p value =>
    simp only [perform, Operand.setText]
    cases container : (Operand.node p).container s with
    | error failure => exact Confined.refl traced free _
    | ok q =>
        obtain ⟨same, known⟩ := lt_size_of_container s (.node p) q container
        cases same
        exact Confined.setText traced free edit root known _
  · exact ((Shrunk.refl traced free).normalize edit).confined
  · exact edit.elim

/-- Edits in a root's tree leave the rest alone, but for what they bring into the tree. -/
theorem confined_after (traced : s.Traced) (free : s.parent o = none) (root : o < s.size)
    (edits : s.EditsWithin o allowed calls) : Confined s (s.after calls) o (s.BroughtBy calls) := by
  induction calls generalizing s with
  | nil => exact Confined.refl traced free _
  | cons call calls ih =>
      have first := confined_perform traced free root edits.1
      exact first.trans (ih first.traced first.free (Nat.lt_of_lt_of_le root first.size) edits.2)

theorem not_brings (known : x < s.size)
    (edit : s.EditWithin o (fun u n => ¬ u.Within n x) call) : ¬ s.Brings call x := by
  unfold EditWithin at edit
  split at edit
  · exact edit.2.2
  · exact edit.2.2
  · exact edit.2.2
  · exact id
  · exact Nat.ne_of_lt known
  · exact id
  · exact edit.elim

theorem brings_of_listed (listed : x ∈ s.children p) (brought : s.Brings call p) :
    s.Brings call x := by
  unfold Brings at brought ⊢
  split at brought
  · exact brought.tail listed
  · exact brought.tail listed
  · exact brought.tail listed
  · cases brought
    rw [children_of_size] at listed
    cases listed
  · exact brought.elim

/-- A node outside is not brought into the tree if nothing that holds it may be inserted, and neither is
the node that lists it. -/
theorem not_broughtBy (traced : s.Traced) (free : s.parent o = none) (root : o < s.size)
    (listed : x ∈ s.children p) (outside : ¬ s.Within o p) (known : x < s.size)
    (edits : s.EditsWithin o (fun u n => ¬ u.Within n x) calls) :
    ¬ s.BroughtBy calls x ∧ ¬ s.BroughtBy calls p := by
  induction calls generalizing s with
  | nil => exact ⟨id, id⟩
  | cons call calls ih =>
      have first := confined_perform traced free root edits.1
      have unbrought := not_brings known edits.1
      have apart : ¬ s.Brings call p := fun brought => unbrought (brings_of_listed listed brought)
      have kept : (s.perform call).store.children p = s.children p :=
        congrArg Node.children (first.node p outside apart)
      have later := ih first.traced first.free (Nat.lt_of_lt_of_le root first.size)
        (kept.symm ▸ listed) (fun inside => (first.within p inside).elim outside apart)
        (Nat.lt_of_lt_of_le known first.size) edits.2
      exact ⟨fun brought => brought.elim unbrought later.1, fun brought => brought.elim apart later.2⟩

theorem replaceBy_of_done (done : s.replace o n = .done t) :
    Operand.replaceBy s (.node o) (.node n) = .ok ⟨(some n, t), []⟩ := by
  simp [Operand.replaceBy, Operand.linked, Operand.node?, done, bind, Except.bind, pure, Except.pure]

/-- Putting a node in another one's place and back again, with edits of its tree in between. -/
theorem exists_replaced_back (linked : s.WellLinked) (edge : s.parent o = some p) (known : x < s.size)
    (free : s.parent x = none) :
    ∃ t, Operand.replaceBy s (.node o) (.node x) = .ok ⟨(some x, t), []⟩ ∧
      ∀ calls, t.EditsWithin o (fun u n => ¬ u.Within n x) calls →
        (t.after calls).parent o = none ∧ ∃ v,
          Operand.replaceBy (t.after calls) (.node x) (.node o) = .ok ⟨(some o, v), []⟩ ∧
          v.parent o = some p ∧ v.children p = s.children p ∧
          ∀ i, ¬ s.Within o i → ¬ t.BroughtBy calls i → v.node i = s.node i := by
  have different : x ≠ o := by
    rintro rfl
    rw [free] at edge
    cases edge
  obtain ⟨before, after, split⟩ := List.append_of_mem (linked.mem_children p o edge)
  obtain ⟨t, done, exchanged⟩ := exists_exchanged linked.traced edge split known different
  have traced := exchanged.traced linked.traced edge split free
  have rootFree : t.parent o = none := by rw [exchanged.parent, if_pos rfl]
  have root : o < t.size := by
    rw [exchanged.size]
    exact s.lt_size_of_parent o p edge
  have beside : ¬ s.Within o p := by
    intro inside
    rw [linked.within_iff, contains_iff s linked.acyclic] at inside
    exact linked.acyclic o ((above_iff s o o).mpr ⟨p, edge, inside⟩)
  have narrower : ∀ i, t.Within o i → s.Within o i := by
    intro i inside
    induction inside with
    | refl => exact Relation.ReflTransGen.refl
    | @tail q c _ member ih =>
        rw [exchanged.children, if_neg] at member
        · exact ih.tail member
        · rintro rfl
          exact beside ih
  have listed : t.children p = before ++ x :: after := by rw [exchanged.children, if_pos rfl]
  refine ⟨t, replaceBy_of_done done, fun calls edits => ?_⟩
  -- Edits confined to the replaced node leave the list that it was taken from alone.
  have confined := confined_after traced rootFree root edits
  have apart : ¬ t.Within o p := fun inside => beside (narrower p inside)
  obtain ⟨_, unbrought⟩ := not_broughtBy traced rootFree root (by rw [listed]; simp) apart
    (by rw [exchanged.size]; exact known) edits
  have held : (t.after calls).children p = before ++ x :: after :=
    (congrArg Node.children (confined.node p apart unbrought)).trans listed
  have up := confined.traced.parent_of_listed p x (by rw [held]; simp)
  obtain ⟨v, redone, back⟩ := exists_exchanged confined.traced up held
    (Nat.lt_of_lt_of_le root confined.size) (Ne.symm different)
  refine ⟨confined.free, v, replaceBy_of_done redone, ?_, ?_, fun i outside unbrought => ?_⟩
  · rw [back.parent, if_neg (Ne.symm different), if_pos rfl]
  · rw [back.children, if_pos rfl, split]
  · exact exchanged.undo_node back edge split free
      (confined.node i (fun inside => outside (narrower i inside)) unbrought)

/-- Edits of a well linked store are taken back. What was appended or prepended is taken out again, and
a node that was replaced is put back, each time into the very same store. It is also put back after
edits in its own tree, as long as nothing that holds the node in its place is inserted there. These edits
change no node but those that were in its tree and those that they brought into it. -/
theorem edits_undone (s : Store) (linked : s.WellLinked) :
    (∀ p n, s.isContainer p = true → s.Insertable n p →
      (∃ t, Operand.appendTo s (.node p) (.node n) = .ok (n, t) ∧
        Operand.removeFrom t (.node n) = .ok (n, s)) ∧
      ∃ t, Operand.prependTo s (.node p) (.node n) = .ok (n, t) ∧
        Operand.removeFrom t (.node n) = .ok (n, s)) ∧
    (∀ o p n, s.parent o = some p → n < s.size → s.parent n = none →
      ∃ t, Operand.replaceBy s (.node o) (.node n) = .ok ⟨(some n, t), []⟩ ∧
        Operand.replaceBy t (.node n) (.node o) = .ok ⟨(some o, s), []⟩) ∧
    ∀ o p x, s.parent o = some p → x < s.size → s.parent x = none →
      ∃ t, Operand.replaceBy s (.node o) (.node x) = .ok ⟨(some x, t), []⟩ ∧
        ∀ calls, t.EditsWithin o (fun u n => ¬ u.Within n x) calls →
          (t.after calls).parent o = none ∧ ∃ v,
            Operand.replaceBy (t.after calls) (.node x) (.node o) = .ok ⟨(some o, v), []⟩ ∧
            v.parent o = some p ∧ v.children p = s.children p ∧
            ∀ i, ¬ s.Within o i → ¬ t.BroughtBy calls i → v.node i = s.node i := by
  refine ⟨fun p n container insertable => ?_, fun o p n edge known free => ?_,
    fun o p x edge known free => exists_replaced_back linked edge known free⟩
  · have bound := s.lt_size_of_isContainer p container
    have fresh := linked.not_mem_of_detached p n insertable.2.1
    have behind : (s.append p n).remove n = s := remove_link bound insertable.1 insertable.2.1
      (by simp) (by rw [List.erase_append_right _ fresh]; simp)
    have first : (s.prepend p n).remove n = s := remove_link bound insertable.1 insertable.2.1
      (by simp) (by simp)
    refine ⟨⟨s.append p n, ?_, ?_⟩, ⟨s.prepend p n, ?_, ?_⟩⟩
    · simp [Operand.appendTo, Operand.container, container, Operand.linked, bind, Except.bind, pure,
        Except.pure]
    · simp [Operand.removeFrom, Operand.linked, behind, bind, Except.bind, pure, Except.pure]
    · simp [Operand.prependTo, Operand.container, container, Operand.linked, bind, Except.bind, pure,
        Except.pure]
    · simp [Operand.removeFrom, Operand.linked, first, bind, Except.bind, pure, Except.pure]
  · obtain ⟨before, after, split⟩ := List.append_of_mem (linked.mem_children p o edge)
    have different : n ≠ o := by
      rintro rfl
      rw [free] at edge
      cases edge
    obtain ⟨t, done, exchanged⟩ := exists_exchanged linked.traced edge split known different
    have traced := exchanged.traced linked.traced edge split free
    have held : t.children p = before ++ n :: after := by rw [exchanged.children, if_pos rfl]
    have up := traced.parent_of_listed p n (by rw [held]; simp)
    obtain ⟨v, redone, back⟩ := exists_exchanged traced up held
      (by rw [exchanged.size]; exact s.lt_size_of_parent o p edge) (Ne.symm different)
    have same : v = s := ext_node (back.size.trans exchanged.size) fun i =>
      exchanged.undo_node back edge split free rfl
    rw [same] at redone
    exact ⟨t, replaceBy_of_done done, replaceBy_of_done redone⟩

theorem not_within_of_childless (childless : s.children n = []) (other : i ≠ n) :
    ¬ s.Within n i := by
  intro inside
  rcases Relation.ReflTransGen.cases_head inside with same | ⟨c, listed, _⟩
  · exact other same.symm
  · rw [childless] at listed
    cases listed

def oneEntry : Store := (twoEntries.link 0 4 fun children => children.set 0 4).setParent 1 none

theorem replaceBy_oneEntry :
    Operand.replaceBy twoEntries (.node 1) (.node 4) = .ok ⟨(some 4, oneEntry), []⟩ := rfl

theorem edits_undone_twoEntries :
    let calls := [Call.remove (.node 2), .append (.node 1) (.node 2)]
    twoEntries.WellLinked ∧
    (twoEntries.isContainer 1 = true ∧ twoEntries.Insertable 4 1 ∧
      ∃ t, Operand.appendTo twoEntries (.node 1) (.node 4) = .ok (4, t) ∧
        Operand.removeFrom t (.node 4) = .ok (4, twoEntries)) ∧
    (twoEntries.parent 1 = some 0 ∧ 4 < twoEntries.size ∧ twoEntries.parent 4 = none ∧
      ∃ t, Operand.replaceBy twoEntries (.node 1) (.node 4) = .ok ⟨(some 4, t), []⟩ ∧
        Operand.replaceBy t (.node 4) (.node 1) = .ok ⟨(some 1, twoEntries), []⟩) ∧
    Operand.replaceBy twoEntries (.node 1) (.node 4) = .ok ⟨(some 4, oneEntry), []⟩ ∧
    oneEntry.EditsWithin 1 (fun u n => ¬ u.Within n 4) calls ∧
    ¬ twoEntries.Within 1 3 ∧ ¬ oneEntry.BroughtBy calls 3 ∧
    ∃ v, Operand.replaceBy (oneEntry.after calls) (.node 4) (.node 1) = .ok ⟨(some 1, v), []⟩ ∧
      v.children 0 = [1, 3] ∧ v.node 3 = twoEntries.node 3 := by
  intro calls
  have container : twoEntries.isContainer 1 = true := by decide
  have insertable : twoEntries.Insertable 4 1 := ⟨by decide, by decide, by decide⟩
  have edge : twoEntries.parent 1 = some 0 := by decide
  have known : 4 < twoEntries.size := by decide
  have free : twoEntries.parent 4 = none := by decide
  obtain ⟨put, exchanged, edited⟩ := edits_undone twoEntries wellLinked_twoEntries
  obtain ⟨t, done, later⟩ := edited 1 0 4 edge known free
  cases replaceBy_oneEntry.symm.trans done
  have edits : oneEntry.EditsWithin 1 (fun u n => ¬ u.Within n 4) calls := by
    refine ⟨.single (by decide), ⟨.refl, ⟨by decide, by decide, by decide⟩, ?_⟩, trivial⟩
    exact not_within_of_childless (by decide) (by decide)
  have beside : ¬ twoEntries.Within 1 3 := by
    rw [wellLinked_twoEntries.within_iff]
    decide
  have unbrought : ¬ oneEntry.BroughtBy calls 3 := by
    rintro (removed | appended | later)
    · exact removed
    · exact not_within_of_childless (by decide) (by decide) appended
    · exact later
  obtain ⟨_, v, redone, _, listed, kept⟩ := later calls edits
  exact ⟨wellLinked_twoEntries, ⟨container, insertable, (put 1 4 container insertable).1⟩,
    ⟨edge, known, free, exchanged 1 0 4 edge known free⟩, done, edits, beside, unbrought, v, redone,
    listed.trans (by decide), kept 3 beside unbrought⟩

/-- The list itself may be put into the entry taken out of it, together with the rule that stands in the
entry's place. Once the rule is removed there is no place left for the entry to come back to. -/
theorem place_lost_twoEntries :
    let calls := [Call.append (.node 1) (.node 0), .remove (.node 4)]
    twoEntries.WellLinked ∧ twoEntries.parent 1 = some 0 ∧ 4 < twoEntries.size ∧
    twoEntries.parent 4 = none ∧
    Operand.replaceBy twoEntries (.node 1) (.node 4) = .ok ⟨(some 4, oneEntry), []⟩ ∧
    oneEntry.EditsWithin 1 (fun _ n => n ≠ 4) calls ∧ (oneEntry.after calls).parent 1 = none ∧
    Operand.replaceBy (oneEntry.after calls) (.node 4) (.node 1) =
      .ok ⟨(none, oneEntry.after calls), []⟩ ∧ 1 ∉ (oneEntry.after calls).children 0 := by
  intro calls
  have list : (oneEntry.perform (.append (.node 1) (.node 0))).store.Within 1 0 :=
    .single (by decide)
  have edits : oneEntry.EditsWithin 1 (fun _ n => n ≠ 4) calls :=
    ⟨⟨.refl, ⟨by decide, by decide, by decide⟩, by decide⟩, list.tail (by decide), trivial⟩
  exact ⟨wellLinked_twoEntries, by decide, by decide, by decide, replaceBy_oneEntry, edits, by decide,
    rfl, by decide⟩

end HtmlTree.Store
