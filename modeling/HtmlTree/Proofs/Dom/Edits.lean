import HtmlTree.Dom.Attributes
import HtmlTree.Proofs.Dom.Linked

/-! The structural edits keep a store well linked, as long as only detached nodes are put somewhere
and none of them into itself. -/

namespace HtmlTree.Store

theorem indexOf_eq_some (s : Store) (p c : NodeId) (k : Nat) (found : s.indexOf p c = some k) :
    ∃ before after, s.children p = before ++ c :: after ∧ before.length = k ∧ c ∉ before := by
  obtain ⟨bound, here, earlier⟩ := List.findIdx?_eq_some_iff_getElem.mp found
  simp only [decide_eq_true_eq] at here
  refine ⟨(s.children p).take k, (s.children p).drop (k + 1), ?_, ?_, ?_⟩
  · rw [← here, List.getElem_cons_drop, List.take_append_drop]
  · exact List.length_take_of_le (Nat.le_of_lt bound)
  · intro member
    obtain ⟨j, low, same⟩ := List.mem_take_iff_getElem.mp member
    exact earlier j (by omega) (by simpa using same)

theorem indexOf_of_mem (s : Store) (p c : NodeId) (member : c ∈ s.children p) :
    ∃ k, s.indexOf p c = some k := by
  apply Option.isSome_iff_exists.mp
  rw [indexOf, List.findIdx?_isSome, List.any_eq_true]
  exact ⟨c, member, by simp⟩

@[simp] theorem size_link (s : Store) (p n : NodeId) (place : List NodeId → List NodeId) :
    (s.link p n place).size = s.size := by
  rw [link, size_modify, size_setParent]

@[simp] theorem content_link (s : Store) (p n i : NodeId) (place : List NodeId → List NodeId) :
    (s.link p n place).content i = s.content i := by
  rw [link, content_modify _ _ _ _ rfl, content_setParent]

theorem parent_link (s : Store) (p n i : NodeId) (place : List NodeId → List NodeId) :
    (s.link p n place).parent i = if n = i ∧ i < s.size then some p else s.parent i := by
  rw [link, parent_modify _ _ _ _ rfl, parent_setParent]

theorem children_link (s : Store) (p n i : NodeId) (place : List NodeId → List NodeId) :
    (s.link p n place).children i =
      if p = i ∧ i < s.size then place (s.children i) else s.children i := by
  simp only [link, children, node_modify, size_setParent]
  split
  · exact congrArg place (children_setParent s n i (some p))
  · exact children_setParent s n i (some p)

theorem grafted_link (s : Store) (p n : NodeId) (place : List NodeId → List NodeId)
    (parentKnown : p < s.size) (known : n < s.size)
    (perm : (place (s.children p)).Perm (n :: s.children p)) :
    Grafted s (s.link p n place) p n (place (s.children p)) where
  perm := perm
  children q := by
    rw [children_link]
    by_cases here : q = p
    · subst here
      rw [if_pos ⟨rfl, parentKnown⟩, if_pos rfl]
    · rw [if_neg (fun both => here both.1.symm), if_neg here]
  parent c := by
    rw [parent_link]
    by_cases here : c = n
    · subst here
      rw [if_pos ⟨rfl, known⟩, if_pos rfl]
    · rw [if_neg (fun both => here both.1.symm), if_neg here]

theorem WellLinked.append {s : Store} (linked : s.WellLinked) (p n : NodeId)
    (parentKnown : p < s.size) (known : n < s.size) (free : s.parent n = none)
    (apart : ¬ (p = n ∨ s.Above n p)) : (s.append p n).WellLinked :=
  linked.graft (grafted_link s p n _ parentKnown known (List.perm_append_singleton n _)) free apart

theorem WellLinked.prepend {s : Store} (linked : s.WellLinked) (p n : NodeId)
    (parentKnown : p < s.size) (known : n < s.size) (free : s.parent n = none)
    (apart : ¬ (p = n ∨ s.Above n p)) : (s.prepend p n).WellLinked :=
  linked.graft (grafted_link s p n _ parentKnown known (List.Perm.refl _)) free apart

theorem WellLinked.make {s : Store} (linked : s.WellLinked) (c : Content) :
    (s.make c).2.WellLinked :=
  linked.congr (children_make s c) (parent_make s c)

theorem WellLinked.setContent {s : Store} (linked : s.WellLinked) (i : NodeId) (c : Content) :
    (s.setContent i c).WellLinked :=
  linked.congr (fun j => children_setContent s i j c) (fun j => parent_setContent s i j c)

theorem WellLinked.setAttrs {s : Store} (linked : s.WellLinked) (i : NodeId) (attrs : List Attr) :
    (s.setAttrs i attrs).WellLinked := by
  rw [Store.setAttrs]
  split
  · exact linked.setContent i _
  · exact linked

theorem WellLinked.not_above_of_childless {s : Store} (linked : s.WellLinked) (a i : NodeId)
    (childless : s.children a = []) : ¬ s.Above a i := by
  intro above
  obtain ⟨c, edge⟩ : ∃ c, s.parent c = some a := by
    induction above with
    | single edge => exact ⟨_, edge⟩
    | tail _ _ ih => exact ih
  have member := linked.mem_children a c edge
  rw [childless] at member
  cases member

theorem WellLinked.append_make {s : Store} (linked : s.WellLinked) (p : NodeId) (c : Content)
    (parentKnown : p < s.size) : ((s.make c).2.append p s.size).WellLinked := by
  have outside := node_of_size_le s s.size (Nat.le_refl s.size)
  apply (linked.make c).append p s.size
  · rw [size_make]
    exact Nat.lt_succ_of_lt parentKnown
  · rw [size_make]
    exact Nat.lt_succ_self s.size
  · rw [parent_make, parent, outside]
    rfl
  · rintro (rfl | above)
    · exact Nat.lt_irrefl _ parentKnown
    · apply (linked.make c).not_above_of_childless s.size p _ above
      rw [children_make, children, outside]
      rfl

theorem parent_release (s : Store) (p i : NodeId) (cs : List NodeId) :
    (s.release p cs).parent i =
      if i ∈ cs ∧ s.parent i = some p then none else s.parent i := by
  induction cs generalizing s with
  | nil => simp [release]
  | cons c cs ih =>
      rw [release, ih]
      by_cases refers : s.parent c = some p
      · have known := lt_size_of_parent s c p refers
        simp only [refers, if_true, parent_setParent, List.mem_cons]
        by_cases here : c = i
        · subst here
          simp [known, refers]
        · simp [here, Ne.symm here]
      · simp only [refers, if_false, List.mem_cons]
        by_cases here : i = c
        · subst here
          simp [refers]
        · simp [here]

@[simp] theorem children_release (s : Store) (p i : NodeId) (cs : List NodeId) :
    (s.release p cs).children i = s.children i := by
  induction cs generalizing s with
  | nil => rfl
  | cons c cs ih =>
      rw [release, ih]
      split
      · exact children_setParent s c i none
      · rfl

@[simp] theorem size_release (s : Store) (p : NodeId) (cs : List NodeId) :
    (s.release p cs).size = s.size := by
  induction cs generalizing s with
  | nil => rfl
  | cons c cs ih =>
      rw [release, ih]
      split
      · exact size_setParent s c none
      · rfl

@[simp] theorem content_release (s : Store) (p i : NodeId) (cs : List NodeId) :
    (s.release p cs).content i = s.content i := by
  induction cs generalizing s with
  | nil => rfl
  | cons c cs ih =>
      rw [release, ih]
      split
      · exact content_setParent s c i none
      · rfl

theorem pruned_release (s : Store) (traced : s.Traced) (p : NodeId) (known : p < s.size) :
    Pruned s ((s.release p (s.children p)).setChildren p []) p [] where
  sublist := List.nil_sublist _
  children q := by
    rw [children_setChildren, size_release, children_release]
    by_cases here : q = p
    · subst here
      rw [if_pos ⟨rfl, known⟩, if_pos rfl]
    · rw [if_neg (fun both => here both.1.symm), if_neg here]
  parent c := by
    rw [parent_setChildren, parent_release]
    by_cases member : c ∈ s.children p
    · rw [if_pos ⟨member, traced.parent_of_listed p c member⟩, if_pos ⟨member, List.not_mem_nil⟩]
    · rw [if_neg (fun both => member both.1), if_neg (fun both => member both.1)]

theorem WellLinked.setText {s : Store} (linked : s.WellLinked) (p : NodeId) (value : String)
    (known : p < s.size) : (s.setText p value).WellLinked := by
  have emptied := linked.prune (pruned_release s linked.traced p known)
  apply emptied.append_make p (.text (some value))
  rw [size_setChildren, size_release]
  exact known

theorem pruned_erase (s t : Store) (traced : s.Traced) (p n : NodeId)
    (before after : List NodeId) (split : s.children p = before ++ n :: after)
    (children : ∀ q, t.children q = if q = p then before ++ after else s.children q)
    (parent : ∀ c, t.parent c = if c = n then none else s.parent c) :
    Pruned s t p (before ++ after) where
  sublist := by
    rw [split]
    exact List.Sublist.append_left (List.sublist_cons_self n after) before
  children := children
  parent c := by
    have distinct := traced.nodup_children p
    rw [split, List.nodup_middle, List.nodup_cons] at distinct
    have left : (c ∈ s.children p ∧ c ∉ before ++ after) ↔ c = n := by
      rw [split, List.perm_middle.mem_iff, List.mem_cons]
      constructor
      · rintro ⟨rfl | member, dropped⟩
        · rfl
        · exact absurd member dropped
      · rintro rfl
        exact ⟨Or.inl rfl, distinct.1⟩
    rw [parent]
    simp only [left]

theorem pruned_remove (s : Store) (traced : s.Traced) (p n : NodeId) (k : Nat)
    (before after : List NodeId) (split : s.children p = before ++ n :: after)
    (place : before.length = k) :
    Pruned s ((s.setChildren p ((s.children p).eraseIdx k)).setParent n none) p
      (before ++ after) := by
  have listed : n ∈ s.children p := by rw [split]; simp
  have known := lt_size_of_mem_children s p n listed
  have child := lt_size_of_parent s n p (traced.parent_of_listed p n listed)
  have rest : (s.children p).eraseIdx k = before ++ after := by
    rw [split, ← place, List.eraseIdx_append_of_length_le (Nat.le_refl _), Nat.sub_self]
    rfl
  apply pruned_erase s _ traced p n before after split
  · intro q
    rw [children_setParent, children_setChildren, rest]
    by_cases here : q = p
    · subst here
      rw [if_pos ⟨rfl, known⟩, if_pos rfl]
    · rw [if_neg (fun both => here both.1.symm), if_neg here]
  · intro c
    rw [parent_setParent, parent_setChildren, size_setChildren]
    by_cases here : c = n
    · subst here
      rw [if_pos ⟨rfl, child⟩, if_pos rfl]
    · rw [if_neg (fun both => here both.1.symm), if_neg here]

theorem WellLinked.remove {s : Store} (linked : s.WellLinked) (n : NodeId) :
    (s.remove n).WellLinked := by
  rw [Store.remove]
  split
  · exact linked
  · next p _ =>
    split
    · exact linked
    · next k found =>
      obtain ⟨before, after, split, place, _⟩ := indexOf_eq_some s p n k found
      exact linked.prune (pruned_remove s linked.traced p n k before after split place)

/-- In a well linked store every parent lists its children, so a replacement is done unless the node
is detached. -/
theorem WellLinked.replace_eq {s : Store} (linked : s.WellLinked) (old n p : NodeId)
    (edge : s.parent old = some p) :
    ∃ before after, s.children p = before ++ old :: after ∧
      s.replace old n = .done
        (if n = old then s.link p n fun children => children.set before.length n
          else (s.link p n fun children => children.set before.length n).setParent old none) := by
  obtain ⟨k, found⟩ := indexOf_of_mem s p old (linked.mem_children p old edge)
  obtain ⟨before, after, split, place, _⟩ := indexOf_eq_some s p old k found
  refine ⟨before, after, split, ?_⟩
  simp only [Store.replace, edge, found, place]

theorem set_middle (before after : List NodeId) (old n : NodeId) :
    (before ++ old :: after).set before.length n = before ++ n :: after := by
  rw [List.set_append_right _ _ (Nat.le_refl _), Nat.sub_self]
  rfl

theorem WellLinked.link_self {s : Store} (linked : s.WellLinked) (n p : NodeId)
    (before after : List NodeId) (edge : s.parent n = some p)
    (split : s.children p = before ++ n :: after) :
    (s.link p n fun children => children.set before.length n).WellLinked := by
  apply linked.congr
  · intro q
    rw [children_link]
    split
    · next here => rw [← here.1, split, set_middle]
    · rfl
  · intro c
    rw [parent_link]
    split
    · next here => rw [← here.1, edge]
    · rfl

/-- A detached node is put in the place of another one, which is thereby taken out. -/
theorem WellLinked.link_over {s : Store} (linked : s.WellLinked) (old n p : NodeId)
    (before after : List NodeId) (edge : s.parent old = some p)
    (split : s.children p = before ++ old :: after) (other : n ≠ old) (known : n < s.size)
    (free : s.parent n = none) (apart : ¬ (old = n ∨ s.Above n old)) :
    ((s.link p n fun children => children.set before.length n).setParent old none).WellLinked := by
  have parentKnown := lt_size_of_mem_children s p old (linked.mem_children p old edge)
  have pruned := pruned_remove s linked.traced p old before.length before after split rfl
  refine @WellLinked.graft _ _ p n (before ++ n :: after) (linked.prune pruned) ⟨?_, ?_, ?_⟩ ?_ ?_
  · rw [pruned.children, if_pos rfl]
    exact List.perm_middle
  · intro q
    rw [children_setParent, children_link, pruned.children]
    by_cases here : q = p
    · subst here
      rw [if_pos ⟨rfl, parentKnown⟩, if_pos rfl, split, set_middle]
    · rw [if_neg (fun both => here both.1.symm), if_neg here, if_neg here]
  · intro c
    rw [parent_setParent, parent_link, size_link, parent_setParent, parent_setChildren,
      size_setChildren]
    by_cases here : c = n
    · subst here
      rw [if_neg (fun both => other both.1.symm), if_pos ⟨rfl, known⟩, if_pos rfl]
    · simp only [here, Ne.symm here, false_and, if_false]
  · rw [parent_setParent, parent_setChildren, if_neg (fun both => other both.1.symm)]
    exact free
  · have shrunk : ∀ a i, _ → s.Above a i :=
      Relation.TransGen.mono fun q c up => (pruned.parent_eq c q up).1
    rintro (rfl | above)
    · exact apart (Or.inr (Relation.TransGen.single edge))
    · exact apart (Or.inr (Relation.TransGen.tail (shrunk n p above) edge))

theorem WellLinked.replace {s t : Store} (linked : s.WellLinked) (old n : NodeId)
    (done : s.replace old n = .done t)
    (allowed : n = old ∨ (n < s.size ∧ s.parent n = none ∧ ¬ (old = n ∨ s.Above n old))) :
    t.WellLinked := by
  cases edge : s.parent old with
  | none =>
      simp only [Store.replace, edge] at done
      cases done
  | some p =>
      obtain ⟨before, after, split, result⟩ := linked.replace_eq old n p edge
      rw [result] at done
      cases done
      by_cases same : n = old
      · subst same
        rw [if_pos rfl]
        exact linked.link_self n p before after edge split
      · rw [if_neg same]
        obtain ⟨known, free, apart⟩ := allowed.resolve_left same
        exact linked.link_over old n p before after edge split same known free apart

end HtmlTree.Store
