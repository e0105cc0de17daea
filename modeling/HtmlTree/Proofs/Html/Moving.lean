import HtmlTree.Proofs.Html.Arena
import Mathlib.Data.List.TakeDrop

/-! What becomes of the tree that a parse builds when a node that is in it already is put somewhere
else: only that node's place changes, and everything keeps what it is. -/

namespace HtmlTree.Html

def Part.tag? : Part → Option String
  | .element name _ _ => some name
  | _ => none

namespace Arena

def tag? (a : Arena) (i : Nat) : Option String := (a.part i).tag?

variable {a b c : Arena} {i p : Nat}

theorem cell_of_size_le (bound : a.size ≤ i) : a.cell i = ⟨.document, none, #[]⟩ := by
  rw [cell, Array.getElem?_eq_none bound, Option.getD_none]

theorem lt_size_of_tag {tag : String} (tagged : a.tag? i = some tag) : i < a.size := by
  apply Nat.lt_of_not_le
  intro bound
  rw [tag?, part, cell_of_size_le bound] at tagged
  cases tagged

theorem lt_size_of_parent {q : Nat} (attached : a.parent i = some q) : i < a.size := by
  apply Nat.lt_of_not_le
  intro bound
  rw [parent, cell_of_size_le bound] at attached
  cases attached

theorem lt_size_of_listed {x : Nat} (inside : x ∈ a.listed i) : i < a.size := by
  apply Nat.lt_of_not_le
  intro bound
  rw [listed, children, cell_of_size_le bound] at inside
  cases inside

theorem listed_modify (a : Arena) (i j : Nat) (f : Cell → Cell) :
    (a.modify i f).listed j =
      if i = j ∧ j < a.size then (f (a.cell j)).children.toList else a.listed j := by
  rw [listed, children, cell_modify]
  split <;> rfl

theorem parent_modify (a : Arena) (i j : Nat) (f : Cell → Cell) :
    (a.modify i f).parent j = if i = j ∧ j < a.size then (f (a.cell j)).parent else a.parent j := by
  rw [parent, cell_modify]
  split <;> rfl

theorem part_modify (a : Arena) (i j : Nat) (f : Cell → Cell) (same : ∀ c, (f c).part = c.part) :
    (a.modify i f).part j = a.part j := by
  rw [part, cell_modify]
  split
  · exact same _
  · rfl

/-- One node was given another place. -/
structure Moved (a : Arena) (i p : Nat) (b : Arena) : Prop where
  size : b.size = a.size
  part : ∀ j, b.part j = a.part j
  others : ∀ x j, x ≠ i → (x ∈ b.listed j ↔ x ∈ a.listed j)
  itself : ∀ j, i ∈ b.listed j → j = p ∨ i ∈ a.listed j
  there : p < a.size → i ∈ b.listed p
  parent : ∀ j q, b.parent j = some q → (j = i ∧ q = p) ∨ a.parent j = some q
  attached : ∀ j, (a.parent j).isSome → (b.parent j).isSome
  here : i < a.size → b.parent i = some p

theorem Moved.tag? (moved : Moved a i p b) (j : Nat) : b.tag? j = a.tag? j := by
  rw [Arena.tag?, moved.part, ← Arena.tag?]

theorem size_detach (a : Arena) (i : Nat) : (a.detach i).size = a.size := by
  rw [detach]
  split
  · rfl
  · rw [size_modify, size_modify]

theorem part_detach (a : Arena) (i j : Nat) : (a.detach i).part j = a.part j := by
  rw [detach]
  split
  · rfl
  · rw [part_modify, part_modify]
    · exact fun _ => rfl
    · exact fun _ => rfl

theorem parent_detach (a : Arena) (i j : Nat) :
    (a.detach i).parent j = if j = i then none else a.parent j := by
  rw [detach]
  split
  · next loose =>
    split
    · next same => rw [same, loose]
    · rfl
  · next q attached =>
    have bound := lt_size_of_parent attached
    rw [parent_modify, size_modify]
    by_cases same : j = i
    · subst same
      rw [if_pos ⟨rfl, bound⟩, if_pos rfl]
    · rw [if_neg fun both => same both.1.symm, if_neg same, parent_modify]
      split <;> rfl

/-- Taking a node away from its parent leaves the lists of children without it, and else as they
were. -/
theorem listed_detach (a : Arena) (i j : Nat) :
    (a.detach i).listed j = a.listed j ∨ (a.detach i).listed j = ((a.children j).erase i).toList := by
  rw [detach]
  split
  · exact Or.inl rfl
  · next q _ =>
    have same : (((a.modify q fun cell => { cell with children := cell.children.erase i }).modify i
        fun cell => { cell with parent := none }).listed j) =
          (a.modify q fun cell => { cell with children := cell.children.erase i }).listed j := by
      rw [listed_modify]
      split <;> rfl
    rw [same, listed_modify]
    split
    · exact Or.inr rfl
    · exact Or.inl rfl

theorem mem_listed_detach {x : Nat} (j : Nat) (other : x ≠ i) :
    x ∈ (a.detach i).listed j ↔ x ∈ a.listed j := by
  rcases listed_detach a i j with same | erased
  · rw [same]
  · rw [erased, listed, Array.mem_toList_iff, Array.mem_toList_iff, Array.mem_erase_of_ne other]

theorem listed_detach_subset (a : Arena) (i j : Nat) : (a.detach i).listed j ⊆ a.listed j := by
  rcases listed_detach a i j with same | erased
  · rw [same]
    exact List.Subset.refl _
  · intro x inside
    rw [erased, Array.mem_toList_iff] at inside
    exact Array.mem_toList_iff.mpr (Array.mem_of_mem_erase inside)

theorem tag_make (a : Arena) (part : Part) (j : Nat) :
    (a.make part).2.tag? j = if j = a.size then part.tag? else a.tag? j := by
  rw [tag?, Arena.part, cell_make]
  split <;> rfl

theorem size_make (a : Arena) (part : Part) : (a.make part).2.size = a.size + 1 :=
  Array.size_push _

theorem listed_make (a : Arena) (part : Part) (j : Nat) :
    (a.make part).2.listed j = a.listed j := by
  rw [listed, children, cell_make]
  split
  · next new => rw [listed, children, cell_of_size_le (Nat.le_of_eq new.symm)]
  · rfl

theorem parent_make (a : Arena) (part : Part) (j : Nat) :
    (a.make part).2.parent j = a.parent j := by
  rw [parent, cell_make]
  split
  · next new => rw [parent, cell_of_size_le (Nat.le_of_eq new.symm)]
  · rfl

section Attributes

variable (a : Arena) (i j : Nat) (attrs : List BuiltAttr)

theorem size_setAttrs : (a.setAttrs i attrs).size = a.size := size_modify ..

theorem tag_setAttrs : (a.setAttrs i attrs).tag? j = a.tag? j := by
  rw [tag?, part, setAttrs, cell_modify]
  split
  · rw [tag?, part]
    obtain ⟨part, parent, children⟩ := a.cell j
    cases part <;> rfl
  · rfl

theorem listed_setAttrs : (a.setAttrs i attrs).listed j = a.listed j := by
  rw [setAttrs, listed_modify]
  split
  · rw [listed, children]
    obtain ⟨part, parent, children⟩ := a.cell j
    cases part <;> rfl
  · rfl

theorem parent_setAttrs : (a.setAttrs i attrs).parent j = a.parent j := by
  rw [setAttrs, parent_modify]
  split
  · rw [parent]
    obtain ⟨part, parent, children⟩ := a.cell j
    cases part <;> rfl
  · rfl

end Attributes

theorem moved_relink (a : Arena) (i p : Nat) (place : Array Nat → Array Nat)
    (placed : ∀ l x, x ∈ (place l).toList ↔ x = i ∨ x ∈ l.toList) :
    Moved a i p (((a.detach i).modify p fun cell =>
      { cell with children := place cell.children }).modify i fun cell =>
        { cell with parent := some p }) := by
  have kept : ∀ j, (((a.detach i).modify p fun cell =>
      { cell with children := place cell.children }).modify i fun cell =>
        { cell with parent := some p }).listed j =
      ((a.detach i).modify p fun cell => { cell with children := place cell.children }).listed j := by
    intro j
    rw [listed_modify]
    split <;> rfl
  -- The last change sets a parent only, so lists are those after the first two changes.
  constructor
  case size => rw [size_modify, size_modify, size_detach]
  case part =>
    intro j
    rw [part_modify, part_modify, part_detach]
    · exact fun _ => rfl
    · exact fun _ => rfl
  case others =>
    intro x j other
    rw [kept, listed_modify, ← mem_listed_detach j other]
    split
    · rw [placed]
      exact or_iff_right other
    · exact Iff.rfl
  case itself =>
    intro j inside
    rw [kept, listed_modify] at inside
    split at inside
    · next here => exact Or.inl here.1.symm
    · exact Or.inr (listed_detach_subset a i j inside)
  case there =>
    intro known
    rw [kept, listed_modify, if_pos ⟨rfl, (size_detach a i).symm ▸ known⟩, placed]
    exact Or.inl rfl
  case parent =>
    intro j q attached
    rw [parent_modify] at attached
    split at attached
    · next here =>
      cases attached
      exact Or.inl ⟨here.1.symm, rfl⟩
    · rw [parent_modify] at attached
      have was : (a.detach i).parent j = some q := by
        split at attached <;> exact attached
      rw [parent_detach] at was
      split at was
      · cases was
      · exact Or.inr was
  case attached =>
    intro j attached
    obtain ⟨q, was⟩ := Option.isSome_iff_exists.mp attached
    have known := lt_size_of_parent was
    rw [parent_modify, size_modify, size_detach]
    split
    · rfl
    · next other =>
      have apart : j ≠ i := fun same => other ⟨same.symm, known⟩
      rw [parent_modify]
      have still : ((a.detach i).parent j).isSome := by
        rw [parent_detach, if_neg apart]
        exact attached
      split <;> exact still
  case here =>
    intro known
    rw [parent_modify, if_pos]
    rw [size_modify, size_detach]
    exact ⟨rfl, known⟩

theorem moved_append (a : Arena) (p i : Nat) : Moved a i p (a.append p i) :=
  moved_relink a i p (·.push i) fun l x => by
    rw [Array.toList_push, List.mem_append, List.mem_singleton]
    exact or_comm

theorem moved_insertBefore (a : Arena) (p i next : Nat) : Moved a i p (a.insertBefore p i next) := by
  refine moved_relink a i p (fun children =>
    ((children.toList.span (· ≠ next)).1 ++ i :: (children.toList.span (· ≠ next)).2).toArray) ?_
  intro l x
  have whole : (l.toList.span (· ≠ next)).1 ++ (l.toList.span (· ≠ next)).2 = l.toList := by
    rw [List.span_eq_takeWhile_dropWhile]
    exact List.takeWhile_append_dropWhile
  calc x ∈ (l.toList.span (· ≠ next)).1 ++ i :: (l.toList.span (· ≠ next)).2
    _ ↔ x = i ∨ x ∈ (l.toList.span (· ≠ next)).1 ++ (l.toList.span (· ≠ next)).2 := by
        simp only [List.mem_append, List.mem_cons]
        exact or_left_comm
    _ ↔ x = i ∨ x ∈ l.toList := by rw [whole]

theorem tag_insert (a : Arena) (p : Nat) (part : Part) (j : Nat) :
    (a.insert p part).tag? j = if j = a.size then part.tag? else a.tag? j := by
  rw [insert, (moved_append _ p a.size).tag?, tag_make]

theorem new_listed_insert (known : p < a.size) (part : Part) (new : ∀ j, a.size ∉ a.listed j)
    (j : Nat) : a.size ∈ (a.insert p part).listed j ↔ p = j := by
  have moved := moved_append (a.make part).2 p a.size
  constructor
  · intro inside
    rcases moved.itself j inside with here | elsewhere
    · exact here.symm
    · rw [listed_make] at elsewhere
      exact absurd elsewhere (new j)
  · rintro rfl
    apply moved.there
    rw [size_make]
    exact Nat.lt_succ_of_lt known

/-- Elements keep their tags, and what has a parent goes on having one. -/
structure Keeps (a b : Arena) : Prop where
  tag : ∀ i name, a.tag? i = some name → b.tag? i = some name
  attached : ∀ i, (a.parent i).isSome → (b.parent i).isSome

theorem Keeps.refl (a : Arena) : Keeps a a := ⟨fun _ _ same => same, fun _ same => same⟩

theorem Keeps.trans (first : Keeps a b) (second : Keeps b c) : Keeps a c :=
  ⟨fun i name tagged => second.tag i name (first.tag i name tagged),
    fun i attached => second.attached i (first.attached i attached)⟩

theorem Moved.keeps (moved : Moved a i p b) : Keeps a b :=
  ⟨fun j _ tagged => (moved.tag? j).trans tagged, moved.attached⟩

theorem keeps_make (a : Arena) (part : Part) : Keeps a (a.make part).2 where
  tag j _ tagged := by
    rw [tag_make, if_neg (Nat.ne_of_lt (lt_size_of_tag tagged)), tagged]
  attached j attached := by
    rw [parent_make]
    exact attached

theorem keeps_setAttrs (a : Arena) (i : Nat) (attrs : List BuiltAttr) :
    Keeps a (a.setAttrs i attrs) where
  tag j _ tagged := (tag_setAttrs a i j attrs).trans tagged
  attached j attached := by
    rw [parent_setAttrs]
    exact attached

theorem moveChildren_eq (a : Arena) (source target : Nat) : a.moveChildren source target =
    (a.listed source).foldl (fun a i => a.append target i) a := by
  rw [moveChildren, listed, Array.foldl_toList]

theorem keeps_appendAll (target : Nat) (l : List Nat) : ∀ a : Arena,
    Keeps a (l.foldl (fun a i => a.append target i) a) := by
  induction l with
  | nil => exact Keeps.refl
  | cons i l ih => exact fun a => (moved_append a target i).keeps.trans (ih _)

theorem keeps_moveChildren (a : Arena) (source target : Nat) :
    Keeps a (a.moveChildren source target) := by
  rw [moveChildren_eq]
  exact keeps_appendAll target _ a

end Arena

end HtmlTree.Html
