import HtmlTree.Dom.Edit

/-! What a store holds after a change, read field by field. A change at a number that no node has
changes nothing. -/

namespace HtmlTree.Store

theorem node_modify (s : Store) (i j : NodeId) (f : Node → Node) :
    (s.modify i f).node j = if i = j ∧ j < s.size then f (s.node j) else s.node j := by
  simp only [modify, node, Array.getElem?_modify]
  by_cases same : i = j
  · subst same
    by_cases bound : i < s.size
    · have found : s.nodes[i]? = some s.nodes[i] := Array.getElem?_eq_getElem bound
      simp only [found, bound, and_self, if_true, Option.map_some, Option.getD_some]
    · have absent : s.nodes[i]? = none := Array.getElem?_eq_none (Nat.le_of_not_lt bound)
      simp only [absent, bound, and_false, if_true, if_false, Option.map_none]
  · simp only [same, false_and, if_false]

@[simp] theorem size_modify (s : Store) (i : NodeId) (f : Node → Node) :
    (s.modify i f).size = s.size := Array.size_modify

@[simp] theorem size_setContent (s : Store) (i : NodeId) (c : Content) :
    (s.setContent i c).size = s.size := size_modify s i _

@[simp] theorem size_setParent (s : Store) (i : NodeId) (p : Option NodeId) :
    (s.setParent i p).size = s.size := size_modify s i _

@[simp] theorem size_setChildren (s : Store) (i : NodeId) (cs : List NodeId) :
    (s.setChildren i cs).size = s.size := size_modify s i _

theorem node_of_size_le (s : Store) (i : NodeId) (bound : s.size ≤ i) :
    s.node i = .detached (.alien "") := by
  simp only [node, Array.getElem?_eq_none bound, Option.getD_none]

theorem node_eq {s t : Store} {i : NodeId} (content : t.content i = s.content i)
    (parent : t.parent i = s.parent i) (children : t.children i = s.children i) :
    t.node i = s.node i := by
  have whole : ∀ v : Store, v.node i = ⟨v.content i, v.parent i, v.children i⟩ := fun _ => rfl
  rw [whole, whole, content, parent, children]

theorem parent_modify (s : Store) (i j : NodeId) (f : Node → Node)
    (kept : (f (s.node i)).parent = (s.node i).parent) :
    (s.modify i f).parent j = s.parent j := by
  simp only [parent, node_modify]
  split
  · next here => rw [← here.1, kept]
  · rfl

theorem children_modify (s : Store) (i j : NodeId) (f : Node → Node)
    (kept : (f (s.node i)).children = (s.node i).children) :
    (s.modify i f).children j = s.children j := by
  simp only [children, node_modify]
  split
  · next here => rw [← here.1, kept]
  · rfl

theorem content_modify (s : Store) (i j : NodeId) (f : Node → Node)
    (kept : (f (s.node i)).content = (s.node i).content) :
    (s.modify i f).content j = s.content j := by
  simp only [content, node_modify]
  split
  · next here => rw [← here.1, kept]
  · rfl

@[simp] theorem parent_setContent (s : Store) (i j : NodeId) (c : Content) :
    (s.setContent i c).parent j = s.parent j := parent_modify s i j _ rfl

@[simp] theorem children_setContent (s : Store) (i j : NodeId) (c : Content) :
    (s.setContent i c).children j = s.children j := children_modify s i j _ rfl

@[simp] theorem content_setParent (s : Store) (i j : NodeId) (p : Option NodeId) :
    (s.setParent i p).content j = s.content j := content_modify s i j _ rfl

@[simp] theorem children_setParent (s : Store) (i j : NodeId) (p : Option NodeId) :
    (s.setParent i p).children j = s.children j := children_modify s i j _ rfl

@[simp] theorem content_setChildren (s : Store) (i j : NodeId) (cs : List NodeId) :
    (s.setChildren i cs).content j = s.content j := content_modify s i j _ rfl

@[simp] theorem parent_setChildren (s : Store) (i j : NodeId) (cs : List NodeId) :
    (s.setChildren i cs).parent j = s.parent j := parent_modify s i j _ rfl

theorem content_setContent (s : Store) (i j : NodeId) (c : Content) :
    (s.setContent i c).content j = if i = j ∧ j < s.size then c else s.content j := by
  simp only [setContent, content, node_modify]
  split <;> rfl

theorem setContent_content (s : Store) (i : NodeId) : s.setContent i (s.content i) = s := by
  have same : s.nodes.modify i (fun n => { n with content := s.content i }) = s.nodes := by
    apply Array.ext_getElem?
    intro j
    rw [Array.getElem?_modify]
    split
    · next here =>
      subst here
      cases found : s.nodes[i]? with
      | none => rfl
      | some n => simp [content, node, found]
    · rfl
  rw [setContent, modify, same]

theorem setContent_setContent (s : Store) (i : NodeId) (first second : Content) :
    (s.setContent i first).setContent i second = s.setContent i second := by
  have same : (s.nodes.modify i fun n => { n with content := first }).modify i
      (fun n => { n with content := second }) =
        s.nodes.modify i fun n => { n with content := second } := by
    apply Array.ext_getElem?
    intro j
    by_cases here : i = j
    · simp [Array.getElem?_modify, here, Function.comp_def]
    · simp [Array.getElem?_modify, here]
  rw [setContent, setContent, setContent, modify, modify, modify, same]

theorem parent_setParent (s : Store) (i j : NodeId) (p : Option NodeId) :
    (s.setParent i p).parent j = if i = j ∧ j < s.size then p else s.parent j := by
  simp only [setParent, parent, node_modify]
  split <;> rfl

theorem children_setChildren (s : Store) (i j : NodeId) (cs : List NodeId) :
    (s.setChildren i cs).children j = if i = j ∧ j < s.size then cs else s.children j := by
  simp only [setChildren, children, node_modify]
  split <;> rfl

@[simp] theorem make_fst (s : Store) (c : Content) : (s.make c).1 = s.size := rfl

@[simp] theorem size_make (s : Store) (c : Content) : (s.make c).2.size = s.size + 1 :=
  Array.size_push _

theorem node_make (s : Store) (c : Content) (i : NodeId) :
    (s.make c).2.node i = if i = s.size then .detached c else s.node i := by
  change ((s.nodes.push (.detached c))[i]?).getD _ = if i = s.nodes.size then _ else _
  rw [Array.getElem?_push]
  split
  · exact Option.getD_some
  · rfl

theorem content_make (s : Store) (c : Content) (i : NodeId) :
    (s.make c).2.content i = if i = s.size then c else s.content i := by
  simp only [content, node_make]
  split <;> rfl

@[simp] theorem parent_make (s : Store) (c : Content) (i : NodeId) :
    (s.make c).2.parent i = s.parent i := by
  simp only [parent, node_make]
  split
  · next fresh => rw [node_of_size_le s i (Nat.le_of_eq fresh.symm)]; rfl
  · rfl

@[simp] theorem children_make (s : Store) (c : Content) (i : NodeId) :
    (s.make c).2.children i = s.children i := by
  simp only [children, node_make]
  split
  · next fresh => rw [node_of_size_le s i (Nat.le_of_eq fresh.symm)]; rfl
  · rfl

theorem lt_size_of_parent (s : Store) (i p : NodeId) (attached : s.parent i = some p) :
    i < s.size := by
  apply Nat.lt_of_not_le
  intro outside
  rw [parent, node_of_size_le s i outside] at attached
  cases attached

theorem lt_size_of_mem_children (s : Store) (p c : NodeId) (member : c ∈ s.children p) :
    p < s.size := by
  apply Nat.lt_of_not_le
  intro outside
  rw [children, node_of_size_le s p outside] at member
  cases member

theorem lt_size_of_isContainer (s : Store) (i : NodeId) (container : s.isContainer i = true) :
    i < s.size := by
  apply Nat.lt_of_not_le
  intro outside
  rw [isContainer, content, node_of_size_le s i outside] at container
  cases container

theorem lt_size_of_element {s : Store} {i : NodeId} {tag : String} {space : Option String}
    {attrs : List Attr} (element : s.content i = .element tag space attrs) : i < s.size := by
  apply s.lt_size_of_isContainer
  rw [isContainer, element]
  rfl

theorem children_of_size (s : Store) : s.children s.size = [] := by
  rw [children, node_of_size_le s s.size (Nat.le_refl _)]
  rfl

end HtmlTree.Store
