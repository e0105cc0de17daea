import HtmlTree.Markup.Walk
import HtmlTree.Proofs.Dom.Attributes
import HtmlTree.Proofs.Dom.Conversion

/-! The trees that tokens can tell of. Nodes of no known kind are gone and so is all below a void
element; documents and fragments inside others have given way to what they hold; attributes are
those of a dictionary; texts are merged. -/

namespace HtmlTree

open Markup (isVoidElement)

namespace Content

/-- Whether a node's children are looked at when it is written. -/
def isOpen : Content → Bool
  | element tag space _ => !isVoidElement tag space
  | document | fragment => true
  | _ => false

def isAlien : Content → Bool
  | alien _ => true
  | _ => false

def isHolder : Content → Bool
  | document | fragment => true
  | _ => false

theorem isHolder_or_element {c : Content} (opened : c.isOpen = true) : c.isHolder = true ∨
    ∃ tag space attrs, c = .element tag space attrs ∧ isVoidElement tag space = false := by
  cases c with
  | element tag space attrs => exact Or.inr ⟨tag, space, attrs, rfl, by simpa [isOpen] using opened⟩
  | document => exact Or.inl rfl
  | fragment => exact Or.inl rfl
  | _ => cases opened

theorem isText_of_isOpen {c : Content} (opened : c.isOpen = true) : c.isText = false := by
  cases c with
  | text value => cases opened
  | _ => rfl

end Content

namespace Forest

/-- Without nodes of no known kind, and with nothing below void elements and leaves. -/
def reached : Forest Content → Forest Content
  | nil => nil
  | cons c below rest =>
    if c.isAlien then rest.reached
    else cons c (if c.isOpen then below.reached else nil) rest.reached

def spliced : Forest Content → Forest Content
  | nil => nil
  | cons c below rest =>
    if c.isHolder then below.spliced.append rest.spliced else cons c below.spliced rest.spliced

def collapsed (f : Forest Content) : Forest Content := f.map Content.collapsed

def told (f : Forest Content) : Forest Content := f.reached.spliced.collapsed

def normalForm (f : Forest Content) : Forest Content := f.told.normal

def visited : Forest Content → List (Content × Forest Content)
  | nil => []
  | cons c below rest => (c, below) :: ((if c.isOpen then below.visited else []) ++ rest.visited)

def loss? : Content × Forest Content → Option String
  | (.element tag space _, cons ..) =>
    if isVoidElement tag space then some "Void element has children" else none
  | (.alien name, _) => some ("Unknown node type: " ++ name)
  | _ => none

def losses (f : Forest Content) : List String := f.visited.filterMap loss?

theorem normalTops_append (f g : Forest Content) :
    (f.append g).normalTops = f.normalTops ++ g.normalTops := by
  rw [normalTops_eq, trees_append, List.map_append, ← normalTops_eq, ← normalTops_eq]

theorem told_alien (name : String) (below rest : Forest Content) :
    (cons (.alien name) below rest).told = rest.told := rfl

theorem told_holder {c : Content} (holder : c.isHolder = true) (below rest : Forest Content) :
    (cons c below rest).told = below.told.append rest.told := by
  cases c with
  | document => exact map_append _ _ _
  | fragment => exact map_append _ _ _
  | _ => cases holder

theorem told_element (tag : String) (space : Option String) (attrs : List Attr)
    (below rest : Forest Content) :
    (cons (.element tag space attrs) below rest).told =
      cons (.element tag space (Attr.collapse attrs))
        (if isVoidElement tag space then nil else below.told) rest.told := by
  cases void : isVoidElement tag space with
  | true => simp [told, reached, spliced, collapsed, map, Content.isAlien, Content.isOpen,
      Content.isHolder, Content.collapsed, void]
  | false => simp [told, reached, spliced, collapsed, map, Content.isAlien, Content.isOpen,
      Content.isHolder, Content.collapsed, void]

theorem told_leaf {c : Content} (leaf : c.isContainer = false) (known : c.isAlien = false)
    (below rest : Forest Content) : (cons c below rest).told = cons c nil rest.told := by
  cases c with
  | text value => rfl
  | comment data => rfl
  | doctype name publicId systemId => rfl
  | alien name => cases known
  | _ => cases leaf

theorem losses_cons (c : Content) (below rest : Forest Content) :
    (cons c below rest).losses =
      (loss? (c, below)).toList ++ ((if c.isOpen then below.losses else []) ++ rest.losses) := by
  have inside : (if c.isOpen then below.visited else []).filterMap loss? =
      if c.isOpen then below.losses else [] := by
    split <;> rfl
  rw [losses, visited, List.filterMap_cons, List.filterMap_append, inside]
  cases loss? (c, below) <;> rfl

/-- Where nothing is reported, everything is reached. -/
theorem reached_eq (f : Forest Content) (leafy : f.Leafy) (kept : f.losses = []) :
    f.reached = f := by
  induction f with
  | nil => rfl
  | cons c below rest ihBelow ihRest =>
      rw [losses_cons, List.append_eq_nil_iff, List.append_eq_nil_iff] at kept
      have beside := ihRest leafy.2.2 kept.2.2
      have known : c.isAlien = false := by
        cases c with
        | alien name => cases kept.1
        | _ => rfl
      have inside : (if c.isOpen then below.reached else nil) = below := by
        cases opened : c.isOpen with
        | true =>
            rw [opened, if_pos rfl] at kept
            rw [if_pos rfl]
            exact ihBelow leafy.2.1 kept.2.1
        | false =>
            rw [if_neg Bool.false_ne_true]
            cases c with
            | element tag space attrs =>
                have void : isVoidElement tag space = true := by
                  simpa [Content.isOpen] using opened
                cases below with
                | nil => rfl
                | cons d deeper others => simp [loss?, void] at kept
            | document => cases opened
            | fragment => cases opened
            | _ => exact (leafy.1 rfl).symm
      rw [reached, known, if_neg Bool.false_ne_true, inside, beside]

end Forest

namespace Store

def contents (s : Store) : Forest NodeId → Forest Content
  | .nil => .nil
  | .cons i below rest =>
    .cons (s.content i) (if s.isContainer i then s.contents below else .nil) (s.contents rest)

/-- What is written of a node: what it holds or, of a leaf, itself. -/
def shown (s : Store) (root : NodeId) (f : Forest NodeId) : Forest Content :=
  if s.isContainer root then s.contents f else .cons (s.content root) .nil .nil

theorem leafy_contents (s : Store) (f : Forest NodeId) : (s.contents f).Leafy := by
  induction f with
  | nil => trivial
  | cons i below rest ihBelow ihRest =>
      refine ⟨?_, ?_, ihRest⟩
      · intro leaf
        rw [isContainer, leaf, if_neg Bool.false_ne_true]
      · split
        · exact ihBelow
        · trivial

theorem leafy_shown (s : Store) (root : NodeId) (f : Forest NodeId) : (s.shown root f).Leafy := by
  rw [shown]
  split
  · exact s.leafy_contents f
  · exact ⟨fun _ => rfl, trivial, trivial⟩

end Store

end HtmlTree
