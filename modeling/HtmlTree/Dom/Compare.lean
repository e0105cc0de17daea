import HtmlTree.Dom.Store

/-! Equality of trees, and ancestry. -/

namespace HtmlTree.Store

/-- The same content at the nodes and equal children, followed down to a depth. -/
def sameTree (s : Store) : Nat → NodeId → NodeId → Bool
  | 0, _, _ => false
  | depth + 1, a, b =>
    s.content a == s.content b && (s.children a).length == (s.children b).length &&
      ((s.children a).zip (s.children b)).all fun pair => sameTree s depth pair.1 pair.2

def isEqualNode (s : Store) (a b : NodeId) : Bool := s.sameTree (s.size + 1) a b

/-- Whether a node is met on the way up from another one, in at most so many steps. -/
def climb (s : Store) (a : NodeId) : Nat → Option NodeId → Bool
  | _, none => false
  | 0, some _ => false
  | steps + 1, some i => i == a || climb s a steps (s.parent i)

def contains (s : Store) (a b : NodeId) : Bool := s.climb a (s.size + 1) (some b)

/-- The parts of a document: its doctype, its root element, and the root's head and body. -/
structure Landmarks where
  doctype : Option NodeId
  root : Option NodeId
  head : Option NodeId
  body : Option NodeId
  deriving DecidableEq, Repr

def hasTag (s : Store) (tag : String) (i : NodeId) : Bool :=
  match s.content i with
  | .element t _ _ => t = tag
  | _ => false

def landmarks (s : Store) (i : NodeId) : Landmarks :=
  let root := (s.children i).find? s.isElement
  let under (tag : String) : Option NodeId :=
    root.bind fun r => (s.children r).find? (s.hasTag tag)
  ⟨(s.children i).find? fun c => (s.content c).isDoctype, root, under "head", under "body"⟩

end HtmlTree.Store
