import HtmlTree.Dom.Node

/-! All nodes made so far, by their numbers. Nothing is ever taken out; a node outside every tree
stays. What lies outside the store reads as a leaf of no known kind. -/

namespace HtmlTree

structure Store where
  nodes : Array Node
  deriving DecidableEq, Repr

namespace Store

def empty : Store := ⟨#[]⟩

def size (s : Store) : Nat := s.nodes.size

def node (s : Store) (i : NodeId) : Node := s.nodes[i]?.getD (.detached (.alien ""))

def content (s : Store) (i : NodeId) : Content := (s.node i).content

def parent (s : Store) (i : NodeId) : Option NodeId := (s.node i).parent

def children (s : Store) (i : NodeId) : List NodeId := (s.node i).children

def isContainer (s : Store) (i : NodeId) : Bool := (s.content i).isContainer

def isElement (s : Store) (i : NodeId) : Bool := (s.content i).isElement

def isText (s : Store) (i : NodeId) : Bool := (s.content i).isText

def add (s : Store) (n : Node) : NodeId × Store := (s.size, ⟨s.nodes.push n⟩)

def make (s : Store) (c : Content) : NodeId × Store := s.add (.detached c)

def createNode (s : Store) (tag : String) : NodeId × Store :=
  s.make (.element tag (some htmlNamespace) [])

def createText (s : Store) (value : String) : NodeId × Store := s.make (.text (some value))

def modify (s : Store) (i : NodeId) (f : Node → Node) : Store := ⟨s.nodes.modify i f⟩

def setContent (s : Store) (i : NodeId) (c : Content) : Store :=
  s.modify i fun n => { n with content := c }

def setParent (s : Store) (i : NodeId) (p : Option NodeId) : Store :=
  s.modify i fun n => { n with parent := p }

def setChildren (s : Store) (i : NodeId) (cs : List NodeId) : Store :=
  s.modify i fun n => { n with children := cs }

def describe (s : Store) (i : NodeId) : Option String :=
  (s.content i).describe (s.children i).length

def indexOf (s : Store) (i child : NodeId) : Option Nat :=
  (s.children i).findIdx? (· = child)

/-- How many nodes are met when the children are followed down to a depth. -/
def extent (s : Store) : Nat → NodeId → Nat
  | 0, _ => 1
  | depth + 1, i => 1 + ((s.children i).map (s.extent depth)).foldr (· + ·) 0

def reach (s : Store) (i : NodeId) : Nat := s.extent s.size i

end Store

end HtmlTree
