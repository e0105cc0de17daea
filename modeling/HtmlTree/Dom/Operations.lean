import HtmlTree.Dom.Attributes
import HtmlTree.Dom.Compare
import HtmlTree.Dom.Edit
import HtmlTree.Dom.Preorder

/-! The tree operations on whatever a caller hands over. What cannot work fails before anything is
changed. -/

namespace HtmlTree.Operand

def appendTo (s : Store) (parent node : Operand) : Except TreeFailure (NodeId × Store) := do
  let p ← parent.container s
  let n ← node.linked
  return (n, s.append p n)

def prependTo (s : Store) (parent node : Operand) : Except TreeFailure (NodeId × Store) := do
  let p ← parent.container s
  let n ← node.linked
  return (n, s.prepend p n)

/-- Nothing comes of replacing a node without a parent, or one that its parent does not list. -/
def replaceBy (s : Store) (old node : Operand) :
    Except TreeFailure (Logged (Option NodeId × Store)) := do
  let o ← old.linked
  match s.replace o (node.node?.getD o) with
  | .detached => return ⟨(none, s), []⟩
  | .unlisted p => return ⟨(none, s), [← s.unlistedRecord o p]⟩
  | .done s' =>
    let n ← node.linked
    return ⟨(some n, s'), []⟩

def removeFrom (s : Store) (node : Operand) : Except TreeFailure (NodeId × Store) := do
  let n ← node.linked
  return (n, s.remove n)

def text (s : Store) (node : Operand) : Except TreeFailure String := do s.textOf (← node.linked)

def setText (s : Store) (node : Operand) (value : Option String) :
    Except TreeFailure (NodeId × Store) := do
  let n ← node.container s
  return (n, s.setText n (value.getD ""))

def attributes (s : Store) : Operand → List (String × String)
  | .node i => s.attributesOf i
  | .value _ => []

def getAttribute (s : Store) (name : String) : Operand → Option String
  | .node i => s.getAttribute i name
  | .value _ => none

def setAttribute (s : Store) (name value : String) : Operand → Store
  | .node i => s.setAttribute i name value
  | .value _ => s

def removeAttribute (s : Store) (name : String) : Operand → Store
  | .node i => s.removeAttribute i name
  | .value _ => s

def isEqual (s : Store) (node other : Operand) : Except TreeFailure Bool := do
  let n ← node.linked
  return other.node?.any (s.isEqualNode n)

/-- Nothing is contained anywhere; other plain values cannot be asked for their parents. -/
def contains (s : Store) (node other : Operand) : Except TreeFailure Bool := do
  let n ← node.linked
  match other with
  | .node i => return s.contains n i
  | .value .null => return false
  | .value _ => throw .notNode

def indexOf (s : Store) (node other : Operand) : Except TreeFailure (Option Nat) := do
  let n ← node.linked
  return other.node?.bind (s.indexOf n)

def lister (s : Store) (node : Operand) : Except TreeFailure NodeId := do
  let n ← node.linked
  if s.isContainer n then return n else throw .noChildList

def describe (s : Store) : Operand → Except TreeFailure String
  | .node i =>
    match s.describe i with
    | some shown => .ok shown
    | none => .error .notShown
  | .value v => .ok v.describe

end HtmlTree.Operand
