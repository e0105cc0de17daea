import HtmlTree.Dom.Store
import HtmlTree.Value

/-! What callers may hand to the tree operations, and how those can fail. -/

namespace HtmlTree

inductive Operand where
  | node (i : NodeId)
  | value (v : Value)

inductive TreeFailure where
  | notContainer (shown : String)
  | notShown
  | notNode
  | noChildList
  | cannotFlatten (type : String)
  | cannotSerialize (type : String)
  | severalChildren (node : NodeId)
  | childNotText (node : NodeId)
  deriving DecidableEq, Repr

namespace TreeFailure

def message : TreeFailure → Option String
  | notContainer shown => some (shown ++ " cannot hold child nodes")
  | cannotFlatten type => some ("Cannot flatten " ++ type)
  | cannotSerialize type => some ("Cannot serialize " ++ type)
  | severalChildren _ => some "Node must have exactly one child node"
  | childNotText _ => some "Child node must be a text node"
  | notShown | notNode | noChildList => none

end TreeFailure

namespace Operand

def node? : Operand → Option NodeId
  | node i => some i
  | value _ => none

/-- The node, which has to own children. -/
def container (s : Store) : Operand → Except TreeFailure NodeId
  | node i =>
    if s.isContainer i then .ok i
    else
      match s.describe i with
      | some shown => .error (.notContainer shown)
      | none => .error .notShown
  | value v => .error (.notContainer v.describe)

def linked : Operand → Except TreeFailure NodeId
  | node i => .ok i
  | value _ => .error .notNode

end Operand

end HtmlTree
