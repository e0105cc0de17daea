import HtmlTree.Dom.Failure

/-! A node and everything below it, in document order. The walk keeps the nodes still to be listed
on a stack; a node listed by several parents appears once for each. What is found goes behind what a
caller has found before. -/

namespace HtmlTree.Store

def flattenLoop (s : Store) : Nat → List NodeId → List NodeId → List NodeId
  | 0, _, done => done.reverse
  | _ + 1, [], done => done.reverse
  | fuel + 1, i :: pending, done => flattenLoop s fuel (s.children i ++ pending) (i :: done)

def flatten (s : Store) (i : NodeId) : List NodeId := s.flattenLoop (s.reach i + 1) [i] []

def flattenOnto (s : Store) (found : List NodeId) (i : NodeId) : List NodeId :=
  s.flattenLoop (s.reach i + 1) [i] found.reverse

/-- A forest of operands, which all have to be nodes: every root is listed, and then once more with
all below it. -/
def flattenOperandsOnto (s : Store) : List NodeId → List Operand → Except TreeFailure (List NodeId)
  | found, [] => .ok found
  | found, .node i :: rest => flattenOperandsOnto s (s.flattenOnto (found ++ [i]) i) rest
  | _, .value v :: _ => .error (.cannotFlatten v.typeName)

def flattenOperandOnto (s : Store) (found : List NodeId) : Operand → Except TreeFailure (List NodeId)
  | .node i => .ok (s.flattenOnto found i)
  | .value (.list items) => s.flattenOperandsOnto found (items.map .value)
  | .value v => .error (.cannotFlatten v.typeName)

def flattenOperands (s : Store) (operands : List Operand) : Except TreeFailure (List NodeId) :=
  s.flattenOperandsOnto [] operands

def flattenOperand (s : Store) (operand : Operand) : Except TreeFailure (List NodeId) :=
  s.flattenOperandOnto [] operand

end HtmlTree.Store
