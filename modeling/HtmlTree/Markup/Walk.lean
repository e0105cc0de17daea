import HtmlTree.Dom.Attributes
import HtmlTree.Markup.Escape
import HtmlTree.Markup.Token
import HtmlTree.Tag

/-! The tokens of a tree in document order. A node that owns children is written by its contents, a
leaf by itself. Only the lists of children are followed; the one use of a parent is to tell a text
that belongs to its raw text element from one that was merely listed there. -/

namespace HtmlTree.Markup

/-- An element is void only under the HTML namespace or none. -/
def isVoidElement (tag : String) (space : Option String) : Bool :=
  (space.getD "" = "" || space = some htmlNamespace) && Tag.isVoid tag

/-- Whether a text is the child of the raw text element that lists it, by its own account. -/
def isLinkedRawText (s : Store) (text : NodeId) (container : Option NodeId) : Bool :=
  match container with
  | none => false
  | some c =>
    match s.content c with
    | .element tag _ _ => Tag.isRawText tag && s.parent text == some c
    | _ => false

namespace Walk

/-- What is still to be written: a node, with the one that lists it, or an element's end tag. -/
inductive Task where
  | enter (i : NodeId) (container : Option NodeId)
  | leave (tag : String) (space : Option String)
  deriving DecidableEq, Repr

structure State where
  rawText : Bool
  pending : List Task
  deriving DecidableEq, Repr

def tasks (children : List NodeId) (container : NodeId) : List Task :=
  children.map fun c => .enter c (some container)

def textTokens (s : Store) (escape rawText : Bool) (i : NodeId) (container : Option NodeId)
    (value : String) : List Token :=
  if rawText && escape && !isLinkedRawText s i container then Token.ofText (escapeString value)
  else Token.ofText value

def optional (text : String) : Option String := if text = "" then none else some text

def enter (s : Store) (escape : Bool) (i : NodeId) (container : Option NodeId) (w : State) :
    List Token × State :=
  match s.content i with
  | .element tag space attrs =>
    let pairs := Attr.toPairs attrs
    if isVoidElement tag space then
      (.emptyTag tag space pairs ::
        (if (s.children i).isEmpty then [] else [.problem "Void element has children"]), w)
    else
      ([.startTag tag space pairs],
        ⟨w.rawText || Tag.isRawText tag, tasks (s.children i) i ++ .leave tag space :: w.pending⟩)
  | .text value => (textTokens s escape w.rawText i container (value.getD ""), w)
  | .comment data => ([.comment data], w)
  | .doctype name publicId systemId => ([.doctype name (optional publicId) (optional systemId)], w)
  | .document | .fragment => ([], { w with pending := tasks (s.children i) i ++ w.pending })
  | .alien name => ([.problem ("Unknown node type: " ++ name)], w)

def step (s : Store) (escape : Bool) (w : State) : Option (List Token × State) :=
  match w.pending with
  | [] => none
  | .leave tag space :: pending =>
    some ([.endTag tag space], ⟨w.rawText && !Tag.isRawText tag, pending⟩)
  | .enter i container :: pending => some (enter s escape i container { w with pending })

def run (s : Store) (escape : Bool) : Nat → State → List Token
  | 0, _ => []
  | fuel + 1, w =>
    match step s escape w with
    | none => []
    | some (found, w) => found ++ run s escape fuel w

def start (s : Store) (root : NodeId) : State :=
  if s.isContainer root then ⟨false, tasks (s.children root) root⟩
  else ⟨false, [.enter root none]⟩

end Walk

/-- The tokens of a node. With the flag, text that would be written raw is escaped unless it is
linked to its raw text element. -/
def tokens (s : Store) (root : NodeId) (escape : Bool) : List Token :=
  Walk.run s escape (2 * s.reach root + 1) (Walk.start s root)

end HtmlTree.Markup
