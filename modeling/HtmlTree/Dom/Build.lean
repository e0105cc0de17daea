import HtmlTree.Dom.Attributes
import HtmlTree.Dom.Edit
import HtmlTree.Dom.Normalize
import HtmlTree.Html.Parsed

/-! Parsed trees put into a store. Nodes of kinds that trees do not have are left out with all below
them; sections count as text. What is still to be put in waits on a stack, so that a round fills one
node's list and leaves the lists of its children for later. -/

namespace HtmlTree

namespace Html.Parsed

def content? : Parsed → Option Content
  | element tag space attrs _ => some (.element tag space (Attr.ofPairs attrs))
  | text data => some (.text (some data))
  | cdata data => some (.text (some data))
  | comment data => some (.comment data)
  | doctype name publicId systemId =>
    some (.doctype (name.getD "") (publicId.getD "") (systemId.getD ""))
  | other _ _ => none

def children : Parsed → List Parsed
  | element _ _ _ children => children
  | other _ children => children
  | _ => []

mutual

def size : Parsed → Nat
  | element _ _ _ children => 1 + sizeAll children
  | other _ children => 1 + sizeAll children
  | _ => 1

def sizeAll : List Parsed → Nat
  | [] => 0
  | t :: ts => size t + sizeAll ts

end

end Html.Parsed

namespace Store

open Html (Parsed)

/-- Trees still to be put in, each list with the node it goes under. -/
abbrev Backlog := List (NodeId × List Parsed)

def attach (s : Store) (p : NodeId) (c : Content) : NodeId × Store :=
  let (i, s) := s.make c
  (i, s.append p i)

def attachAll (p : NodeId) : List Parsed → Store → Backlog → Store × Backlog
  | [], s, pending => (s, pending)
  | t :: ts, s, pending =>
    match t.content? with
    | none => attachAll p ts s pending
    | some c =>
      let (i, s) := s.attach p c
      let waits := c.isElement && !t.children.isEmpty
      attachAll p ts s (if waits then (i, t.children) :: pending else pending)

def fillLoop : Nat → Store → Backlog → Store
  | 0, s, _ => s
  | _ + 1, s, [] => s
  | fuel + 1, s, (p, ts) :: pending =>
    let (s, pending) := attachAll p ts s pending
    fillLoop fuel s pending

def fill (s : Store) (p : NodeId) (ts : List Parsed) : Store :=
  fillLoop (Parsed.sizeAll ts + 2) s [(p, ts)]

/-- A new document or fragment that holds the trees, with texts merged. -/
def ofParsed (s : Store) (root : Content) (ts : List Parsed) : NodeId × Store :=
  let (i, s) := s.make root
  (i, (s.fill i ts).normalize i)

end Store

end HtmlTree
