import HtmlTree.Html.Parser

/-! The tree a parse results in, apart from the state that built it. -/

namespace HtmlTree.Html

inductive Parsed where
  | element (tag : String) (space : Option String) (attrs : List (String × String))
      (children : List Parsed)
  | text (data : String)
  | cdata (data : String)
  | comment (data : String)
  | doctype (name publicId systemId : Option String)
  /-- A node of a kind that trees do not have. -/
  | other (kind : Nat) (children : List Parsed)
  deriving Repr

namespace Arena

/-- The trees below a node, followed down to a depth. -/
def below (a : Arena) : Nat → Nat → List Parsed
  | 0, _ => []
  | depth + 1, i =>
    (a.children i).toList.map fun c =>
      match (a.cell c).part with
      | .document => .other 9 (below a depth c)
      | .element name space attrs =>
        .element name space.uri (attrs.map fun attr => (attr.name, attr.value)) (below a depth c)
      | .text value => .text value
      | .comment data => .comment data
      | .doctype name publicId systemId => .doctype name publicId systemId

def contents (a : Arena) (i : Nat) : List Parsed := a.below a.cells.size i

end Arena

namespace Parse

/-- What was parsed: all of a document, or what stands in the root element of a fragment. -/
def result (goal : Goal) (p : Parse) : List Parsed :=
  match goal with
  | .document => p.builder.arena.contents Arena.document
  | .fragment _ => p.builder.arena.contents p.builder.root.id

end Parse

end HtmlTree.Html
