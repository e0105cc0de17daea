import HtmlTree.Dom.Failure

/-! The attributes of an element, an ordered list. Nodes that are no elements have none and are left
as they are. -/

namespace HtmlTree

namespace Attr

/-- Gives the first attribute of the name a value, or adds one at the end. -/
def assign (name value : String) : List Attr → List Attr
  | [] => [⟨name, value⟩]
  | a :: attrs =>
    if a.name = name then ⟨a.name, value⟩ :: attrs else a :: assign name value attrs

def drop (name : String) : List Attr → List Attr
  | [] => []
  | a :: attrs => if a.name = name then attrs else a :: drop name attrs

def value? (name : String) (attrs : List Attr) : Option String :=
  (attrs.find? fun a => a.name = name).map (·.value)

def toPairs (attrs : List Attr) : List (String × String) :=
  collect (attrs.map fun a => (a.name, a.value))

def ofPairs (pairs : List (String × String)) : List Attr :=
  pairs.map fun pair => ⟨pair.1, pair.2⟩

end Attr

namespace Store

def setAttrs (s : Store) (i : NodeId) (attrs : List Attr) : Store :=
  match s.content i with
  | .element tag space _ => s.setContent i (.element tag space attrs)
  | _ => s

def attributesOf (s : Store) (i : NodeId) : List (String × String) :=
  Attr.toPairs (s.content i).attrs

def getAttribute (s : Store) (i : NodeId) (name : String) : Option String :=
  Attr.value? name (s.content i).attrs

def setAttribute (s : Store) (i : NodeId) (name value : String) : Store :=
  s.setAttrs i (Attr.assign name value (s.content i).attrs)

def removeAttribute (s : Store) (i : NodeId) (name : String) : Store :=
  s.setAttrs i (Attr.drop name (s.content i).attrs)

end Store

end HtmlTree
