import HtmlTree.Text.Quoted

/-! The nodes of a tree. Documents, fragments and elements own an ordered list of children; all
other nodes are leaves. The parent of a node is a reference back and no more. -/

namespace HtmlTree

abbrev NodeId := Nat

def htmlNamespace : String := "http://www.w3.org/1999/xhtml"

structure Attr where
  name : String
  value : String
  deriving DecidableEq, Repr

namespace Attr

def describe (a : Attr) : String :=
  "Attr(name=" ++ Text.quoted a.name ++ ", value=" ++ Text.quoted a.value ++ ")"

end Attr

inductive Content where
  | document
  | fragment
  | element (tag : String) (space : Option String) (attrs : List Attr)
  | text (value : Option String)
  | comment (data : String)
  | doctype (name publicId systemId : String)
  | alien (name : String)
  deriving DecidableEq, Repr

namespace Content

def isContainer : Content → Bool
  | document | fragment | element .. => true
  | _ => false

def isElement : Content → Bool
  | element .. => true
  | _ => false

def isText : Content → Bool
  | text _ => true
  | _ => false

def isDoctype : Content → Bool
  | doctype .. => true
  | _ => false

def attrs : Content → List Attr
  | element _ _ attrs => attrs
  | _ => []

/-- The number of the kind; kinds the library does not know have the seventh. -/
def typeNumber : Content → Nat
  | element .. => 1
  | text _ => 3
  | alien _ => 7
  | comment _ => 8
  | document => 9
  | doctype .. => 10
  | fragment => 11

def name : Content → String
  | element tag _ _ => tag
  | text _ => "#text"
  | alien name => name
  | comment _ => "#comment"
  | document => "#document"
  | doctype .. => "#documentType"
  | fragment => "#document-fragment"

def kindName : Content → String
  | element .. => "Element"
  | text _ => "Text"
  | alien _ => "Alien"
  | comment _ => "Comment"
  | document => "Document"
  | doctype .. => "DocumentType"
  | fragment => "DocumentFragment"

/-- How messages show a node: a text by its first twenty characters. A text without a value cannot
be shown. -/
def describe (c : Content) (children : Nat) : Option String :=
  match c with
  | element tag _ attrs =>
    some ("<Element " ++ tag ++ " attrs=" ++ toString attrs.length ++ " children=" ++
      toString children ++ ">")
  | text (some value) =>
    some ("<Text " ++ Text.quoted (String.ofList (value.toList.take 20)) ++ ">")
  | text none => none
  | c => some ("<" ++ c.kindName ++ " " ++ c.name ++ ">")

end Content

structure Node where
  content : Content
  parent : Option NodeId
  children : List NodeId
  deriving DecidableEq, Repr

namespace Node

def detached (content : Content) : Node := ⟨content, none, []⟩

end Node

end HtmlTree
