import HtmlTree.Html.Fault

/-! The tokens of an HTML text. White space in text stands in tokens of its own where the lexer
splits it off. -/

namespace HtmlTree.Html

structure Tag where
  name : String
  attrs : List (String × String)
  selfClosing : Bool
  deriving DecidableEq, Repr

namespace Tag

def implied (name : String) : Tag := ⟨name, [], false⟩

def attr? (t : Tag) (name : String) : Option String := t.attrs.lookup name

end Tag

structure Doctype where
  name : String
  publicId : Option String
  systemId : Option String
  correct : Bool
  deriving DecidableEq, Repr

inductive Token where
  | startTag (tag : Tag)
  | endTag (name : String)
  | characters (text : String)
  | spaces (text : String)
  | comment (data : String)
  | doctype (d : Doctype)
  deriving DecidableEq, Repr

/-- What the lexer puts out: tokens, and faults between them. -/
inductive Item where
  | token (t : Token)
  | fault (f : Fault)
  deriving DecidableEq, Repr

end HtmlTree.Html
