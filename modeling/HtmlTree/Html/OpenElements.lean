import HtmlTree.Html.Arena

/-! The stack of open elements, innermost first, and the scopes in it. -/

namespace HtmlTree.Html

structure Open where
  id : Nat
  name : String
  space : Space
  deriving DecidableEq, Repr

namespace Open

def isHtml (o : Open) (name : String) : Bool := o.space.normal == .html && o.name == name

def isOneOf (o : Open) (names : List String) : Bool :=
  o.space.normal == .html && names.contains o.name

end Open

inductive Scope where
  | plain
  | button
  | list
  | table
  | select
  deriving DecidableEq, Repr

def scopingTags : List String :=
  ["applet", "caption", "html", "marquee", "object", "table", "td", "th"]

def isTextPoint (o : Open) : Bool :=
  o.space == .mathml && ["mi", "mo", "mn", "ms", "mtext"].contains o.name

def isScoping (o : Open) : Bool :=
  o.isOneOf scopingTags || isTextPoint o || (o.space == .mathml && o.name == "annotation-xml") ||
    (o.space == .svg && ["foreignObject", "desc", "title"].contains o.name)

/-- Whether an element ends a look that did not find what it was after. -/
def Scope.stops (scope : Scope) (o : Open) : Bool :=
  match scope with
  | .plain => isScoping o
  | .button => isScoping o || o.isHtml "button"
  | .list => isScoping o || o.isOneOf ["ol", "ul"]
  | .table => o.isOneOf ["html", "table"]
  | .select => !o.isOneOf ["optgroup", "option"]

def findInScope (scope : Scope) (wanted : Open → Bool) : List Open → Bool
  | [] => false
  | o :: rest => wanted o || (!scope.stops o && findInScope scope wanted rest)

def specialTags : List String :=
  ["address", "applet", "area", "article", "aside", "base", "basefont", "bgsound", "blockquote",
   "body", "br", "button", "caption", "center", "col", "colgroup", "command", "dd", "details",
   "dir", "div", "dl", "dt", "embed", "fieldset", "figure", "footer", "form", "frame", "frameset",
   "h1", "h2", "h3", "h4", "h5", "h6", "head", "header", "hr", "html", "iframe", "image", "img",
   "input", "isindex", "li", "link", "listing", "marquee", "menu", "meta", "nav", "noembed",
   "noframes", "noscript", "object", "ol", "p", "param", "plaintext", "pre", "script", "section",
   "select", "style", "table", "tbody", "td", "textarea", "tfoot", "th", "thead", "title", "tr",
   "ul", "wbr", "xmp"]

def isSpecial (o : Open) : Bool :=
  o.isOneOf specialTags || (o.space == .svg && o.name == "foreignObject")

def headingTags : List String := ["h1", "h2", "h3", "h4", "h5", "h6"]

/-- Elements in which only rows, cells and the like may stand; anything else goes elsewhere. -/
def tableContextTags : List String := ["table", "tbody", "tfoot", "thead", "tr"]

def impliedEndTags : List String := ["dd", "dt", "li", "option", "optgroup", "p", "rp", "rt"]

def dropImplied (except : Option String) : List Open → List Open
  | [] => []
  | o :: rest =>
    if impliedEndTags.contains o.name && some o.name ≠ except then dropImplied except rest
    else o :: rest

def popThrough (wanted : Open → Bool) : List Open → List Open
  | [] => []
  | o :: rest => if wanted o then rest else popThrough wanted rest

def popTo (wanted : Open → Bool) : List Open → List Open
  | [] => []
  | o :: rest => if wanted o then o :: rest else popTo wanted rest

end HtmlTree.Html
