import HtmlTree.Markup.Token
import HtmlTree.Tag

/-! Passes over the tokens before they are written: attributes in the order of their names, runs of
white space made one space, and tags left out where they are implied. -/

namespace HtmlTree.Markup

open Text (isSpace)

def sortAttributes : Token → Token
  | .startTag name space attrs => .startTag name space (attrs.mergeSort fun a b => a.1 ≤ b.1)
  | .emptyTag name space attrs => .emptyTag name space (attrs.mergeSort fun a b => a.1 ≤ b.1)
  | t => t

def collapseSpaces : List Char → List Char
  | [] => []
  | c :: rest =>
    if isSpace c then
      match rest with
      | [] => [' ']
      | d :: _ => if isSpace d then collapseSpaces rest else ' ' :: collapseSpaces rest
    else c :: collapseSpaces rest

def keepsSpaces (tag : String) : Bool :=
  tag = "pre" || tag = "textarea" || Tag.isRawText tag

/-- Collapses white space outside the elements that keep theirs, whose depth is counted. -/
def stripSpaces : Nat → List Token → List Token
  | _, [] => []
  | kept, t :: rest =>
    match t with
    | .startTag name _ _ =>
      t :: stripSpaces (if 0 < kept || keepsSpaces name then kept + 1 else kept) rest
    | .endTag _ _ => t :: stripSpaces (kept - 1) rest
    | .spaces _ => (if kept = 0 then .spaces " " else t) :: stripSpaces kept rest
    | .characters text =>
      (if kept = 0 then .characters (String.ofList (collapseSpaces text.toList)) else t) ::
        stripSpaces kept rest
    | _ => t :: stripSpaces kept rest

namespace OptionalTag

/-- What stands after a tag, as far as the tag's being implied depends on it. -/
inductive Next where
  | nothing
  | start (name : String)
  | empty (name : String)
  | close (name : String)
  | gap
  | other
  deriving DecidableEq, Repr

def Next.of : Option Token → Next
  | none => .nothing
  | some (.startTag name _ _) => .start name
  | some (.emptyTag name _ _) => .empty name
  | some (.endTag name _) => .close name
  | some (.spaces _) | some (.comment _) => .gap
  | some _ => .other

def isPart (part : List Char) : List Char → Bool
  | [] => part.isEmpty
  | c :: rest => part.isPrefixOf (c :: rest) || isPart part rest

def isRowGroup (name : String) : Bool := ["tbody", "thead", "tfoot"].contains name

/-- Whether a start tag without attributes is implied, given the tokens around it. A name is taken
for html when it is any part of that word. -/
def impliedStart (tag : String) (previous : Option Token) (next : Next) : Bool :=
  if isPart tag.toList ['h', 't', 'm', 'l'] then next ≠ .gap
  else if tag = "head" then
    match next with
    | .start _ | .empty _ => true
    | .close name => name = "head"
    | _ => false
  else if tag = "body" then
    match next with
    | .gap => false
    | .start name => name ≠ "script" && name ≠ "style"
    | _ => true
  else if tag = "colgroup" then next = .start "col" || next = .empty "col"
  else if tag = "tbody" then
    next = .start "tr" &&
      (match previous with
      | some (.endTag name _) => !isRowGroup name
      | _ => true)
  else false

/-- Blocks that end a paragraph. -/
def paragraphEnders : List String :=
  ["address", "article", "aside", "blockquote", "datagrid", "dialog", "dir", "div", "dl",
   "fieldset", "footer", "form", "h1", "h2", "h3", "h4", "h5", "h6", "header", "hr", "menu", "nav",
   "ol", "p", "pre", "section", "table", "ul"]

def enders : List (String × List String) :=
  [("li", ["li"]), ("optgroup", ["optgroup"]), ("tr", ["tr"]), ("dt", ["dt", "dd"]),
   ("dd", ["dt", "dd"]), ("option", ["option", "optgroup"]), ("rt", ["rt", "rp"]),
   ("rp", ["rt", "rp"]), ("thead", ["tbody", "tfoot"]), ("tbody", ["tbody", "tfoot"]),
   ("tfoot", ["tbody"]), ("td", ["td", "th"]), ("th", ["td", "th"])]

def impliedEnd (tag : String) (next : Next) : Bool :=
  if tag = "html" || tag = "head" || tag = "body" then next ≠ .gap
  else if tag = "colgroup" then
    match next with
    | .gap => false
    | .start name => name ≠ "colgroup"
    | _ => true
  else if tag = "p" then
    match next with
    | .start name | .empty name => paragraphEnders.contains name
    | .close _ | .nothing => true
    | _ => false
  else
    match enders.lookup tag with
    | none => false
    | some names =>
      match next with
      | .start name => names.contains name
      | .close _ | .nothing => tag ≠ "dt" && tag ≠ "thead"
      | _ => false

def implied (previous : Option Token) (t : Token) (next : Next) : Bool :=
  match t with
  | .startTag name _ attrs => attrs.isEmpty && impliedStart name previous next
  | .endTag name _ => impliedEnd name next
  | _ => false

/-- The tokens without the implied tags; what counts as before and after is the unfiltered list. -/
def dropImplied : Option Token → List Token → List Token
  | _, [] => []
  | previous, t :: rest =>
    if implied previous t (.of rest.head?) then dropImplied (some t) rest
    else t :: dropImplied (some t) rest

end OptionalTag

def omitOptional (ts : List Token) : List Token := OptionalTag.dropImplied none ts

end HtmlTree.Markup
