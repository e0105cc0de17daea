import HtmlTree.Html.Construction.Doctype
import HtmlTree.Html.Construction.Finish
import HtmlTree.Html.Construction.StartTag

/-! Tree construction: each token goes to the rules of the mode, or inside elements of SVG and
MathML to the rules for foreign content. -/

namespace HtmlTree.Html.Builder

def comment (b : Builder) (data : String) : Builder :=
  match b.mode with
  | .initial | .beforeHtml | .afterAfterBody | .afterAfterFrameset =>
    b.insertComment Arena.document data
  | .afterBody => b.insertComment b.root.id data
  | .inTableText => b.closeTableText.retry
  | _ => b.insertComment b.current.id data

def ordinary (b : Builder) : Token → Builder
  | .startTag t => b.startTag t
  | .endTag name => b.endTag name
  | .characters text => b.characters text
  | .spaces text => b.spaces text
  | .comment data => b.comment data
  | .doctype d => b.doctype d

def isHtmlPoint (b : Builder) (o : Open) : Bool := Foreign.isHtmlPoint o (b.arena.attrs o.id)

def admitsHtml (b : Builder) (o : Open) : Bool :=
  o.space == b.standard || b.isHtmlPoint o || isTextPoint o

def startInForeign (b : Builder) (t : Tag) : Builder :=
  if Foreign.breaksOut t.name t.attrs then
    let b := b.report (.htmlInForeign t.name)
    { b with stack := popTo b.admitsHtml b.stack }.retry
  else
    let space := b.current.space
    let b := b.insertForeign space t (Foreign.tagName space t.name)
    if t.selfClosing then b.pop.acknowledge else b

/-- Ends the foreign element of a name, in any case of letters. If the look comes to an element of
HTML first, the mode has its say. -/
def endInForeign (b : Builder) (name : String) : Builder :=
  let ends (o : Open) : Bool := Text.lowerAll o.name == name
  let b := if ends b.current then b else b.report (.endTag name)
  let found :=
    match b.stack with
    | [] => none
    | o :: rest => if ends o then some o else rest.find? fun p => p.space == b.standard || ends p
  match found with
  | none => b
  | some o =>
    if ends o && (o.space != b.standard || o.id == b.current.id) then
      let b := if b.mode = .inTableText then b.closeTableText else b
      { b with stack := popThrough (fun p => p.id == o.id) b.stack }
    else b.endTag name

def foreign (b : Builder) : Token → Builder
  | .startTag t => b.startInForeign t
  | .endTag name => b.endInForeign name
  | .characters text =>
    if text == nul then b.insertText "\uFFFD" else (b.insertText text).markText text
  | .spaces text => b.insertText text
  | .comment data => b.insertComment b.current.id data
  | .doctype _ => b.report .unexpectedDoctype

def isForeign (b : Builder) (t : Token) : Bool :=
  let o := b.current
  if b.stack.isEmpty || o.space == b.standard then false
  else
    match t with
    | .startTag tag =>
      !((isTextPoint o && tag.name != "mglyph" && tag.name != "malignmark") ||
        (o.space == .mathml && o.name == "annotation-xml" && tag.name == "svg") ||
        b.isHtmlPoint o)
    | .characters _ | .spaces _ => !(isTextPoint o || b.isHtmlPoint o)
    | _ => true

def consume (b : Builder) (t : Token) : Builder :=
  if b.isForeign t then b.foreign t else b.ordinary t

/-- Takes a token up until nothing is left of it to do. -/
def consumeWithin : Nat → Token → Builder → Builder
  | 0, _, b => b
  | n + 1, t, b =>
    let b := consume { b with again := false } t
    if b.again && b.collapse.isNone then consumeWithin n t b else b

/-- Enough turns for a token: each changes the mode for one further on, or closes elements. -/
def turns (b : Builder) : Nat := modeCount * (b.stack.length + 1)

def checkSolidus (b : Builder) : Token → Builder
  | .startTag t =>
    if t.selfClosing && !b.acknowledged then b.report (.solidusOnElement t.name) else b
  | _ => b

def step (b : Builder) (t : Token) : Builder :=
  (consumeWithin b.turns t { b with acknowledged := false }).checkSolidus t

end HtmlTree.Html.Builder
