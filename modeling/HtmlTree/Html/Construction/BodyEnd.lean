import HtmlTree.Html.Adoption

/-! What end tags do in the body. -/

namespace HtmlTree.Html.Builder

def closeParagraph (b : Builder) : Builder :=
  let b := b.dropImplied (some "p")
  let b := if b.isCurrent "p" then b else b.report (.endTag "p")
  b.popThroughName "p"

/-- A paragraph in scope ends where a block starts. -/
def leaveParagraph (b : Builder) : Builder := if b.inScope .button "p" then b.closeParagraph else b

/-- Without a paragraph to end, an empty one is made. -/
def endParagraph (b : Builder) : Builder :=
  if b.inScope .button "p" then b.closeParagraph
  else ((b.insert (.implied "p")).report (.endTag "p")).closeParagraph

def checkCurrent (b : Builder) (name : String) : Builder :=
  if b.isCurrent name then b else b.report (.endTagEarly name)

def endBlock (b : Builder) (name : String) : Builder :=
  let b := if name == "pre" then { b with dropNewline := false } else b
  if b.inScope .plain name then ((b.dropImplied none).checkCurrent name).popThroughName name
  else b.checkCurrent name

def endForm (b : Builder) : Builder :=
  let form := b.form
  let b := { b with form := none }
  match form with
  | none => b.report (.endTag "form")
  | some o =>
    if findInScope .plain (fun p => p.id == o.id) b.stack then
      let b := b.dropImplied none
      (if b.current.id == o.id then b else b.report (.endTagEarlyIgnored "form")).removeOpen o
    else b.report (.endTag "form")

def endListItem (b : Builder) (name : String) : Builder :=
  if b.inScope (if name == "li" then .list else .plain) name then
    ((b.dropImplied (some name)).checkCurrent name).popThroughName name
  else b.report (.endTag name)

def endHeading (b : Builder) (name : String) : Builder :=
  let open? (b : Builder) : Bool := headingTags.any (b.inScope .plain)
  let b := if open? b then b.dropImplied none else b
  let b := b.checkCurrent name
  if open? b then
    { b with stack := popThrough (fun o => headingTags.contains o.name) b.stack }
  else b

def endEmbedded (b : Builder) (name : String) : Builder :=
  if b.inScope .plain name then
    (((b.dropImplied none).checkCurrent name).popThroughName name).clearToMarker
  else b.checkCurrent name

def endLineBreak (b : Builder) : Builder :=
  ((b.report (.endTreatedAs "br" "br element")).reconstruct).insertVoid (.implied "br")

/-- Elements that may be left open where the body ends. -/
def endlessTags : List String :=
  ["dd", "dt", "li", "optgroup", "option", "p", "rp", "rt", "tbody", "td", "tfoot", "th", "thead",
   "tr", "body", "html"]

def endBody (b : Builder) : Builder :=
  if b.inScope .plain "body" then
    let b :=
      if b.isCurrent "body" then b
      else
        match (b.stack.reverse.drop 2).find? fun o => !endlessTags.contains o.name with
        | some o => b.report (.anotherEndTag "body" o.name)
        | none => b
    b.goto .afterBody
  else b.report .unnamed

def endRoot (b : Builder) : Builder := if b.inScope .plain "body" then b.endBody.retry else b

inductive BodyEnd where
  | body
  | root
  | block
  | form
  | paragraph
  | listItem
  | heading
  | formatting
  | embedded
  | lineBreak
  deriving DecidableEq, Repr

def formattingTags : List String :=
  ["b", "big", "code", "em", "font", "i", "s", "small", "strike", "strong", "tt", "u"]

def embeddedTags : List String := ["applet", "marquee", "object"]

def bodyEnds : List (List String × BodyEnd) :=
  [(["body"], .body),
   (["html"], .root),
   (["address", "article", "aside", "blockquote", "button", "center", "details", "dialog", "dir",
     "div", "dl", "fieldset", "figcaption", "figure", "footer", "header", "hgroup", "listing",
     "main", "menu", "nav", "ol", "pre", "section", "summary", "ul"], .block),
   (["form"], .form),
   (["p"], .paragraph),
   (["dd", "dt", "li"], .listItem),
   (headingTags, .heading),
   ("a" :: "nobr" :: formattingTags, .formatting),
   (embeddedTags, .embedded),
   (["br"], .lineBreak)]

def ruleFor {α : Type} (rules : List (List String × α)) (name : String) : Option α :=
  (rules.find? fun rule => rule.1.contains name).map (·.2)

def bodyEnd (b : Builder) (name : String) : Builder :=
  match ruleFor bodyEnds name with
  | some .body => b.endBody
  | some .root => b.endRoot
  | some .block => b.endBlock name
  | some .form => b.endForm
  | some .paragraph => b.endParagraph
  | some .listItem => b.endListItem name
  | some .heading => b.endHeading name
  | some .formatting => b.endFormatting name
  | some .embedded => b.endEmbedded name
  | some .lineBreak => b.endLineBreak
  | none => b.endOther name

end HtmlTree.Html.Builder
