import HtmlTree.Html.Construction.Passage

/-! What text does, in each mode. Text in a table is held back until it is known whether it is all
white space. -/

namespace HtmlTree.Html.Builder

def isBlank (text : String) : Bool := text.toList.all Text.isSpace

/-- Text other than white space rules out a frameset. -/
def markText (b : Builder) (text : String) : Builder :=
  if isBlank text then b else { b with framesetOk := false }

def lineFeedTags : List String := ["pre", "listing", "textarea"]

/-- A line feed right after certain start tags is no part of the text. -/
def leadingLine (b : Builder) (text : List Char) : List Char :=
  match text with
  | '\n' :: rest =>
    if b.dropNewline && lineFeedTags.contains b.current.name &&
        (b.arena.children b.current.id).isEmpty then rest
    else text
  | _ => text

def bodySpaces (b : Builder) (text : String) : Builder :=
  let kept := b.leadingLine text.toList
  let b := { b with dropNewline := false }
  if kept.isEmpty then b else b.reconstruct.insertText (String.ofList kept)

def nul : String := "\x00"

def bodyText (b : Builder) (text : String) : Builder :=
  if text == nul then b else (b.reconstruct.insertText text).markText text

def holdText (b : Builder) (text : String) : Builder := { b with tableText := text :: b.tableText }

def enterTableText (b : Builder) : Builder :=
  { b with mode := .inTableText, tableReturn := b.mode }

/-- Puts held text where it belongs: white space into the current node, other text before the
table. -/
def flushText (b : Builder) : Builder :=
  let text := String.join b.tableText.reverse
  let b := { b with tableText := [] }
  if isBlank text then (if text.isEmpty then b else b.insertText text)
  else b.fostered (·.bodyText text)

def closeTableText (b : Builder) : Builder := b.flushText.goto b.tableReturn

def characters (b : Builder) (text : String) : Builder :=
  match b.mode with
  | .initial => (b.report .charsForDoctype).passDoctype.retry
  | .beforeHtml => b.insertRoot.retry
  | .beforeHead => b.impliedHead.retry
  | .inHead => b.closeHead.retry
  | .inHeadNoscript => (b.report .charInHeadNoscript).closeNoscript.retry
  | .afterHead => b.impliedBody.retry
  | .inBody | .inCaption | .inCell => b.bodyText text
  | .text => b.insertText text
  | .inTable | .inTableBody | .inRow =>
    if text == nul then b.enterTableText else b.enterTableText.holdText text
  | .inTableText => if text == nul then b else b.holdText text
  | .inColumnGroup => b.passColumns
  | .inSelect | .inSelectInTable => if text == nul then b else b.insertText text
  | .afterBody => ((b.report .charAfterBody).goto .inBody).retry
  | .inFrameset => b.report .charInFrameset
  | .afterFrameset => b.report .charAfterFrameset
  | .afterAfterBody => ((b.report .charForEof).goto .inBody).retry
  | .afterAfterFrameset => b.report .charForEof

def spaces (b : Builder) (text : String) : Builder :=
  match b.mode with
  | .initial | .beforeHtml | .beforeHead => b
  | .inBody | .afterAfterBody | .afterAfterFrameset => b.bodySpaces text
  | .inTable | .inTableBody | .inRow => b.enterTableText.holdText text
  | .inTableText => b.holdText text
  | .inHead | .inHeadNoscript | .afterHead | .text | .inCaption | .inColumnGroup | .inCell
  | .inSelect | .inSelectInTable | .afterBody | .inFrameset | .afterFrameset => b.insertText text

end HtmlTree.Html.Builder
