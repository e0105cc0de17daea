import HtmlTree.Html.Construction.Text

/-! What the end of the text does: it closes what the mode has open, and goes on in another mode
until one has nothing left to do. -/

namespace HtmlTree.Html.Builder

def unclosedTags : List String :=
  ["dd", "dt", "li", "p", "tbody", "td", "tfoot", "th", "thead", "tr", "body", "html"]

def checkClosed (b : Builder) : Builder :=
  if b.stack.all fun o => unclosedTags.contains o.name then b else b.report .eofForClosingTag

/-- Nothing but the root may be left open; that it is the root is only possible in a fragment. -/
def checkRoot (b : Builder) (f : Fault) : Builder :=
  if b.isCurrent "html" then b.needContext else b.report f

/-- The end of the text in one mode; to be taken up again if that leads to another. -/
def finishMode (b : Builder) : Builder :=
  match b.mode with
  | .initial => (b.report .eofForDoctype).passDoctype.retry
  | .beforeHtml => b.insertRoot.retry
  | .beforeHead => b.impliedHead.retry
  | .inHead => b.closeHead.retry
  | .inHeadNoscript => (b.report .eofInHeadNoscript).closeNoscript.retry
  | .afterHead => b.impliedBody.retry
  | .inBody | .inCaption | .inCell => b.checkClosed
  | .text => ((b.report (.eofForEndTag b.current.name)).pop.goto b.textReturn).retry
  | .inTable | .inTableBody | .inRow => b.checkRoot .eofInTable
  | .inTableText => b.closeTableText.retry
  | .inColumnGroup => if b.isCurrent "html" then b.needContext else b.closeColumns.retry
  | .inSelect | .inSelectInTable => b.checkRoot .eofInSelect
  | .inFrameset => b.checkRoot .eofInFrameset
  | .afterBody | .afterFrameset | .afterAfterBody | .afterAfterFrameset => b

/-- Each mode is met at most once on the way to the end. -/
def finishWithin : Nat → Builder → Builder
  | 0, b => b
  | n + 1, b =>
    let b := finishMode { b with again := false }
    if b.again && b.collapse.isNone then finishWithin n b else b

def modeCount : Nat := 22

def finish (b : Builder) : Builder := finishWithin modeCount b

end HtmlTree.Html.Builder
