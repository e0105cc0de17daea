import HtmlTree.Html.Construction.BodyEnd

/-! How construction passes from one part of a document to the next when a part is left out or
ends. -/

namespace HtmlTree.Html.Builder

/-- A document without a doctype is laid out the old way. -/
def passDoctype (b : Builder) : Builder := { b with oldLayout := true, mode := .beforeHtml }

def openHead (b : Builder) (t : Tag) : Builder :=
  let b := b.insert t
  { b with head := some b.current, mode := .inHead }

def impliedHead (b : Builder) : Builder := b.openHead (.implied "head")

def leave (b : Builder) (name : String) (mode : Mode) : Builder :=
  if b.isCurrent name then b.pop.goto mode else b.breakDown .impossible

def closeHead (b : Builder) : Builder := b.leave "head" .afterHead

def closeNoscript (b : Builder) : Builder := b.leave "noscript" .inHead

def impliedBody (b : Builder) : Builder :=
  { b.insert (.implied "body") with mode := .inBody, framesetOk := true }

/-- The end of a group of columns; the token that brings it about is taken up again, unless the
group is the element around a fragment. -/
def closeColumns (b : Builder) : Builder :=
  if b.isCurrent "html" then b.needContext.report .unnamed else b.pop.goto .inTable

def passColumns (b : Builder) : Builder :=
  if b.isCurrent "html" then b.closeColumns else b.closeColumns.retry

/-- Runs a step with misplaced nodes put before the table. What the step would take up again is
given up. -/
def fostered (b : Builder) (step : Builder → Builder) : Builder :=
  { step { b with fostering := true } with fostering := false, again := false }

/-- Runs a step for its effect; the token under way is not taken up again. -/
def settled (b : Builder) (step : Builder → Builder) : Builder := { step b with again := false }

end HtmlTree.Html.Builder
