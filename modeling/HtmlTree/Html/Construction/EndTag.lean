import HtmlTree.Html.Construction.Text

/-! What end tags do, in each mode. -/

namespace HtmlTree.Html.Builder

/-- End tags that stand for a part of the document that was left out. -/
def partTags : List String := ["body", "html", "br"]

def endInHead (b : Builder) (name : String) : Builder :=
  if name == "head" then b.closeHead
  else if partTags.contains name then b.closeHead.retry
  else b.report (.endTag name)

def endInHeadNoscript (b : Builder) (name : String) : Builder :=
  if name == "noscript" then b.closeNoscript
  else if name == "br" then (b.report (.tagInHeadNoscript name)).closeNoscript.retry
  else b.report (.endTag name)

/-- What cannot happen outside a fragment happened: an element to be closed is not there. -/
def missing (b : Builder) : Builder := b.needContext.report .unnamed

def endTable (b : Builder) : Builder :=
  if b.inScope .table "table" then
    let b := b.dropImplied none
    let b :=
      if b.isCurrent "table" then b else b.report (.endTagEarlyNamed "table" b.current.name)
    (b.popThroughName "table").resetMode
  else b.missing

def endInTable (b : Builder) (name : String) : Builder :=
  if name == "table" then b.endTable
  else if ["body", "caption", "col", "colgroup", "html", "tbody", "td", "tfoot", "th", "thead",
      "tr"].contains name then b.report (.endTag name)
  else (b.report (.endTagInTable name)).fostered (·.bodyEnd name)

def hasCaption (b : Builder) : Bool := b.inScope .table "caption"

def endCaption (b : Builder) : Builder :=
  if b.hasCaption then
    let b := b.dropImplied none
    let b :=
      if b.isCurrent "caption" then b else b.report (.anotherEndTag "caption" b.current.name)
    ((b.popThroughName "caption").clearToMarker).goto .inTable
  else b.missing

/-- A tag of the table around a caption ends the caption first. -/
def passCaption (b : Builder) : Builder :=
  let b := b.report .unnamed
  if b.hasCaption then b.endCaption.retry else b.endCaption

def endInCaption (b : Builder) (name : String) : Builder :=
  if name == "caption" then b.endCaption
  else if name == "table" then b.passCaption
  else if ["body", "col", "colgroup", "html", "tbody", "td", "tfoot", "th", "thead",
      "tr"].contains name then b.report (.endTag name)
  else b.bodyEnd name

def endInColumnGroup (b : Builder) (name : String) : Builder :=
  if name == "colgroup" then b.closeColumns
  else if name == "col" then b.report (.noEndTag "col")
  else b.passColumns

def rowGroupTags : List String := ["tbody", "thead", "tfoot"]

def clearToRowGroup (b : Builder) : Builder :=
  let b := b.popToNames ("html" :: rowGroupTags)
  if b.isCurrent "html" then b.needContext else b

def endRowGroup (b : Builder) (name : String) : Builder :=
  if b.inScope .table name then b.clearToRowGroup.pop.goto .inTable
  else b.report (.endTagInTableBody name)

def passRowGroup (b : Builder) : Builder :=
  if rowGroupTags.any (b.inScope .table) then
    let b := b.clearToRowGroup
    (b.endRowGroup b.current.name).retry
  else b.missing

def endInTableBody (b : Builder) (name : String) : Builder :=
  if rowGroupTags.contains name then b.endRowGroup name
  else if name == "table" then b.passRowGroup
  else if ["body", "caption", "col", "colgroup", "html", "td", "th", "tr"].contains name then
    b.report (.endTagInTableBody name)
  else b.endInTable name

def hasRow (b : Builder) : Bool := b.inScope .table "tr"

def clearToRow (b : Builder) : Builder :=
  let isRow (o : Open) : Bool := o.name == "tr" || o.name == "html"
  let b := (b.stack.takeWhile fun o => !isRow o).foldl
    (fun b o => b.report (.impliedEndInRow o.name)) b
  { b with stack := popTo isRow b.stack }

def endRow (b : Builder) : Builder :=
  if b.hasRow then b.clearToRow.pop.goto .inTableBody else b.missing

def passRow (b : Builder) : Builder := if b.hasRow then b.endRow.retry else b.endRow

def endInRow (b : Builder) (name : String) : Builder :=
  if name == "tr" then b.endRow
  else if name == "table" then b.passRow
  else if rowGroupTags.contains name then
    if b.inScope .table name then b.endRow.retry else b.report .unnamed
  else if ["body", "caption", "col", "colgroup", "html", "td", "th"].contains name then
    b.report (.endTagInRow name)
  else b.endInTable name

def endCell (b : Builder) (name : String) : Builder :=
  if b.inScope .table name then
    let b := b.dropImplied (some name)
    let b := if b.isCurrent name then b else b.report (.cellEndTag name)
    ((b.popThroughName name).clearToMarker).goto .inRow
  else b.report (.endTag name)

def closeCell (b : Builder) : Builder :=
  if b.inScope .table "td" then b.endCell "td"
  else if b.inScope .table "th" then b.endCell "th"
  else b

def endInCell (b : Builder) (name : String) : Builder :=
  if ["td", "th"].contains name then b.endCell name
  else if ["body", "caption", "col", "colgroup", "html"].contains name then
    b.report (.endTag name)
  else if ["table", "tbody", "tfoot", "thead", "tr"].contains name then
    if b.inScope .table name then b.closeCell.retry else b.report .unnamed
  else b.bodyEnd name

def endSelect (b : Builder) : Builder :=
  if b.inScope .select "select" then (b.popThroughName "select").resetMode else b.missing

/-- The end of a group of options ends an option in it. -/
def endOptionGroup (b : Builder) : Builder :=
  let b :=
    match b.stack with
    | o :: p :: _ => if o.name == "option" && p.name == "optgroup" then b.pop else b
    | _ => b
  if b.isCurrent "optgroup" then b.pop else b.report (.endTagInSelect "optgroup")

def endInSelect (b : Builder) (name : String) : Builder :=
  if name == "option" then
    if b.isCurrent name then b.pop else b.report (.endTagInSelect name)
  else if name == "optgroup" then b.endOptionGroup
  else if name == "select" then b.endSelect
  else b.report (.endTagInSelect name)

def selectLeavingTags : List String :=
  ["caption", "table", "tbody", "tfoot", "thead", "tr", "td", "th"]

def endInSelectInTable (b : Builder) (name : String) : Builder :=
  if selectLeavingTags.contains name then
    let b := b.report (.tableEndInSelect name)
    if b.inScope .table name then b.endSelect.retry else b
  else b.endInSelect name

def endInFrameset (b : Builder) (name : String) : Builder :=
  if name == "frameset" then
    let b := if b.isCurrent "html" then b.report .framesetInFragment else b.pop
    if b.context.isNone && !b.isCurrent "frameset" then b.goto .afterFrameset else b
  else b.report (.endTagInFrameset name)

def endTag (b : Builder) (name : String) : Builder :=
  match b.mode with
  | .initial => (b.report (.endTagForDoctype name)).passDoctype.retry
  | .beforeHtml =>
    if name == "head" || partTags.contains name then b.insertRoot.retry
    else b.report (.endTagBeforeHtml name)
  | .beforeHead =>
    if name == "head" || partTags.contains name then b.impliedHead.retry
    else b.report (.endTagAfterRoot name)
  | .inHead => b.endInHead name
  | .inHeadNoscript => b.endInHeadNoscript name
  | .afterHead =>
    if partTags.contains name then b.impliedBody.retry else b.report (.endTag name)
  | .inBody => b.bodyEnd name
  | .text => b.pop.goto b.textReturn
  | .inTable => b.endInTable name
  | .inTableText => b.closeTableText.retry
  | .inCaption => b.endInCaption name
  | .inColumnGroup => b.endInColumnGroup name
  | .inTableBody => b.endInTableBody name
  | .inRow => b.endInRow name
  | .inCell => b.endInCell name
  | .inSelect => b.endInSelect name
  | .inSelectInTable => b.endInSelectInTable name
  | .afterBody =>
    if name == "html" then
      if b.context.isSome then b.report .endTagAfterFragmentBody else b.goto .afterAfterBody
    else ((b.report (.endTagAfterBody name)).goto .inBody).retry
  | .inFrameset => b.endInFrameset name
  | .afterFrameset =>
    if name == "html" then b.goto .afterAfterFrameset
    else b.report (.endTagAfterFrameset name)
  | .afterAfterBody => ((b.report (.endTagForEof name)).goto .inBody).retry
  | .afterAfterFrameset => b.report (.endTagForEof name)

end HtmlTree.Html.Builder
