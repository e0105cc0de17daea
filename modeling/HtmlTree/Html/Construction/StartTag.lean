import HtmlTree.Html.Construction.BodyStart

/-! What start tags do, in each mode. -/

namespace HtmlTree.Html.Builder

def startBeforeHead (b : Builder) (t : Tag) : Builder :=
  match t.name with
  | "html" => b.startRoot t
  | "head" => b.openHead t
  | _ => b.impliedHead.retry

def startInHeadNoscript (b : Builder) (t : Tag) : Builder :=
  match t.name with
  | "html" => b.startRoot t
  | "basefont" | "bgsound" | "link" | "meta" | "noframes" | "style" => b.startInHead t
  | "head" | "noscript" => b.report (.startTag t.name)
  | _ => (b.report (.tagInHeadNoscript t.name)).closeNoscript.retry

/-- An element of the head that comes after it is put there. -/
def startLateInHead (b : Builder) (t : Tag) : Builder :=
  let b := b.report (.startTagOfHead t.name)
  let b := { b with stack := b.head.toList ++ b.stack }.settled (·.startInHead t)
  { b with stack := b.stack.eraseP (·.name == "head") }

def startAfterHead (b : Builder) (t : Tag) : Builder :=
  match t.name with
  | "html" => b.startRoot t
  | "body" => (b.ruleOutFrameset.insert t).goto .inBody
  | "frameset" => (b.insert t).goto .inFrameset
  | "base" | "basefont" | "bgsound" | "link" | "meta" | "noframes" | "script" | "style"
  | "title" => b.startLateInHead t
  | "head" => b.report (.startTag t.name)
  | _ => b.impliedBody.retry

def clearToTable (b : Builder) : Builder := b.popToNames ["table", "html"]

def startColumns (b : Builder) (t : Tag) : Builder :=
  (b.clearToTable.insert t).goto .inColumnGroup

def startRowGroup (b : Builder) (t : Tag) : Builder := (b.clearToTable.insert t).goto .inTableBody

/-- A table inside a table ends it. -/
def startTableAgain (b : Builder) : Builder :=
  let b := (b.report (.startImpliesEnd "table" "table")).settled (·.endTag "table")
  if b.context.isSome then b else b.retry

def startFormInTable (b : Builder) (t : Tag) : Builder :=
  let b := b.report .formInTable
  if b.form.isSome then b
  else
    let b := b.insert t
    { b with form := some b.current }.pop

def startMisnested (b : Builder) (t : Tag) : Builder :=
  (b.report (.startTagInTable t.name)).fostered (·.bodyStart t)

def startInTable (b : Builder) (t : Tag) : Builder :=
  match t.name with
  | "html" => b.startRoot t
  | "caption" => (b.clearToTable.pushMarker.insert t).goto .inCaption
  | "colgroup" => b.startColumns t
  | "col" => (b.startColumns (.implied "colgroup")).retry
  | "tbody" | "tfoot" | "thead" => b.startRowGroup t
  | "td" | "th" | "tr" => (b.startRowGroup (.implied "tbody")).retry
  | "table" => b.startTableAgain
  | "style" | "script" => b.startInHead t
  | "input" =>
    if isHidden t then (b.report .hiddenInputInTable).insertVoid t else b.startMisnested t
  | "form" => b.startFormInTable t
  | _ => b.startMisnested t

def startInCaption (b : Builder) (t : Tag) : Builder :=
  match t.name with
  | "html" => b.startRoot t
  | "caption" | "col" | "colgroup" | "tbody" | "td" | "tfoot" | "th" | "thead" | "tr" =>
    b.passCaption
  | _ => b.bodyStart t

def startInColumnGroup (b : Builder) (t : Tag) : Builder :=
  match t.name with
  | "html" => b.startRoot t
  | "col" => b.startVoid t
  | _ => b.passColumns

def startRow (b : Builder) (t : Tag) : Builder := (b.clearToRowGroup.insert t).goto .inRow

def startInTableBody (b : Builder) (t : Tag) : Builder :=
  match t.name with
  | "html" => b.startRoot t
  | "tr" => b.startRow t
  | "td" | "th" => ((b.report (.cellInTableBody t.name)).startRow (.implied "tr")).retry
  | "caption" | "col" | "colgroup" | "tbody" | "tfoot" | "thead" => b.passRowGroup
  | _ => b.startInTable t

def startInRow (b : Builder) (t : Tag) : Builder :=
  match t.name with
  | "html" => b.startRoot t
  | "td" | "th" => ((b.clearToRow.insert t).goto .inCell).pushMarker
  | "caption" | "col" | "colgroup" | "tbody" | "tfoot" | "thead" | "tr" => b.passRow
  | _ => b.startInTable t

def startInCell (b : Builder) (t : Tag) : Builder :=
  match t.name with
  | "html" => b.startRoot t
  | "caption" | "col" | "colgroup" | "tbody" | "td" | "tfoot" | "th" | "thead" | "tr" =>
    if ["td", "th"].any (b.inScope .table) then b.closeCell.retry else b.missing
  | _ => b.bodyStart t

def popIfCurrent (b : Builder) (name : String) : Builder := if b.isCurrent name then b.pop else b

def startInSelect (b : Builder) (t : Tag) : Builder :=
  match t.name with
  | "html" => b.startRoot t
  | "option" => (b.popIfCurrent "option").insert t
  | "optgroup" => ((b.popIfCurrent "option").popIfCurrent "optgroup").insert t
  | "select" => (b.report .selectInSelect).endSelect
  | "input" | "keygen" | "textarea" =>
    let b := b.report .inputInSelect
    if b.inScope .select "select" then b.endSelect.retry else b.needContext
  | "script" => b.startScript t
  | _ => b.report (.startTagInSelect t.name)

def startInSelectInTable (b : Builder) (t : Tag) : Builder :=
  if selectLeavingTags.contains t.name then
    (b.report (.tableStartInSelect t.name)).endSelect.retry
  else b.startInSelect t

def startInFrameset (b : Builder) (t : Tag) : Builder :=
  match t.name with
  | "html" => b.startRoot t
  | "frameset" => b.insert t
  | "frame" => b.insertVoid t
  | "noframes" => b.bodyStart t
  | _ => b.report (.startTagInFrameset t.name)

def startTag (b : Builder) (t : Tag) : Builder :=
  match b.mode with
  | .initial => (b.report (.startTagForDoctype t.name)).passDoctype.retry
  | .beforeHtml =>
    { b with firstIsRoot := b.firstIsRoot || t.name == "html" }.insertRoot.retry
  | .beforeHead => b.startBeforeHead t
  | .inHead => b.startInHead t
  | .inHeadNoscript => b.startInHeadNoscript t
  | .afterHead => b.startAfterHead t
  | .inBody => b.bodyStart t
  | .text => b.breakDown .impossible
  | .inTable => b.startInTable t
  | .inTableText => b.closeTableText.retry
  | .inCaption => b.startInCaption t
  | .inColumnGroup => b.startInColumnGroup t
  | .inTableBody => b.startInTableBody t
  | .inRow => b.startInRow t
  | .inCell => b.startInCell t
  | .inSelect => b.startInSelect t
  | .inSelectInTable => b.startInSelectInTable t
  | .afterBody =>
    if t.name == "html" then b.startRoot t
    else ((b.report (.startTagAfterBody t.name)).goto .inBody).retry
  | .inFrameset => b.startInFrameset t
  | .afterFrameset =>
    match t.name with
    | "html" => b.startRoot t
    | "noframes" => b.startInHead t
    | _ => b.report (.startTagAfterFrameset t.name)
  | .afterAfterBody =>
    if t.name == "html" then b.startRoot t
    else ((b.report (.startTagForEof t.name)).goto .inBody).retry
  | .afterAfterFrameset =>
    match t.name with
    | "html" => b.startRoot t
    | "noframes" => b.startInHead t
    | _ => b.report (.startTagForEof t.name)

end HtmlTree.Html.Builder
