import HtmlTree.Html.Construction.EndTag

/-! What start tags do in the head and in the body. -/

namespace HtmlTree.Html.Builder

/-- Another start tag of the root only adds attributes to it. -/
def startRoot (b : Builder) (t : Tag) : Builder :=
  let b := if b.firstIsRoot then b else b.report .rootNotFirst
  { b.mergeAttrs b.root.id t.attrs with firstIsRoot := false }

def startVoid (b : Builder) (t : Tag) : Builder := (b.insertVoid t).acknowledge

def startScript (b : Builder) (t : Tag) : Builder := b.insertRaw t .script

def startInHead (b : Builder) (t : Tag) : Builder :=
  match t.name with
  | "html" => b.startRoot t
  | "title" => b.insertRaw t .escapableText
  | "noframes" | "style" => b.insertRaw t .rawText
  | "noscript" => (b.insert t).goto .inHeadNoscript
  | "script" => b.startScript t
  | "base" | "basefont" | "bgsound" | "command" | "link" => b.startVoid t
  | "meta" => { b.startVoid t with declaration := some t }
  | "head" => b.report .secondHead
  | _ => b.closeHead.retry

def startBody (b : Builder) (t : Tag) : Builder :=
  let b := b.report (.startTag "body")
  match b.second with
  | some body =>
    if body.name == "body" then { b.mergeAttrs body.id t.attrs with framesetOk := false }
    else b.needContext
  | none => b.needContext

/-- Takes the place of the body, if nothing of weight stands in that. -/
def startFrameset (b : Builder) (t : Tag) : Builder :=
  let b := b.report (.startTag "frameset")
  match b.second with
  | some body =>
    if body.name == "body" then
      if b.framesetOk then
        let b := { b with arena := b.arena.detach body.id }
        ((b.popToNames ["html"]).insert t).goto .inFrameset
      else b
    else b.needContext
  | none => b.needContext

def startBlock (b : Builder) (t : Tag) : Builder := b.leaveParagraph.insert t

def ruleOutFrameset (b : Builder) : Builder := { b with framesetOk := false }

def startLines (b : Builder) (t : Tag) : Builder :=
  { (b.startBlock t).ruleOutFrameset with dropNewline := true }

def startForm (b : Builder) (t : Tag) : Builder :=
  if b.form.isSome then b.report (.startTag "form")
  else
    let b := b.startBlock t
    { b with form := some b.current }

def itemsEndedBy (name : String) : List String := if name == "li" then ["li"] else ["dt", "dd"]

/-- Special elements in which an item may still be sought. -/
def itemPassingTags : List String := ["address", "div", "p"]

def startListItem (b : Builder) (t : Tag) : Builder :=
  let b := b.ruleOutFrameset
  let ended := itemsEndedBy t.name
  let stops (o : Open) : Bool :=
    ended.contains o.name || (isSpecial o && !itemPassingTags.contains o.name)
  let b :=
    match b.stack.find? stops with
    | some o => if ended.contains o.name then b.settled (·.endTag o.name) else b
    | none => b
  let b := if b.inScope .button "p" then b.settled (·.endTag "p") else b
  b.insert t

def startPlaintext (b : Builder) (t : Tag) : Builder :=
  { b.startBlock t with lexerState := some .plaintext }

def startHeading (b : Builder) (t : Tag) : Builder :=
  let b := b.leaveParagraph
  let b :=
    if headingTags.contains b.current.name then (b.report (.startTag t.name)).pop else b
  b.insert t

def startLink (b : Builder) (t : Tag) : Builder :=
  let b :=
    match b.findFormatting "a" with
    | some o =>
      (((b.report (.startImpliesEnd "a" "a")).endFormatting "a").removeOpen o).removeFormatting o
    | none => b
  b.reconstruct.insertFormatting t

def startFormatting (b : Builder) (t : Tag) : Builder := b.reconstruct.insertFormatting t

def startNoBreak (b : Builder) (t : Tag) : Builder :=
  let b := b.reconstruct
  let b :=
    if b.inScope .plain "nobr" then
      ((b.report (.startImpliesEnd "nobr" "nobr")).endFormatting "nobr").reconstruct
    else b
  b.insertFormatting t

def startButton (b : Builder) (t : Tag) : Builder :=
  if b.inScope .plain "button" then
    ((b.report (.startImpliesEnd "button" "button")).endBlock "button").retry
  else (b.reconstruct.insert t).ruleOutFrameset

def startEmbedded (b : Builder) (t : Tag) : Builder :=
  (b.reconstruct.insert t).pushMarker.ruleOutFrameset

def startExample (b : Builder) (t : Tag) : Builder :=
  b.leaveParagraph.reconstruct.ruleOutFrameset.insertRaw t .rawText

def startTable (b : Builder) (t : Tag) : Builder :=
  let b := if b.oldLayout then b else b.leaveParagraph
  ((b.insert t).ruleOutFrameset).goto .inTable

def insertImage (b : Builder) (t : Tag) : Builder := (b.reconstruct.insertVoid t).ruleOutFrameset

def isHidden (t : Tag) : Bool := (t.attr? "type").any fun value => Text.lowerAll value == "hidden"

def insertInput (b : Builder) (t : Tag) : Builder :=
  let b' := b.insertImage t
  if isHidden t then { b' with framesetOk := b.framesetOk } else b'

def insertRule (b : Builder) (t : Tag) : Builder :=
  (b.leaveParagraph.insertVoid t).ruleOutFrameset

def startOther (b : Builder) (t : Tag) : Builder := b.reconstruct.insert t

def searchPrompt : String := "This is a searchable index. Enter search keywords: "

def withAttr (attrs : List (String × String)) (name value : String) : List (String × String) :=
  if attrs.any (·.1 == name) then attrs.map fun a => if a.1 == name then (name, value) else a
  else attrs ++ [(name, value)]

/-- A search field stands for a form of its own. -/
def startSearch (b : Builder) (t : Tag) : Builder :=
  let b := b.report (.deprecatedTag "isindex")
  if b.form.isSome then b
  else
    let formAttrs := t.attrs.filter (·.1 == "action")
    let inputAttrs := t.attrs.filter fun a => a.1 != "action" && a.1 != "prompt"
    let b := b.startForm ⟨"form", formAttrs, false⟩
    let b := (b.insertRule (.implied "hr")).startOther (.implied "label")
    let b := b.bodyText ((t.attr? "prompt").getD searchPrompt)
    let b := b.insertInput ⟨"input", withAttr inputAttrs "name" "isindex", t.selfClosing⟩
    ((b.endOther "label").insertRule (.implied "hr")).endForm

def startTextarea (b : Builder) (t : Tag) : Builder :=
  { (b.insert t).ruleOutFrameset with lexerState := some .escapableText, dropNewline := true }

def tableModes : List Mode := [.inTable, .inCaption, .inColumnGroup, .inTableBody, .inRow, .inCell]

def startSelect (b : Builder) (t : Tag) : Builder :=
  let b := (b.reconstruct.insert t).ruleOutFrameset
  b.goto (if tableModes.contains b.mode then .inSelectInTable else .inSelect)

def startOption (b : Builder) (t : Tag) : Builder :=
  let b := if b.isCurrent "option" then b.settled (·.endTag "option") else b
  b.reconstruct.insert t

/-- Annotations of ruby text end those before them. -/
def startRuby (b : Builder) (t : Tag) : Builder :=
  let b :=
    if b.inScope .plain "ruby" then
      let b := b.dropImplied none
      if b.isCurrent "ruby" then b else b.report .unnamed
    else b
  b.insert t

def startForeign (b : Builder) (space : Space) (t : Tag) : Builder :=
  let b := b.reconstruct.insertForeign space t t.name
  if t.selfClosing then b.pop.acknowledge else b

inductive BodyStart where
  | root
  | head
  | body
  | frameset
  | block
  | heading
  | lines
  | form
  | listItem
  | plaintext
  | link
  | formatting
  | noBreak
  | button
  | embedded
  | example
  | table
  | image
  | param
  | input
  | rule
  | misspeltImage
  | search
  | textarea
  | frame
  | rawText
  | select
  | ruby
  | option
  | math
  | svg
  | misplaced
  deriving DecidableEq, Repr

def bodyStarts : List (List String × BodyStart) :=
  [(["html"], .root),
   (["base", "basefont", "bgsound", "command", "link", "meta", "script", "style", "title"], .head),
   (["body"], .body),
   (["frameset"], .frameset),
   (["address", "article", "aside", "blockquote", "center", "details", "dir", "div", "dl",
     "fieldset", "figcaption", "figure", "footer", "header", "hgroup", "main", "menu", "nav", "ol",
     "p", "section", "summary", "ul"], .block),
   (headingTags, .heading),
   (["pre", "listing"], .lines),
   (["form"], .form),
   (["li", "dd", "dt"], .listItem),
   (["plaintext"], .plaintext),
   (["a"], .link),
   (formattingTags, .formatting),
   (["nobr"], .noBreak),
   (["button"], .button),
   (embeddedTags, .embedded),
   (["xmp"], .example),
   (["table"], .table),
   (["area", "br", "embed", "img", "keygen", "wbr"], .image),
   (["param", "source", "track"], .param),
   (["input"], .input),
   (["hr"], .rule),
   (["image"], .misspeltImage),
   (["isindex"], .search),
   (["textarea"], .textarea),
   (["iframe"], .frame),
   (["noembed", "noframes"], .rawText),
   (["select"], .select),
   (["rp", "rt"], .ruby),
   (["option", "optgroup"], .option),
   (["math"], .math),
   (["svg"], .svg),
   (["caption", "col", "colgroup", "frame", "head", "tbody", "td", "tfoot", "th", "thead", "tr"],
     .misplaced)]

def bodyStart (b : Builder) (t : Tag) : Builder :=
  match ruleFor bodyStarts t.name with
  | some .root => b.startRoot t
  | some .head => b.startInHead t
  | some .body => b.startBody t
  | some .frameset => b.startFrameset t
  | some .block => b.startBlock t
  | some .heading => b.startHeading t
  | some .lines => b.startLines t
  | some .form => b.startForm t
  | some .listItem => b.startListItem t
  | some .plaintext => b.startPlaintext t
  | some .link => b.startLink t
  | some .formatting => b.startFormatting t
  | some .noBreak => b.startNoBreak t
  | some .button => b.startButton t
  | some .embedded => b.startEmbedded t
  | some .example => b.startExample t
  | some .table => b.startTable t
  | some .image => (b.insertImage t).acknowledge
  | some .param => b.startVoid t
  | some .input => (b.insertInput t).acknowledge
  | some .rule => (b.insertRule t).acknowledge
  | some .misspeltImage =>
    (b.report (.startTreatedAs "image" "img")).insertImage { t with name := "img" }
  | some .search => b.startSearch t
  | some .textarea => b.startTextarea t
  | some .frame => b.ruleOutFrameset.insertRaw t .rawText
  | some .rawText => b.insertRaw t .rawText
  | some .select => b.startSelect t
  | some .ruby => b.startRuby t
  | some .option => b.startOption t
  | some .math => b.startForeign .mathml t
  | some .svg => b.startForeign .svg t
  | some .misplaced => b.report (.startTagIgnored t.name)
  | none => b.startOther t

end HtmlTree.Html.Builder
