import HtmlTree.Html.Lexer.Reference

/-! Reading tags: names, attributes and their values. -/

namespace HtmlTree.Html.Lexer

open Text (isSpace isLetter lower)

def lowerText (reversed : List Char) : String := textOf (reversed.map lower)

/-- The attributes of a tag in order; of a repeated one the first place and the first value stay. -/
def finishAttrs (attrs : List AttrDraft) : List (String × String) :=
  attrs.reverse.foldl (fun done a =>
    let name := textOf a.name
    if done.any fun entry => entry.1 = name then done else done ++ [(name, textOf a.value)]) []

/-- Puts the tag out. End tags drop what only start tags may have. -/
def putTag (l : Lexer) : Lexer :=
  match l.draft with
  | .tag t =>
    let t := { t with name := t.name.map lower }
    let l := { l with draft := .tag t, state := .data }
    if t.isEnd then
      let l := if t.attrs.isEmpty then l else l.fault .attributesInEndTag
      let l := if t.selfClosing then l.fault .solidusInEndTag else l
      l.put (.endTag (textOf t.name))
    else l.put (.startTag ⟨textOf t.name, finishAttrs t.attrs, t.selfClosing⟩)
  | _ => l.goto .data

def withTag (l : Lexer) (f : TagDraft → TagDraft) : Lexer :=
  match l.draft with
  | .tag t => { l with draft := .tag (f t) }
  | _ => l

def beginTag (l : Lexer) (isEnd : Bool) (name : List Char) : Lexer :=
  { l with draft := .tag ⟨isEnd, name, [], false⟩ }

def nameChar (l : Lexer) (c : Char) : Lexer := l.withTag fun t => { t with name := c :: t.name }

def beginAttr (l : Lexer) (c : Char) : Lexer :=
  (l.withTag fun t => { t with attrs := ⟨[c], []⟩ :: t.attrs }).goto .attrName

def withAttr (l : Lexer) (f : AttrDraft → AttrDraft) : Lexer :=
  l.withTag fun t =>
    match t.attrs with
    | [] => t
    | a :: attrs => { t with attrs := f a :: attrs }

def attrName (l : Lexer) (text : List Char) : Lexer :=
  l.withAttr fun a => { a with name := text.reverse ++ a.name }

def attrValue (l : Lexer) (text : List Char) : Lexer :=
  l.withAttr fun a => { a with value := text.reverse ++ a.value }

def tagOpenStep (l : Lexer) : Lexer :=
  let (c, l) := l.read
  match c with
  | some '!' => l.goto .declaration
  | some '/' => l.goto .endTagOpen
  | some '>' => ((l.fault .bracketForTagName).characters ['<', '>']).goto .data
  | some '?' => ((l.fault .questionForTagName).unread c).goto .bogusComment
  | _ =>
    match c.filter isLetter with
    | some d => (l.beginTag false [d]).goto .tagName
    | none => (((l.fault .expectedTagName).characters ['<']).unread c).goto .data

def endTagOpenStep (l : Lexer) : Lexer :=
  let (c, l) := l.read
  match c with
  | none => ((l.fault .eofForClosingTag).characters ['<', '/']).goto .data
  | some '>' => (l.fault .bracketForClosingTag).goto .data
  | some d =>
    if isLetter d then (l.beginTag true [d]).goto .tagName
    else ((l.fault (.charForClosingTag d)).unread c).goto .bogusComment

def tagNameStep (l : Lexer) : Lexer :=
  let (c, l) := l.read
  match c with
  | none => (l.fault .eofInTagName).goto .data
  | some '>' => l.putTag
  | some '/' => l.goto .selfClosing
  | some '\x00' => (l.fault .invalidCodepoint).nameChar lost
  | some d => if isSpace d then l.goto .beforeAttrName else l.nameChar d

def beforeAttrNameStep (l : Lexer) : Lexer :=
  let (c, l) := l.read
  match c with
  | none => (l.fault .eofForAttrName).goto .data
  | some '>' => l.putTag
  | some '/' => l.goto .selfClosing
  | some '\x00' => (l.fault .invalidCodepoint).beginAttr lost
  | some d =>
    if isSpace d then (l.readWhile isSpace).2
    else if d = '\'' || d = '"' || d = '=' || d = '<' then (l.fault .charInAttrName).beginAttr d
    else l.beginAttr d

def endAttrName (l : Lexer) : Lexer :=
  let l := l.withAttr fun a => { a with name := a.name.map lower }
  match l.draft with
  | .tag t =>
    match t.attrs with
    | a :: earlier => if earlier.any fun b => b.name = a.name then l.fault .duplicateAttr else l
    | [] => l
  | _ => l

def attrNameStep (l : Lexer) : Lexer :=
  let (c, l) := l.read
  match c with
  | none => ((l.fault .eofInAttrName).goto .data).endAttrName
  | some '=' => (l.goto .beforeAttrValue).endAttrName
  | some '>' => l.endAttrName.putTag
  | some '/' => (l.goto .selfClosing).endAttrName
  | some '\x00' => (l.fault .invalidCodepoint).attrName [lost]
  | some d =>
    if isLetter d then
      let (more, l) := l.readWhile isLetter
      l.attrName (d :: more)
    else if isSpace d then (l.goto .afterAttrName).endAttrName
    else if d = '\'' || d = '"' || d = '<' then (l.fault .charInAttrName).attrName [d]
    else l.attrName [d]

def afterAttrNameStep (l : Lexer) : Lexer :=
  let (c, l) := l.read
  match c with
  | none => (l.fault .eofAfterAttrName).goto .data
  | some '=' => l.goto .beforeAttrValue
  | some '>' => l.putTag
  | some '/' => l.goto .selfClosing
  | some '\x00' => (l.fault .invalidCodepoint).beginAttr lost
  | some d =>
    if isSpace d then (l.readWhile isSpace).2
    else if d = '\'' || d = '"' || d = '<' then (l.fault .charAfterAttrName).beginAttr d
    else l.beginAttr d

def beforeAttrValueStep (l : Lexer) : Lexer :=
  let (c, l) := l.read
  match c with
  | none => (l.fault .eofForAttrValue).goto .data
  | some '"' => l.goto (.quotedValue '"')
  | some '\'' => l.goto (.quotedValue '\'')
  | some '&' => (l.unread c).goto .bareValue
  | some '>' => (l.fault .bracketForAttrValue).putTag
  | some '\x00' => ((l.fault .invalidCodepoint).attrValue [lost]).goto .bareValue
  | some d =>
    if isSpace d then (l.readWhile isSpace).2
    else if d = '=' || d = '<' || d = '\x60' then
      ((l.fault .equalsInBareValue).attrValue [d]).goto .bareValue
    else (l.attrValue [d]).goto .bareValue

/-- A reference in a value, which ends where the value does. -/
def valueReference (l : Lexer) (stop : Char) : Lexer :=
  let (text, l) := l.reference (some stop) true
  l.attrValue text

def quotedValueStep (quote : Char) (l : Lexer) : Lexer :=
  let (c, l) := l.read
  match c with
  | none => (l.fault (if quote = '"' then .eofInDoubleValue else .eofInSingleValue)).goto .data
  | some '&' => l.valueReference quote
  | some '\x00' => (l.fault .invalidCodepoint).attrValue [lost]
  | some d =>
    if d = quote then l.goto .afterAttrValue
    else
      let (more, l) := l.readWhile fun e => e ≠ quote && e ≠ '&' && e ≠ '\x00'
      l.attrValue (d :: more)

def endsBareValue (c : Char) : Bool :=
  isSpace c || ['&', '>', '"', '\'', '=', '<', '\x60', '\x00'].contains c

def bareValueStep (l : Lexer) : Lexer :=
  let (c, l) := l.read
  match c with
  | none => (l.fault .eofInBareValue).goto .data
  | some '&' => l.valueReference '>'
  | some '>' => l.putTag
  | some '\x00' => (l.fault .invalidCodepoint).attrValue [lost]
  | some d =>
    if isSpace d then l.goto .beforeAttrName
    else if endsBareValue d then (l.fault .charInBareValue).attrValue [d]
    else
      let (more, l) := l.readWhile fun e => !endsBareValue e
      l.attrValue (d :: more)

def afterAttrValueStep (l : Lexer) : Lexer :=
  let (c, l) := l.read
  match c with
  | none => (l.fault .eofAfterAttrValue).goto .data
  | some '>' => l.putTag
  | some '/' => l.goto .selfClosing
  | some d =>
    if isSpace d then l.goto .beforeAttrName
    else ((l.fault .charAfterAttrValue).unread c).goto .beforeAttrName

def selfClosingStep (l : Lexer) : Lexer :=
  let (c, l) := l.read
  match c with
  | none => (l.fault .eofAfterSolidus).goto .data
  | some '>' => (l.withTag fun t => { t with selfClosing := true }).putTag
  | some _ => ((l.fault .charAfterSolidus).unread c).goto .beforeAttrName

end HtmlTree.Html.Lexer
