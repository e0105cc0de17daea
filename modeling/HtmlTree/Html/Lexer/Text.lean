import HtmlTree.Html.Lexer.Tag

/-! Reading text: of ordinary elements, and of those whose text ends only at their own end tag. -/

namespace HtmlTree.Html.Lexer

open Text (isSpace isLetter lower)

def isPlainData (c : Char) : Bool := c ≠ '&' && c ≠ '<' && c ≠ '\x00'

def isPlainRaw (c : Char) : Bool := c ≠ '<' && c ≠ '\x00'

/-- White space goes out apart from other text. -/
def textRun (l : Lexer) (c : Char) : Lexer :=
  if isSpace c then
    let (more, l) := l.readWhile isSpace
    l.spaces (c :: more)
  else
    let (more, l) := l.readWhile isPlainData
    l.characters (c :: more)

def dataStep (l : Lexer) : Option Lexer :=
  let (c, l) := l.read
  match c with
  | none => none
  | some '&' => some (l.goto .dataReference)
  | some '<' => some (l.goto .tagOpen)
  | some '\x00' => some ((l.fault .invalidCodepoint).characters ['\x00'])
  | some d => some (l.textRun d)

def escapableStep (l : Lexer) : Option Lexer :=
  let (c, l) := l.read
  match c with
  | none => none
  | some '&' => some (l.goto .escapableReference)
  | some '<' => some (l.goto (.rawLess .escapable))
  | some '\x00' => some l.nul
  | some d => some (l.textRun d)

def rawStep (kind : RawKind) (l : Lexer) : Option Lexer :=
  let (c, l) := l.read
  match c with
  | none => none
  | some '<' => some (l.goto (.rawLess kind))
  | some '\x00' => some l.nul
  | some d =>
    let (more, l) := l.readWhile isPlainRaw
    some (l.characters (d :: more))

def plaintextStep (l : Lexer) : Option Lexer :=
  let (c, l) := l.read
  match c with
  | none => none
  | some '\x00' => some l.nul
  | some d =>
    let (more, l) := l.readWhile (· ≠ '\x00')
    some (l.characters (d :: more))

def RawKind.home : RawKind → LexState
  | .escapable => .escapableText
  | .plain => .rawText
  | .script => .script
  | .scriptEscaped => .scriptEscaped

def backToRaw (l : Lexer) (kind : RawKind) (text : List Char) (c : Option Char) : Lexer :=
  ((l.characters text).unread c).goto (RawKind.home kind)

def rawLessStep (kind : RawKind) (l : Lexer) : Lexer :=
  let (c, l) := l.read
  if c = some '/' then { l with buffer := [], state := .rawEndTagOpen kind }
  else if kind = .script && c = some '!' then
    (l.characters ['<', '!']).goto .scriptEscapeStart
  else if kind = .scriptEscaped then
    match c.filter isLetter with
    | some d => { l.characters ['<', d] with buffer := [d], state := .scriptDoubleStart }
    | none => l.backToRaw kind ['<'] c
  else l.backToRaw kind ['<'] c

def rawEndTagOpenStep (kind : RawKind) (l : Lexer) : Lexer :=
  let (c, l) := l.read
  match c.filter isLetter with
  | some d => { l with buffer := d :: l.buffer, state := .rawEndTagName kind }
  | none => l.backToRaw kind ['<', '/'] c

/-- Whether the buffered name is that of the last tag read. -/
def appropriate (l : Lexer) : Bool :=
  match l.draft with
  | .tag t => t.name.map lower = l.buffer.map lower
  | _ => false

def rawEndTagNameStep (kind : RawKind) (l : Lexer) : Lexer :=
  let fits := l.appropriate
  let (c, l) := l.read
  match c with
  | none => l.backToRaw kind ('<' :: '/' :: l.buffer.reverse) c
  | some d =>
    if isSpace d && fits then (l.beginTag true l.buffer).goto .beforeAttrName
    else if d = '/' && fits then (l.beginTag true l.buffer).goto .selfClosing
    else if d = '>' && fits then (l.beginTag true l.buffer).putTag
    else if isLetter d then { l with buffer := d :: l.buffer }
    else l.backToRaw kind ('<' :: '/' :: l.buffer.reverse) c

def escapeStartStep (next : LexState) (l : Lexer) : Lexer :=
  let (c, l) := l.read
  if c = some '-' then (l.characters ['-']).goto next else (l.unread c).goto .script

def escapedStep (l : Lexer) : Lexer :=
  let (c, l) := l.read
  match c with
  | none => l.goto .data
  | some '-' => (l.characters ['-']).goto .scriptEscapedDash
  | some '<' => l.goto (.rawLess .scriptEscaped)
  | some '\x00' => l.nul
  | some d =>
    let (more, l) := l.readWhile fun e => isPlainRaw e && e ≠ '-'
    l.characters (d :: more)

/-- After dashes in an escaped script; after two of them an angle bracket ends the escape. -/
def escapedDashStep (two : Bool) (l : Lexer) : Lexer :=
  let (c, l) := l.read
  match c with
  | none => l.goto .data
  | some '-' => (l.characters ['-']).goto .scriptEscapedDashDash
  | some '<' => l.goto (.rawLess .scriptEscaped)
  | some '\x00' => l.nul.goto .scriptEscaped
  | some d => (l.characters [d]).goto (if two && d = '>' then .script else .scriptEscaped)

def isScriptWord (buffer : List Char) : Bool :=
  buffer.reverse.map lower = ['s', 'c', 'r', 'i', 'p', 't']

/-- A tag name inside an escaped script: behind the word script the escape doubles or undoubles. -/
def scriptWordStep (ifScript otherwise : LexState) (l : Lexer) : Lexer :=
  let (c, l) := l.read
  match c with
  | none => l.goto otherwise
  | some d =>
    if isSpace d || d = '/' || d = '>' then
      (l.characters [d]).goto (if isScriptWord l.buffer then ifScript else otherwise)
    else if isLetter d then { l.characters [d] with buffer := d :: l.buffer }
    else (l.unread c).goto otherwise

def doubleStep (l : Lexer) : Lexer :=
  let (c, l) := l.read
  match c with
  | none => (l.fault .eofInScript).goto .data
  | some '-' => (l.characters ['-']).goto .scriptDoubleDash
  | some '<' => (l.characters ['<']).goto .scriptDoubleLess
  | some '\x00' => l.nul
  | some d => l.characters [d]

def doubleDashStep (two : Bool) (l : Lexer) : Lexer :=
  let (c, l) := l.read
  match c with
  | none => (l.fault .eofInScript).goto .data
  | some '-' => (l.characters ['-']).goto .scriptDoubleDashDash
  | some '<' => (l.characters ['<']).goto .scriptDoubleLess
  | some '\x00' => l.nul.goto .scriptDouble
  | some d => (l.characters [d]).goto (if two && d = '>' then .script else .scriptDouble)

def doubleLessStep (l : Lexer) : Lexer :=
  let (c, l) := l.read
  if c = some '/' then { l.characters ['/'] with buffer := [], state := .scriptDoubleEnd }
  else (l.unread c).goto .scriptDouble

end HtmlTree.Html.Lexer
