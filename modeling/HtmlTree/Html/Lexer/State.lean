import HtmlTree.Html.Input
import HtmlTree.Html.Token
import HtmlTree.Text.Ascii

/-! The state of a lexer: what it expects, the token it is reading, and what it has put out. Texts
under construction are kept last character first. -/

namespace HtmlTree.Html

/-- Text whose end is marked by an end tag of the element around it. -/
inductive RawKind where
  | escapable
  | plain
  | script
  | scriptEscaped
  deriving DecidableEq, Repr

inductive LexState where
  | data
  | dataReference
  | escapableText
  | escapableReference
  | rawText
  | script
  | plaintext
  | tagOpen
  | endTagOpen
  | tagName
  | rawLess (kind : RawKind)
  | rawEndTagOpen (kind : RawKind)
  | rawEndTagName (kind : RawKind)
  | scriptEscapeStart
  | scriptEscapeStartDash
  | scriptEscaped
  | scriptEscapedDash
  | scriptEscapedDashDash
  | scriptDoubleStart
  | scriptDouble
  | scriptDoubleDash
  | scriptDoubleDashDash
  | scriptDoubleLess
  | scriptDoubleEnd
  | beforeAttrName
  | attrName
  | afterAttrName
  | beforeAttrValue
  | quotedValue (quote : Char)
  | bareValue
  | afterAttrValue
  | selfClosing
  | bogusComment
  | declaration
  | commentStart
  | commentStartDash
  | comment
  | commentEndDash
  | commentEnd
  | commentEndBang
  | doctype
  | beforeDoctypeName
  | doctypeName
  | afterDoctypeName
  | afterPublicWord
  | beforePublicId
  | publicId (quote : Char)
  | afterPublicId
  | betweenIds
  | afterSystemWord
  | beforeSystemId
  | systemId (quote : Char)
  | afterSystemId
  | bogusDoctype
  | cdata
  deriving DecidableEq, Repr

inductive TextKind where
  | escapableText
  | rawText
  | script
  | plaintext
  deriving DecidableEq, Repr

def TextKind.state : TextKind → LexState
  | .escapableText => .escapableText
  | .rawText => .rawText
  | .script => .script
  | .plaintext => .plaintext

structure AttrDraft where
  name : List Char
  value : List Char
  deriving DecidableEq, Repr

/-- A tag under construction; its attributes are kept last first. -/
structure TagDraft where
  isEnd : Bool
  name : List Char
  attrs : List AttrDraft
  selfClosing : Bool
  deriving DecidableEq, Repr

structure DoctypeDraft where
  name : List Char
  publicId : Option (List Char)
  systemId : Option (List Char)
  correct : Bool
  deriving DecidableEq, Repr

inductive Draft where
  | nothing
  | tag (t : TagDraft)
  | comment (data : List Char)
  | doctype (d : DoctypeDraft)
  deriving DecidableEq, Repr

/-- The token last read stays as draft, so that an end tag can be matched with it. -/
structure Lexer where
  state : LexState
  input : Input
  draft : Draft
  buffer : List Char
  out : List Item
  deriving DecidableEq, Repr

def textOf (reversed : List Char) : String := String.ofList reversed.reverse

namespace Lexer

def start (state : LexState) (text : List Char) : Lexer := ⟨state, .ofText text, .nothing, [], []⟩

def read (l : Lexer) : Option Char × Lexer :=
  let (c, input) := l.input.read
  (c, { l with input })

def unread (l : Lexer) (c : Option Char) : Lexer := { l with input := l.input.unread c }

def readWhile (l : Lexer) (p : Char → Bool) : List Char × Lexer :=
  let (found, input) := l.input.readWhile p
  (found, { l with input })

def goto (l : Lexer) (state : LexState) : Lexer := { l with state }

def put (l : Lexer) (t : Token) : Lexer := { l with out := .token t :: l.out }

def fault (l : Lexer) (f : Fault) : Lexer := { l with out := .fault f :: l.out }

def characters (l : Lexer) (text : List Char) : Lexer := l.put (.characters (String.ofList text))

def spaces (l : Lexer) (text : List Char) : Lexer := l.put (.spaces (String.ofList text))

def lost : Char := '\uFFFD'

/-- A NUL that is put out as the sign for a lost character. -/
def nul (l : Lexer) : Lexer := (l.fault .invalidCodepoint).characters [lost]

end Lexer

end HtmlTree.Html
