import HtmlTree.Html.Lexer.State
import HtmlTree.Html.Reference

/-! Reading a character reference behind its ampersand. -/

namespace HtmlTree.Html.Lexer

open Text (isSpace isLetter isDigit isHexDigit readDigits)

def peek (l : Lexer) : Option Char × Lexer :=
  let (c, l) := l.read
  (c, l.unread c)

def skip : Nat → Lexer → Lexer
  | 0, l => l
  | n + 1, l => skip n l.read.2

/-- The digits of a number up to the character after them, which a semicolon's absence puts back. -/
def numberReference (l : Lexer) (base : Nat) (isDigitOf : Char → Bool) : List Char × Lexer :=
  let digits := l.input.rest.takeWhile isDigitOf
  let (next, l) := (skip digits.length l).read
  let (c, fault) := Reference.ofNumber (readDigits base digits)
  let l := match fault with
    | some f => l.fault f
    | none => l
  if next = some ';' then ([c], l) else ([c], (l.fault .numericWithoutSemicolon).unread next)

/-- A reference that turns out to be no number is text. -/
def noNumber (l : Lexer) (next : Option Char) (text : List Char) : List Char × Lexer :=
  (text, (l.fault .expectedNumber).unread next)

def signedReference (l : Lexer) : List Char × Lexer :=
  let (c, l) := l.read
  if c = some 'x' ∨ c = some 'X' then
    let (d, l) := l.read
    if d.any isHexDigit then numberReference (l.unread d) 16 isHexDigit
    else noNumber l d (['&', '#'] ++ c.toList)
  else if c.any isDigit then numberReference (l.unread c) 10 isDigit
  else noNumber l c ['&', '#']

/-- In an attribute a name without semicolon is text if it could go on. -/
def goesOn (c : Option Char) : Bool := c.any fun c => isLetter c || isDigit c || c == '='

/-- A name: the longest known one is replaced, and what was read beyond it is text. -/
def namedReference (l : Lexer) (inAttr : Bool) : List Char × Lexer :=
  let text := l.input.rest
  let found := Reference.scan text
  let read := text.take found.length
  let l := (peek (skip found.length l)).2
  match found.best with
  | none => ('&' :: read, l.fault .expectedName)
  | some best =>
    let closed := (text.drop (best.length - 1)).head? = some ';'
    let l := if closed then l else l.fault .namedWithoutSemicolon
    if !closed && inAttr && goesOn (text.drop best.length).head? then ('&' :: read, l)
    else (best.text ++ read.drop best.length, l)

/-- What a reference stands for; an ampersand before white space, the end, another one, an angle
bracket or a given character is just an ampersand. -/
def reference (l : Lexer) (stop : Option Char) (inAttr : Bool) : List Char × Lexer :=
  let (c, l) := l.read
  match c with
  | none => (['&'], l)
  | some '#' => signedReference l
  | some d =>
    if isSpace d || d = '<' || d = '&' || stop = some d then (['&'], l.unread c)
    else namedReference (l.unread c) inAttr

def textReference (l : Lexer) (next : LexState) : Lexer :=
  let (text, l) := l.reference none false
  let l := match text with
    | [c] => if isSpace c then l.spaces [c] else l.characters [c]
    | _ => l.characters text
  l.goto next

end HtmlTree.Html.Lexer
