import HtmlTree.Html.Lexer.State

/-! Reading comments, and the sections that only foreign elements have. -/

namespace HtmlTree.Html.Lexer

def withComment (l : Lexer) (text : List Char) : Lexer :=
  match l.draft with
  | .comment data => { l with draft := .comment (text.reverse ++ data) }
  | _ => l

def putComment (l : Lexer) : Lexer :=
  match l.draft with
  | .comment data => (l.put (.comment (textOf data))).goto .data
  | _ => l.goto .data

def endComment (l : Lexer) (f : Fault) : Lexer := (l.fault f).putComment

/-- A NUL in a comment, with the dashes held back before it. -/
def commentNul (l : Lexer) (held : List Char) : Lexer :=
  (l.fault .invalidCodepoint).withComment (held ++ [lost])

def bogusCommentStep (l : Lexer) : Lexer :=
  let (text, l) := l.readWhile (· ≠ '>')
  let shown := text.map fun c => if c = '\x00' then lost else c
  ((l.put (.comment (String.ofList shown))).read.2).goto .data

def commentStartStep (l : Lexer) : Lexer :=
  let (c, l) := l.read
  match c with
  | none => l.endComment .eofInComment
  | some '-' => l.goto .commentStartDash
  | some '\x00' => l.commentNul []
  | some '>' => l.endComment .incorrectComment
  | some d => (l.withComment [d]).goto .comment

def commentStartDashStep (l : Lexer) : Lexer :=
  let (c, l) := l.read
  match c with
  | none => l.endComment .eofInComment
  | some '-' => l.goto .commentEnd
  | some '\x00' => l.commentNul ['-']
  | some '>' => l.endComment .incorrectComment
  | some d => (l.withComment ['-', d]).goto .comment

def commentStep (l : Lexer) : Lexer :=
  let (c, l) := l.read
  match c with
  | none => l.endComment .eofInComment
  | some '-' => l.goto .commentEndDash
  | some '\x00' => l.commentNul []
  | some d =>
    let (more, l) := l.readWhile fun e => e ≠ '-' && e ≠ '\x00'
    l.withComment (d :: more)

def commentEndDashStep (l : Lexer) : Lexer :=
  let (c, l) := l.read
  match c with
  | none => l.endComment .eofInCommentDash
  | some '-' => l.goto .commentEnd
  | some '\x00' => (l.commentNul ['-']).goto .comment
  | some d => (l.withComment ['-', d]).goto .comment

def commentEndStep (l : Lexer) : Lexer :=
  let (c, l) := l.read
  match c with
  | none => l.endComment .eofInCommentDashes
  | some '>' => l.putComment
  | some '\x00' => (l.commentNul ['-', '-']).goto .comment
  | some '!' => (l.fault .bangInComment).goto .commentEndBang
  | some '-' => (l.fault .dashInComment).withComment ['-']
  | some d => ((l.fault .charInComment).withComment ['-', '-', d]).goto .comment

def commentEndBangStep (l : Lexer) : Lexer :=
  let (c, l) := l.read
  match c with
  | none => l.endComment .eofInCommentBang
  | some '>' => l.putComment
  | some '-' => (l.withComment ['-', '-', '!']).goto .commentEndDash
  | some '\x00' => (l.commentNul ['-', '-', '!']).goto .comment
  | some d => (l.withComment ['-', '-', '!', d]).goto .comment

/-- Reads a word, any of whose letters may have two forms, and says whether it came whole. What was
read comes with it, last first. -/
def readWord : List (List Char) → List (Option Char) → Lexer → Bool × List (Option Char) × Lexer
  | [], done, l => (true, done, l)
  | forms :: word, done, l =>
    let (c, l) := l.read
    if c.any forms.contains then readWord word (c :: done) l else (false, c :: done, l)

def doctypeWord : List (List Char) :=
  [['o', 'O'], ['c', 'C'], ['t', 'T'], ['y', 'Y'], ['p', 'P'], ['e', 'E']]

def cdataWord : List (List Char) := [['C'], ['D'], ['A'], ['T'], ['A'], ['[']]

/-- Puts back what was read, last first, and goes on as a bogus comment. -/
def noDeclaration (l : Lexer) (done : List (Option Char)) : Lexer :=
  (done.foldl unread (l.fault .expectedDashesOrDoctype)).goto .bogusComment

/-- What stands behind the exclamation mark. Sections are read only in foreign elements. -/
def declarationStep (foreign : Bool) (l : Lexer) : Lexer :=
  let (c, l) := l.read
  if c = some '-' then
    let (d, l) := l.read
    if d = some '-' then { l with draft := .comment [], state := .commentStart }
    else l.noDeclaration [d, c]
  else if c = some 'd' ∨ c = some 'D' then
    let (whole, done, l) := readWord doctypeWord [c] l
    if whole then { l with draft := .doctype ⟨[], none, none, true⟩, state := .doctype }
    else l.noDeclaration done
  else if c = some '[' && foreign then
    let (whole, done, l) := readWord cdataWord [c] l
    if whole then l.goto .cdata else l.noDeclaration done
  else l.noDeclaration [c]

def readSection : Nat → List Char → Lexer → List Char × Lexer
  | 0, done, l => (done, l)
  | fuel + 1, done, l =>
    let (before, l) := l.readWhile (· ≠ ']')
    let (brackets, l) := l.readWhile (· ≠ '>')
    let (c, l) := l.read
    match c with
    | none => (done ++ before ++ brackets, l)
    | some _ =>
      if [']', ']'].isSuffixOf brackets then
        (done ++ before ++ brackets.take (brackets.length - 2), l)
      else readSection fuel (done ++ before ++ brackets ++ ['>']) l

def cdataStep (l : Lexer) : Lexer :=
  let (text, l) := readSection (l.input.rest.length + 1) [] l
  let l := (text.filter (· = '\x00')).foldl (fun l _ => l.fault .invalidCodepoint) l
  let shown := text.map fun c => if c = '\x00' then lost else c
  (if shown.isEmpty then l else l.characters shown).goto .data

end HtmlTree.Html.Lexer
