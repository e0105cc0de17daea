import HtmlTree.Html.Construction
import HtmlTree.Html.Declaration
import HtmlTree.Html.Lexer

/-! Parsing: the lexer's items are taken up one by one, and each fault is reported with the place
the lexer has come to. If the encoding of a text is only a guess and the text declares another one,
parsing starts again. -/

namespace HtmlTree.Html

inductive Source where
  | text (s : String)
  | bytes (b : List UInt8)
  deriving DecidableEq, Repr

inductive Goal where
  | document
  | fragment (container : String)
  deriving DecidableEq, Repr

structure ParseOptions where
  /-- Whether the first fault ends the parse. -/
  strict : Bool
  /-- The namespace of HTML elements. -/
  standard : Space
  deriving DecidableEq, Repr

inductive Ending where
  | complete
  | refused (fault : Fault)
  | collapsed (c : Collapse)
  | redeclared (encoding : Encoding)
  deriving DecidableEq, Repr

/-- A parse under way. Reports are kept last first. -/
structure Parse where
  strict : Bool
  /-- The encoding in use, while it is only a guess. -/
  guess : Option Encoding
  lexer : Lexer
  builder : Builder
  reports : List Report
  ending : Option Ending
  deriving Repr

namespace Parse

def report (p : Parse) (f : Fault) : Parse :=
  if p.ending.isSome then p
  else
    { p with
      reports := ⟨p.lexer.input.position, f⟩ :: p.reports
      ending := if p.strict then some (.refused f) else none }

/-- A declared encoding replaces a guess; one with units of 16 bits cannot be meant. -/
def redeclare (p : Parse) : Parse :=
  match p.guess, p.builder.declaration.bind Declaration.labelOf? with
  | some guess, some label =>
    match Encoding.ofLabel? label with
    | some e =>
      if e.isUtf16 then p
      else if e = guess then { p with guess := none }
      else { p with ending := some (.redeclared e) }
    | none => p
  | _, _ => p

def settle (p : Parse) : Parse :=
  let b := p.builder
  let p := b.faults.reverse.foldl report { p with builder := { b with faults := [] } }
  if p.ending.isSome then p
  else
    match b.collapse with
    | some c => { p with ending := some (.collapsed c) }
    | none =>
      let p := p.redeclare
      let lexer :=
        match b.lexerState with
        | some kind => p.lexer.goto kind.state
        | none => p.lexer
      { p with lexer, builder := { p.builder with lexerState := none, declaration := none } }

def take (p : Parse) (item : Item) : Parse :=
  if p.ending.isSome then p
  else
    match item with
    | .fault f => p.report f
    | .token t => { p with builder := p.builder.step t }.settle

def inForeign (p : Parse) : Bool :=
  match p.builder.stack with
  | o :: _ => o.space != p.builder.standard
  | [] => false

/-- The end of the text. Items that the lexer has not handed over by then are lost. -/
def finish (p : Parse) : Parse :=
  let p := { p with builder := p.builder.finish }.settle
  if p.ending.isSome then p else { p with ending := some .complete }

def run : Nat → Parse → Parse
  | 0, p => p.finish
  | fuel + 1, p =>
    if p.ending.isSome then p
    else
      match p.lexer.step p.inForeign with
      | none => p.finish
      | some lexer =>
        let (items, lexer) := lexer.drain
        run fuel (items.foldl take { p with lexer })

/-- Enough steps for a text: each reads a character or is one of a few between two characters. -/
def steps (text : List Char) : Nat := 8 * (text.length + 8)

def firstState (container : String) : LexState :=
  if ["title", "textarea"].contains container then .escapableText
  else if ["style", "script", "xmp", "iframe", "noembed", "noframes", "noscript"].contains
      container then .rawText
  else if container = "plaintext" then .plaintext
  else .data

def ofText (o : ParseOptions) (goal : Goal) (guess : Option Encoding) (text : List Char) : Parse :=
  let (state, builder) :=
    match goal with
    | .document => (.data, Builder.document o.standard)
    | .fragment container =>
      let name := Text.lowerAll container
      (firstState name, Builder.fragment o.standard name)
  run (steps text) (settle ⟨o.strict, guess, .start state text, builder, [], none⟩)

/-- Without a mark and a declaration near the start, bytes are taken for Windows text. -/
def ofBytes (o : ParseOptions) (goal : Goal) (bytes : List UInt8) : Parse :=
  match Encoding.ofMark? bytes with
  | some (e, rest) => ofText o goal none (e.decode rest)
  | none =>
    let guess := (Declaration.search? bytes).getD .windows1252
    let p := ofText o goal (some guess) (guess.decode bytes)
    match p.ending with
    | some (.redeclared e) => ofText o goal none (e.decode bytes)
    | _ => p

def ofSource (o : ParseOptions) (goal : Goal) : Source → Parse
  | .text s => ofText o goal none s.toList
  | .bytes b => ofBytes o goal b

end Parse

end HtmlTree.Html
