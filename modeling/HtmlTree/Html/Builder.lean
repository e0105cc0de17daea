import HtmlTree.Html.Foreign
import HtmlTree.Html.Lexer.State

/-! The state of tree construction, and how elements and text enter the tree. -/

namespace HtmlTree.Html

inductive Mode where
  | initial
  | beforeHtml
  | beforeHead
  | inHead
  | inHeadNoscript
  | afterHead
  | inBody
  | text
  | inTable
  | inTableText
  | inCaption
  | inColumnGroup
  | inTableBody
  | inRow
  | inCell
  | inSelect
  | inSelectInTable
  | afterBody
  | inFrameset
  | afterFrameset
  | afterAfterBody
  | afterAfterFrameset
  deriving DecidableEq, Repr

/-- Ways in which construction breaks down: it finds itself in a place that should not exist, or has
nowhere to put a misnested node. -/
inductive Collapse where
  | impossible
  | noPlace
  deriving DecidableEq, Repr

structure Builder where
  arena : Arena
  /-- The namespace of HTML elements. -/
  standard : Space
  /-- The name of the element around a fragment; none for a document. -/
  context : Option String
  /-- The open elements, innermost first. -/
  stack : List Open
  /-- The active formatting elements, oldest first; none is a marker. -/
  formatting : List (Option Open)
  head : Option Open
  form : Option Open
  mode : Mode
  /-- The mode to return to when raw text ends. -/
  textReturn : Mode
  /-- The mode to return to when text in a table ends. -/
  tableReturn : Mode
  /-- Text in a table, last piece first. -/
  tableText : List String
  /-- Whether nodes that cannot stand in a table are put before it. -/
  fostering : Bool
  framesetOk : Bool
  oldLayout : Bool
  /-- Whether a line feed is dropped if it comes next. -/
  dropNewline : Bool
  firstIsRoot : Bool
  /-- Whether the tag under way may have a solidus. -/
  acknowledged : Bool
  /-- Whether the token under way is to be taken up again. -/
  again : Bool
  faults : List Fault
  /-- What the lexer is to read from here on, if it is told. -/
  lexerState : Option TextKind
  /-- The last element seen that may declare an encoding. -/
  declaration : Option Tag
  collapse : Option Collapse
  deriving DecidableEq, Repr

namespace Builder

def initial (standard : Space) : Builder where
  arena := .initial
  standard := standard
  context := none
  stack := []
  formatting := []
  head := none
  form := none
  mode := .initial
  textReturn := .initial
  tableReturn := .initial
  tableText := []
  fostering := false
  framesetOk := true
  oldLayout := false
  dropNewline := false
  firstIsRoot := false
  acknowledged := false
  again := false
  faults := []
  lexerState := none
  declaration := none
  collapse := none

/-- Notes a fault, unless construction has broken down. -/
def report (b : Builder) (f : Fault) : Builder :=
  if b.collapse.isSome then b else { b with faults := f :: b.faults }

def breakDown (b : Builder) (c : Collapse) : Builder :=
  if b.collapse.isSome then b else { b with collapse := some c }

/-- What holds of fragments only. -/
def needContext (b : Builder) : Builder := if b.context.isSome then b else b.breakDown .impossible

def goto (b : Builder) (mode : Mode) : Builder := { b with mode }

/-- Takes the token up again in the mode now set. -/
def retry (b : Builder) : Builder := { b with again := true }

def acknowledge (b : Builder) : Builder := { b with acknowledged := true }

def bottom : Open := ⟨Arena.document, "", .bare⟩

def current (b : Builder) : Open := b.stack.head?.getD bottom

def isCurrent (b : Builder) (name : String) : Bool := b.current.name == name

def root (b : Builder) : Open := b.stack.getLast?.getD bottom

def second (b : Builder) : Option Open := b.stack.reverse[1]?

def pop (b : Builder) : Builder := { b with stack := b.stack.tail }

def inScope (b : Builder) (scope : Scope) (name : String) : Bool :=
  findInScope scope (·.isHtml name) b.stack

def holds (b : Builder) (o : Open) : Bool := b.stack.any fun p => p.id == o.id

def popThroughName (b : Builder) (name : String) : Builder :=
  { b with stack := popThrough (·.name == name) b.stack }

def popToNames (b : Builder) (names : List String) : Builder :=
  { b with stack := popTo (fun o => names.contains o.name) b.stack }

def dropImplied (b : Builder) (except : Option String) : Builder :=
  { b with stack := Html.dropImplied except b.stack }

def removeOpen (b : Builder) (o : Open) : Builder :=
  { b with stack := b.stack.eraseP fun p => p.id == o.id }

/-- Where a misnested node goes: into a parent, before one of its children if one is given. The
place is before the innermost open table, or if that has no parent, in the element that was open
around it. -/
def fosterPlace (b : Builder) : Nat × Option Nat :=
  match popTo (·.name == "table") b.stack with
  | [] => (b.root.id, none)
  | table :: around =>
    match b.arena.parent table.id with
    | some p => (p, some table.id)
    | none => ((around.head?.getD b.current).id, none)

def isMisplaced (b : Builder) : Bool := b.fostering && tableContextTags.contains b.current.name

def placeNode (b : Builder) (i : Nat) : Builder :=
  if b.isMisplaced then
    match b.fosterPlace with
    | (p, some next) => { b with arena := b.arena.insertBefore p i next }
    | (p, none) => { b with arena := b.arena.append p i }
  else { b with arena := b.arena.append b.current.id i }

def insertText (b : Builder) (text : String) : Builder :=
  let (i, arena) := b.arena.make (.text text)
  { b with arena }.placeNode i

def insertPart (b : Builder) (name : String) (space : Space) (attrs : List BuiltAttr) : Builder :=
  let (i, arena) := b.arena.make (.element name space attrs)
  let b := { b with arena }.placeNode i
  { b with stack := ⟨i, name, space⟩ :: b.stack }

/-- A new element of HTML as the current node's child, open from then on. -/
def insert (b : Builder) (t : Tag) : Builder :=
  b.insertPart t.name b.standard (Foreign.builtAttrs b.standard false t.attrs)

def insertForeign (b : Builder) (space : Space) (t : Tag) (name : String) : Builder :=
  b.insertPart name space (Foreign.builtAttrs space true t.attrs)

def insertVoid (b : Builder) (t : Tag) : Builder := (b.insert t).pop

def insertComment (b : Builder) (parent : Nat) (data : String) : Builder :=
  let (i, arena) := b.arena.make (.comment data)
  { b with arena := arena.append parent i }

def insertRoot (b : Builder) : Builder :=
  let (i, arena) := b.arena.make (.element "html" b.standard [])
  { b with
    arena := arena.append Arena.document i
    stack := ⟨i, "html", b.standard⟩ :: b.stack
    mode := .beforeHead }

def mergeAttrs (b : Builder) (i : Nat) (attrs : List (String × String)) : Builder :=
  let merged := attrs.foldl (fun done (name, value) =>
    if done.any fun a => a.name = name then done else done ++ [⟨name, none, value⟩])
    (b.arena.attrs i)
  { b with arena := b.arena.setAttrs i merged }

def insertRaw (b : Builder) (t : Tag) (kind : TextKind) : Builder :=
  let b := b.insert t
  { b with lexerState := some kind, textReturn := b.mode, mode := .text }

def modeOf : String → Option Mode
  | "select" => some .inSelect
  | "td" | "th" => some .inCell
  | "tr" => some .inRow
  | "tbody" | "thead" | "tfoot" => some .inTableBody
  | "caption" => some .inCaption
  | "colgroup" => some .inColumnGroup
  | "table" => some .inTable
  | "head" | "body" => some .inBody
  | "frameset" => some .inFrameset
  | "html" => some .beforeHead
  | _ => none

/-- Some names lead on only in fragments. -/
def fragmentTags : List String := ["select", "colgroup", "head", "html"]

/-- The mode that the open elements call for: the first of them that has one decides, foreign ones
aside, and of a fragment the element around it stands for the last. -/
def resetModeFrom (b : Builder) : List Open → Builder
  | [] => b
  | [_] =>
    match b.context with
    | some name => b.goto ((modeOf name).getD .inBody)
    | none => b.breakDown .impossible
  | o :: rest =>
    let b := if fragmentTags.contains o.name then b.needContext else b
    if o.space ≠ b.standard then resetModeFrom b rest
    else
      match modeOf o.name with
      | some mode => b.goto mode
      | none => resetModeFrom b rest

def resetMode (b : Builder) : Builder := b.resetModeFrom b.stack

def document (standard : Space) : Builder := .initial standard

def fragment (standard : Space) (context : String) : Builder :=
  let b := { Builder.initial standard with context := some context }.insertRoot.resetMode
  if context.isEmpty then b.breakDown .impossible else b

end Builder

end HtmlTree.Html
