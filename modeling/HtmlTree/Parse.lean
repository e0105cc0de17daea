import HtmlTree.Dom.Build
import HtmlTree.DocumentPrefix
import HtmlTree.Settings.Section

/-! Parsing into a store under settings, with the faults found and the records of what was done. -/

namespace HtmlTree

open Html

inductive ParseFailure where
  | absent
  | notSearchable
  | badSection (failure : SectionFailure)
  | badContainer
  | refused (fault : Fault)
  | collapsed (c : Collapse)
  deriving DecidableEq, Repr

namespace ParseFailure

def message : ParseFailure → Option String
  | absent => some "Cannot parse None HTML content"
  | refused fault => some fault.sentence
  | _ => none

end ParseFailure

structure ParseOutcome where
  result : Except ParseFailure NodeId
  store : Store
  /-- The faults with their places, as far as the parse came. -/
  errors : List String
  records : List Record

namespace ParseOutcome

/-- A parse that could not begin. -/
def unable (s : Store) (failure : ParseFailure) : ParseOutcome := ⟨.error failure, s, [], []⟩

end ParseOutcome

namespace Settings

def parseOptions (c : Settings) : Except SectionFailure ParseOptions := do
  let options ← c.parserOptions
  return ⟨options.flag "strict" false,
    if options.flag "namespace_html_elements" true then .html else .bare⟩

/-- The element around a fragment: the one named, unless its name is empty, else the settings'. -/
def container (c : Settings) (name : Option String) : Option String :=
  match name.filter (· ≠ "") with
  | some name => some name
  | none => (c.get "parser.fragment_container" (.text "div")).text?

end Settings

namespace ParseLog

def goalName : Goal → String
  | .document => "document"
  | .fragment _ => "fragment"

def refused (goal : Goal) (fault : Fault) : Record :=
  { Record.ofParser Level.error
      ("Strict " ++ goalName goal ++ " parse failed: " ++ fault.sentence) with
    raised := some ⟨"ParseError", fault.sentence⟩ }

def faults (count : Nat) : List Record :=
  if count = 0 then []
  else [.ofParser Level.debug ("html5lib reported " ++ toString count ++ " parse errors")]

def done (goal : Goal) (count : Nat) : Record :=
  let context := match goal with
    | .document => "document"
    | .fragment container => "fragment in <" ++ container ++ "> context"
  .ofParser Level.debug ("Parsed " ++ context ++ " with " ++ toString count ++ " top-level nodes")

end ParseLog

def rootContent : Goal → Content
  | .document => .document
  | .fragment _ => .fragment

def conclude (s : Store) (goal : Goal) (p : Parse) : ParseOutcome :=
  let errors := (p.reports.reverse).map Report.shown
  let counted := ParseLog.faults errors.length
  match p.ending with
  | some (.refused fault) =>
    ⟨.error (.refused fault), s, errors, ParseLog.refused goal fault :: counted⟩
  | some (.collapsed c) => ⟨.error (.collapsed c), s, errors, counted⟩
  | _ =>
    let (root, s) := s.ofParsed (rootContent goal) (p.result goal)
    ⟨.ok root, s, errors, counted ++ [ParseLog.done goal (s.children root).length]⟩

def parseGoal (c : Settings) (s : Store) (goal : Goal) (source : Source) : ParseOutcome :=
  match c.parseOptions with
  | .ok options => conclude s goal (Parse.ofSource options goal source)
  | .error failure => .unable s (.badSection failure)

def parseDocument (c : Settings) (s : Store) (source : Option Source) : ParseOutcome :=
  match source with
  | some source => parseGoal c s .document source
  | none => .unable s .absent

def parseFragment (c : Settings) (s : Store) (source : Option Source) (container : Option String) :
    ParseOutcome :=
  match source with
  | none => .unable s .absent
  | some source =>
    match c.container container with
    | some name => parseGoal c s (.fragment name) source
    | none =>
      match c.parseOptions with
      | .ok _ => .unable s .badContainer
      | .error failure => .unable s (.badSection failure)

namespace Html.Source

def isDocument : Source → Bool
  | text s => HtmlTree.isDocument s
  | bytes b => isDocumentBytes b

end Html.Source

/-- Parses what looks like a document as one, and anything else as a fragment. -/
def parseSmart (c : Settings) (s : Store) (source : Option Source) : ParseOutcome :=
  match source with
  | none => .unable s .notSearchable
  | some text =>
    if text.isDocument then parseDocument c s source else parseFragment c s source none

end HtmlTree
