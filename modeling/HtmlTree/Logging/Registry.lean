import HtmlTree.Files
import HtmlTree.Logging.Layout
import HtmlTree.Settings

/-! Loggers in a dotted hierarchy, their set-up, and the way of a record to the console and to
files. A logger is set up once: later calls for its name change nothing. The hierarchy is among the
loggers that were asked for so far. -/

namespace HtmlTree.Logging

inductive Handler where
  | null
  | console (level : Nat) (colour : Bool)
  | file (level : Nat) (path : String)
  deriving DecidableEq, Repr

namespace Handler

def level : Handler → Nat
  | null => 0
  | console level _ => level
  | file level _ => level

def isNull : Handler → Bool
  | null => true
  | _ => false

end Handler

/-- A logger's own level, zero if it has none, and its handlers in the order of their making. -/
structure Logger where
  level : Nat
  handlers : List Handler
  deriving DecidableEq, Repr

structure Registry where
  loggers : List (String × Logger)
  files : Files
  deriving DecidableEq, Repr

inductive SetupFailure where
  | unusable
  | file (failure : FileFailure)
  deriving DecidableEq, Repr

structure Setup where
  logFile : Value := .null
  consoleLevel : Value := .text "INFO"
  fileLevel : Value := .text "DEBUG"
  component : Value := .null
  colour : Value := .bool true

namespace Setup

/-- Whether a level can be looked up by a value, as it can not by lists and dictionaries. -/
def isKey : Value → Bool
  | .list _ | .dict _ => false
  | _ => true

/-- The level that a value names; what names none falls back. -/
def levelOf (fallback : Nat) : Value → Nat
  | .text name => (Level.named.lookup name).getD fallback
  | _ => fallback

def hasLevels (s : Setup) : Bool := isKey s.consoleLevel && isKey s.fileLevel

def console (s : Setup) : Nat := levelOf Level.info s.consoleLevel

def file (s : Setup) : Nat := levelOf Level.debug s.fileLevel

def shown : Value → String
  | .text s => s
  | v => v.describe

def name (s : Setup) : String :=
  if s.component.truthy then Record.top ++ "." ++ shown s.component else Record.top

def ofSettings (c : Settings) : Setup where
  logFile := c.get "logging.log_file" .null
  consoleLevel := c.get "logging.console_level" (.text "WARNING")
  fileLevel := c.get "logging.file_level" (.text "DEBUG")

end Setup

namespace Registry

def initial : Registry := ⟨[(Record.top, ⟨0, [.null]⟩)], .empty⟩

def logger (g : Registry) (name : String) : Logger := (lookup name g.loggers).getD ⟨0, []⟩

def setLogger (g : Registry) (name : String) (l : Logger) : Registry :=
  { g with loggers := put name l g.loggers }

def addHandler (g : Registry) (name : String) (h : Handler) : Registry :=
  let l := g.logger name
  g.setLogger name { l with handlers := l.handlers ++ [h] }

def knows (g : Registry) (name : String) : Bool := (lookup name g.loggers).isSome

def meet (g : Registry) (name : String) : Registry :=
  if g.knows name then g else g.setLogger name ⟨0, []⟩

def isSetUp (l : Logger) : Bool := l.handlers.any fun h => !h.isNull

def openFile (g : Registry) (path : String) : Registry × Except SetupFailure Unit :=
  let folder := Files.directory path
  match if folder = "" then .ok g.files else g.files.makeFolders folder with
  | .error failure => (g, .error (.file failure))
  | .ok files =>
    match files.append path "" with
    | .error failure => ({ g with files }, .error (.file failure))
    | .ok files => ({ g with files }, .ok ())

def addConsole (g : Registry) (s : Setup) : Registry :=
  let g := g.setLogger s.name { g.logger s.name with level := min s.console s.file }
  g.addHandler s.name (.console s.console s.colour.truthy)

def addFile (g : Registry) (s : Setup) : Registry × Except SetupFailure Unit :=
  if s.logFile.truthy then
    match s.logFile with
    | .text path =>
      match g.openFile path with
      | (g, .ok ()) => (g.addHandler s.name (.file s.file path), .ok ())
      | (g, .error failure) => (g, .error failure)
    | _ => (g, .error .unusable)
  else (g, .ok ())

/-- Sets a logger up: levels first, then its console, then its file. What was done before a failure
stays done. -/
def setUp (g : Registry) (s : Setup) : Registry × Except SetupFailure Unit :=
  let g := g.meet s.name
  if isSetUp (g.logger s.name) then (g, .ok ())
  else if s.hasLevels then (g.addConsole s).addFile s
  else (g, .error .unusable)

/-- The loggers above one whose name is read from its end, nearest first. A name ends at a dot; where
the part up to a dot is no logger's name, a dot right in front of that one is passed over. -/
def above (g : Registry) : List Char → List String
  | '.' :: c :: rest =>
    let name := String.ofList (c :: rest).reverse
    if g.knows name then name :: above g (c :: rest) else above g rest
  | _ :: rest => above g rest
  | [] => []

def lineage (g : Registry) (name : String) : List String := name :: g.above name.toList.reverse

/-- The first level set on the way up; at the top it is that of warnings. -/
def effectiveLevel (g : Registry) (name : String) : Nat :=
  (((g.lineage name).map fun name => (g.logger name).level).find? (· ≠ 0)).getD Level.warning

def handlersOf (g : Registry) (name : String) : List Handler :=
  (g.lineage name).flatMap fun name => (g.logger name).handlers

def writeFile (files : Files) (path : String) (line : List Char) : Files :=
  match files.append path (String.ofList (line ++ ['\n'])) with
  | .ok files => files
  | .error _ => files

/-- One handler's share of a record: what it adds to the console, and the files after it. -/
def handle (files : Files) (m : Moment) (r : Record) (h : Handler) : List Char × Files :=
  if r.level < h.level then ([], files)
  else
    match h with
    | .null => ([], files)
    | .console _ colour => (format .console colour m r ++ ['\n'], files)
    | .file _ path => ([], writeFile files path (format .file false m r))

def deliver (files : Files) (m : Moment) (r : Record) : List Handler → List Char × Files
  | [] => ([], files)
  | h :: handlers =>
    let (shown, files) := handle files m r h
    let (more, files) := deliver files m r handlers
    (shown ++ more, files)

/-- A record that meets no handler at all is shown bare if it is a warning or worse. -/
def emit (g : Registry) (m : Moment) (r : Record) : List Char × Registry :=
  let known := g.meet r.logger
  if r.level < g.effectiveLevel r.logger then ([], known)
  else
    match g.handlersOf r.logger with
    | [] =>
      if r.level < Level.warning then ([], known)
      else (Layout.messageOnly.render m r ++ ['\n'], known)
    | handlers =>
      let (shown, files) := deliver g.files m r handlers
      (shown, { known with files })

def emitAll (g : Registry) (m : Moment) : List Record → List Char × Registry
  | [] => ([], g)
  | r :: records =>
    let (shown, g) := g.emit m r
    let (more, g) := g.emitAll m records
    (shown ++ more, g)

end Registry

/-- A failure of a given kind with an argument. A missing key is shown quoted, and the library's
own kind by its full name. -/
def raisedOf (kind argument : String) : Raised :=
  if kind = "KeyError" then ⟨kind, Text.quoted argument⟩
  else if kind = "InvalidShapeError" then ⟨Record.top ++ ".errors." ++ kind, argument⟩
  else ⟨kind, argument⟩

def failureRecord (logger : String) (raised : Raised) (message : String) : Record :=
  ⟨logger, Level.error, message ++ ": " ++ raised.text, some raised⟩

end HtmlTree.Logging
