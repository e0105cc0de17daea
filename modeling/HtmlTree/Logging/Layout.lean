import HtmlTree.Journal

/-! How a record becomes a line. A layout is a list of pieces; in its written form a slot stands
between a percent sign with parentheses and a letter for its kind. What a line shows of a level is the
name the level goes by, and its colour is a matter of that name. -/

namespace HtmlTree.Logging

inductive Slot where
  | time
  | level
  | levelNumber
  | logger
  | message
  | file
  | line
  deriving DecidableEq, Repr

inductive Piece where
  | plain (text : List Char)
  | slot (f : Slot)
  deriving DecidableEq, Repr

abbrev Layout := List Piece

/-- What a line is made from besides the record: when it was written, and where. -/
structure Moment where
  time : String
  file : String
  line : String

namespace Slot

def names : List (Slot × String) :=
  [(time, "asctime"), (level, "levelname"), (levelNumber, "levelno"), (logger, "name"),
   (message, "message"), (file, "filename"), (line, "lineno")]

def isNumber : Slot → Bool
  | levelNumber | line => true
  | _ => false

def ofName (name : List Char) : Option Slot :=
  (names.find? fun entry => entry.2.toList = name).map (·.1)

def written (f : Slot) : List Char :=
  let name := (names.lookup f).getD ""
  '%' :: '(' :: name.toList ++ [')', if f.isNumber then 'd' else 's']

def of (m : Moment) (r : Record) (levelName : String) : Slot → List Char
  | time => m.time.toList
  | level => levelName.toList
  | levelNumber => (toString r.level).toList
  | logger => r.logger.toList
  | message => r.message.toList
  | file => m.file.toList
  | line => m.line.toList

end Slot

namespace Layout

open Piece Slot

def written (layout : Layout) : String :=
  String.ofList (layout.flatMap fun
    | plain text => text
    | slot f => f.written)

def slot? : List Char → Option (Slot × List Char)
  | '(' :: rest =>
    match rest.dropWhile (· != ')') with
    | ')' :: kind :: after =>
      match Slot.ofName (rest.takeWhile (· != ')')) with
      | some f => if kind = 's' ∨ (kind = 'd' ∧ f.isNumber) then some (f, after) else none
      | none => none
    | _ => none
  | _ => none

def readFrom : Nat → List Char → Option Layout
  | 0, _ => none
  | _ + 1, [] => some []
  | fuel + 1, '%' :: rest =>
    match rest with
    | '%' :: rest => (readFrom fuel rest).map (plain ['%'] :: ·)
    | rest =>
      match slot? rest with
      | some (f, rest) => (readFrom fuel rest).map (slot f :: ·)
      | none => none
  | fuel + 1, c :: rest => (readFrom fuel rest).map (plain [c] :: ·)

/-- A layout shows at least one slot. -/
def read? (text : String) : Option Layout :=
  let chars := text.toList
  match readFrom (chars.length + 1) chars with
  | some layout => if layout.any fun | slot _ => true | plain _ => false then some layout else none
  | none => none

def messageOnly : Layout := [slot message]

def console : Layout :=
  [slot time, plain " [".toList, slot level, plain "] ".toList, slot logger, plain ": ".toList,
   slot message]

def file : Layout :=
  [slot time, plain " [".toList, slot level, plain "] ".toList, slot logger, plain " (".toList,
   slot Slot.file, plain ":".toList, slot line, plain "): ".toList, slot message]

/-- The record's line, with its level under a name, and below it the failure it reports. -/
def renderAs (layout : Layout) (levelName : String) (m : Moment) (r : Record) : List Char :=
  let text := layout.flatMap fun
    | plain text => text
    | slot f => f.of m r levelName
  match r.raised with
  | none => text
  | some raised =>
    (if text.getLast? = some '\n' then text else text ++ ['\n']) ++ raised.line.toList

def render (layout : Layout) (m : Moment) (r : Record) : List Char :=
  layout.renderAs (Level.name r.level) m r

end Layout

def replaceFirst (part new : List Char) : List Char → List Char
  | [] => if part.isEmpty then new else []
  | c :: rest =>
    if part.isPrefixOf (c :: rest) then new ++ (c :: rest).drop part.length
    else c :: replaceFirst part new rest

namespace Colour

def reset : List Char := ['\x1b', '[', '0', 'm']

def red : List Char := ['\x1b', '[', '3', '1', 'm']

def green : List Char := ['\x1b', '[', '3', '2', 'm']

def yellow : List Char := ['\x1b', '[', '3', '3', 'm']

def blue : List Char := ['\x1b', '[', '3', '4', 'm']

def bold : List Char := ['\x1b', '[', '1', 'm']

def named : List (String × List Char) :=
  [("DEBUG", blue), ("INFO", green), ("WARNING", yellow), ("ERROR", red), ("CRITICAL", red ++ bold)]

end Colour

/-- A rendered record whose first mention of its level's name is coloured. -/
def coloured (levelName : String) (text : List Char) : List Char :=
  match Colour.named.lookup levelName with
  | some code =>
    let name := levelName.toList
    replaceFirst name (code ++ name ++ Colour.reset) text
  | none => text

def formatAs (layout : Layout) (levelName : String) (colour : Bool) (m : Moment) (r : Record) :
    List Char :=
  let text := layout.renderAs levelName m r
  if colour then coloured levelName text else text

def format (layout : Layout) (colour : Bool) (m : Moment) (r : Record) : List Char :=
  formatAs layout (Level.name r.level) colour m r

end HtmlTree.Logging
