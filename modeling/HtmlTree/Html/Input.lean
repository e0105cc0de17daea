import HtmlTree.Html.Fault

/-! The text under a lexer. It arrives in blocks of a fixed size; line ends are made line feeds,
and code points that no text should hold are counted as their block arrives. The position is that
of the last character read. A character put back at the start of a block counts once more when it
is read again. -/

namespace HtmlTree.Html

/-- Controls other than white space and NUL, and code points that are no characters. -/
def isForbidden (c : Char) : Bool :=
  let n := c.toNat
  (1 ≤ n && n ≤ 8) || n == 0xB || (0xE ≤ n && n ≤ 0x1F) || (0x7F ≤ n && n ≤ 0x9F) ||
    (0xFDD0 ≤ n && n ≤ 0xFDEF) || 0xFFFE ≤ n % 0x10000

/-- A carriage return, with a line feed after it or without, as one line feed. -/
def unifyLines : List Char → List Char
  | [] => []
  | '\r' :: '\n' :: rest => '\n' :: unifyLines rest
  | '\r' :: rest => '\n' :: unifyLines rest
  | c :: rest => c :: unifyLines rest

structure Block where
  length : Nat
  forbidden : Nat
  deriving DecidableEq, Repr

namespace Block

def size : Nat := 10240

def of (text : List Char) : Block :=
  ⟨(unifyLines text).length, (text.filter isForbidden).length⟩

/-- The blocks of a text. A carriage return at the end of a block waits for the next one, unless it
is all there is. -/
def split : Nat → Bool → List Char → List Block
  | 0, _, _ => []
  | fuel + 1, held, text =>
    let text' := if held then '\r' :: text.take size else text.take size
    if text'.isEmpty then []
    else if 1 < text'.length && text'.getLast? == some '\r' then
      of text'.dropLast :: split fuel true (text.drop size)
    else of text' :: split fuel false (text.drop size)

end Block

structure Input where
  rest : List Char
  line : Nat
  column : Nat
  seen : List Char
  room : Nat
  later : List Block
  alerts : Nat
  deriving DecidableEq, Repr

namespace Input

def ofText (text : List Char) : Input where
  rest := unifyLines text
  line := 0
  column := 0
  seen := []
  room := 0
  later := Block.split (text.length / Block.size + 2) false text
  alerts := 0

def place (i : Input) : Nat × Nat :=
  (i.line + i.seen.count '\n',
    if i.seen.contains '\n' then (i.seen.takeWhile (· ≠ '\n')).length
    else i.column + i.seen.length)

def position (i : Input) : Position := ⟨i.place.1 + 1, i.place.2⟩

def load (i : Input) : Input :=
  let i := { i with line := i.place.1, column := i.place.2, seen := [] }
  match i.later with
  | [] => i
  | b :: later => { i with room := b.length, later, alerts := i.alerts + b.forbidden }

def refill (i : Input) : Input := if i.room = 0 then i.load else i

def take (i : Input) (c : Char) (rest : List Char) : Input :=
  { i with rest, seen := c :: i.seen, room := i.room - 1 }

def read (i : Input) : Option Char × Input :=
  let i := i.refill
  match i.rest with
  | [] => (none, i)
  | c :: rest => (some c, i.take c rest)

/-- Puts back the last thing read. The end of the text cannot be put back and stays where it is. -/
def unread (i : Input) : Option Char → Input
  | none => i
  | some c => { i with rest := c :: i.rest, seen := i.seen.drop 1, room := i.room + 1 }

def advance (p : Char → Bool) : List Char → Input → Input
  | [], i => i.refill
  | c :: rest, i =>
    let i := i.refill
    if p c then advance p rest (i.take c rest) else i

/-- The longest run of characters of a class. A run up to the end of a block reads on in the
next. -/
def readWhile (i : Input) (p : Char → Bool) : List Char × Input :=
  (i.rest.takeWhile p, advance p i.rest i)

end Input

end HtmlTree.Html
