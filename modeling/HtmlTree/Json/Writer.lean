import HtmlTree.Value

/-! Values written as JSON in ASCII: laid out over lines with four spaces a level, or on one line.
Everything outside the visible ASCII characters is written as escapes of UTF-16 units. -/

namespace HtmlTree.Json

open Text (hex)

def unit (n : Nat) : List Char := '\\' :: 'u' :: hex 4 n

def escape (c : Char) : List Char :=
  if c == '"' then ['\\', '"']
  else if c == '\\' then ['\\', '\\']
  else if c == '\n' then ['\\', 'n']
  else if c == '\r' then ['\\', 'r']
  else if c == '\t' then ['\\', 't']
  else if c == '\x0c' then ['\\', 'f']
  else if c == '\x08' then ['\\', 'b']
  else if ' ' ≤ c && c ≤ '~' then [c]
  else if c.toNat < 0x10000 then unit c.toNat
  else unit (0xD800 + (c.toNat - 0x10000) / 0x400) ++ unit (0xDC00 + (c.toNat - 0x10000) % 0x400)

def string (s : String) : List Char := '"' :: s.toList.flatMap escape ++ ['"']

def real (x : Decimal.Binary64) : List Char :=
  if x.isNaN then ['N', 'a', 'N']
  else if x.isInfinite then
    (if x.negative then ['-'] else []) ++ ['I', 'n', 'f', 'i', 'n', 'i', 't', 'y']
  else x.written

/-- Where lines break: nowhere, or before each item at the given level. -/
inductive Layout where
  | line
  | level (n : Nat)

def Layout.deeper : Layout → Layout
  | line => line
  | level n => level (n + 1)

def Layout.break : Layout → List Char
  | line => []
  | level n => '\n' :: List.replicate (4 * n) ' '

def scalar : Value → List Char
  | .null => ['n', 'u', 'l', 'l']
  | .bool b => if b then ['t', 'r', 'u', 'e'] else ['f', 'a', 'l', 's', 'e']
  | .int n => Value.integer n
  | .real x => real x
  | .text s => string s
  | _ => []

mutual

def value (layout : Layout) : Value → List Char
  | .list [] => ['[', ']']
  | .list (item :: items) =>
    '[' :: layout.deeper.break ++ value layout.deeper item ++ moreItems layout.deeper items ++
      layout.break ++ [']']
  | .dict [] => ['\x7b', '\x7d']
  | .dict ((k, v) :: entries) =>
    '\x7b' :: layout.deeper.break ++ string k ++ [':', ' '] ++ value layout.deeper v ++
      moreEntries layout.deeper entries ++ layout.break ++ ['\x7d']
  | other => scalar other

def moreItems (layout : Layout) : List Value → List Char
  | [] => []
  | item :: items => ',' :: layout.break ++ value layout item ++ moreItems layout items

def moreEntries (layout : Layout) : List (String × Value) → List Char
  | [] => []
  | (k, v) :: entries =>
    ',' :: layout.break ++ string k ++ [':', ' '] ++ value layout v ++ moreEntries layout entries

end

def document (v : Value) : String := String.ofList (value (.level 0) v)

def line (v : Value) : String := String.ofList (value .line v)

end HtmlTree.Json
