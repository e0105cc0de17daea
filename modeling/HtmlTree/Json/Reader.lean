import HtmlTree.Value

/-! Reading JSON. Strings hold no raw control characters, numbers no leading zeros, lists and
objects no trailing comma; NaN and the infinities are accepted as numbers. A key given again keeps
its first place and takes the last value. Strings are read as code points, since surrogates that stand
alone are among them; what becomes of these is up to the kind of text that values are made of. -/

namespace HtmlTree.Json

open Text (isDigit isHexDigit readDigits)
open Decimal (Binary64)

def isGap (c : Char) : Bool := c == ' ' || c == '\t' || c == '\n' || c == '\r'

def skipGap (s : List Char) : List Char := s.dropWhile isGap

def dropLiteral : List Char → List Char → Option (List Char)
  | [], rest => some rest
  | _ :: _, [] => none
  | w :: word, c :: rest => if c = w then dropLiteral word rest else none

def unit? : List Char → Option (Nat × List Char)
  | a :: b :: c :: d :: rest =>
    if [a, b, c, d].all isHexDigit then some (readDigits 16 [a, b, c, d], rest) else none
  | _ => none

def isHighUnit (n : Nat) : Bool := 0xD800 ≤ n && n < 0xDC00

def isLowUnit (n : Nat) : Bool := 0xDC00 ≤ n && n < 0xE000

/-- The code point of a unit escape whose unit is read, joined with a low one that follows. -/
def pair (high : Nat) (rest : List Char) : CodePoint × List Char :=
  if isHighUnit high then
    match rest with
    | '\\' :: 'u' :: more =>
      match unit? more with
      | some (low, more) =>
        if isLowUnit low then
          (.char (Char.ofNat (0x10000 + (high - 0xD800) * 0x400 + (low - 0xDC00))), more)
        else (.lone high, rest)
      | none => (.lone high, rest)
    | _ => (.lone high, rest)
  else if isLowUnit high then (.lone high, rest)
  else (.char (Char.ofNat high), rest)

def shortEscape : Char → Option Char
  | '"' => some '"'
  | '\\' => some '\\'
  | '/' => some '/'
  | 'b' => some '\x08'
  | 'f' => some '\x0c'
  | 'n' => some '\n'
  | 'r' => some '\r'
  | 't' => some '\t'
  | _ => none

/-- The rest of a string whose opening quote is read; every step takes a character. -/
def stringBody : Nat → Points → List Char → Option (Points × List Char)
  | 0, _, _ => none
  | _ + 1, _, [] => none
  | fuel + 1, done, c :: rest =>
    if c = '"' then some (done.reverse, rest)
    else if c = '\\' then
      match rest with
      | 'u' :: more =>
        match unit? more with
        | some (n, more) =>
          let (c, more) := pair n more
          stringBody fuel (c :: done) more
        | none => none
      | e :: more =>
        match shortEscape e with
        | some c => stringBody fuel (.char c :: done) more
        | none => none
      | [] => none
    else if c.toNat < 0x20 then none
    else stringBody fuel (.char c :: done) rest

def string? (s : List Char) : Option (Points × List Char) :=
  stringBody (s.length + 1) [] s

/-- A fraction or an exponent that is not followed by its digits is left unread. -/
def fractionPart : List Char → List Char × List Char
  | '.' :: rest =>
    let digits := rest.takeWhile isDigit
    if digits.isEmpty then ([], '.' :: rest) else (digits, rest.dropWhile isDigit)
  | rest => ([], rest)

def exponentPart : List Char → Option Int × List Char
  | [] => (none, [])
  | e :: rest =>
    if e = 'e' ∨ e = 'E' then
      let (negative, more) := match rest with
        | '+' :: more => (false, more)
        | '-' :: more => (true, more)
        | more => (false, more)
      let digits := more.takeWhile isDigit
      if digits.isEmpty then (none, e :: rest)
      else
        let n : Int := readDigits 10 digits
        (some (if negative then -n else n), more.dropWhile isDigit)
    else (none, e :: rest)

def wholePart : List Char → Option (List Char × List Char)
  | '0' :: rest => some (['0'], rest)
  | s =>
    let digits := s.takeWhile isDigit
    if digits.isEmpty then none else some (digits, s.dropWhile isDigit)

section Values

variable {τ : Type}

def number (negative : Bool) (s : List Char) : Option (Value τ × List Char) :=
  match wholePart s with
  | none => none
  | some (whole, rest) =>
    let (fraction, rest) := fractionPart rest
    let (exponent, rest) := exponentPart rest
    match fraction, exponent with
    | [], none =>
      let n : Int := readDigits 10 whole
      some (.int (if negative then -n else n), rest)
    | _, _ =>
      some (.real (Binary64.ofDecimal negative (readDigits 10 (whole ++ fraction))
        (exponent.getD 0 - fraction.length)), rest)

def words : List (List Char × Value τ) :=
  [(['n', 'u', 'l', 'l'], .null), (['t', 'r', 'u', 'e'], .bool true),
   (['f', 'a', 'l', 's', 'e'], .bool false), (['N', 'a', 'N'], .real .nan),
   (['I', 'n', 'f', 'i', 'n', 'i', 't', 'y'], .real (.infinity false)),
   (['-', 'I', 'n', 'f', 'i', 'n', 'i', 't', 'y'], .real (.infinity true))]

def scalar? (s : List Char) : Option (Value τ × List Char) :=
  match words.findSome? fun (word, v) => (dropLiteral word s).map fun rest => (v, rest) with
  | some found => some found
  | none =>
    match s with
    | '-' :: rest => number true rest
    | _ => number false s

variable [DecidableEq τ] (text : Points → τ)

mutual

def value? : Nat → List Char → Option (Value τ × List Char)
  | 0, _ => none
  | fuel + 1, s =>
    match s with
    | '"' :: rest => (string? rest).map fun (s, rest) => (.text (text s), rest)
    | '[' :: rest =>
      match skipGap rest with
      | ']' :: rest => some (.list [], rest)
      | rest => (items? fuel rest).map fun (items, rest) => (.list items, rest)
    | '\x7b' :: rest =>
      match skipGap rest with
      | '\x7d' :: rest => some (.dict [], rest)
      | rest => (entries? fuel rest).map fun (entries, rest) => (.dict (collect entries), rest)
    | _ => scalar? s

def items? : Nat → List Char → Option (List (Value τ) × List Char)
  | 0, _ => none
  | fuel + 1, s =>
    match value? fuel s with
    | none => none
    | some (v, rest) =>
      match skipGap rest with
      | ',' :: rest => (items? fuel (skipGap rest)).map fun (vs, rest) => (v :: vs, rest)
      | ']' :: rest => some ([v], rest)
      | _ => none

def entries? : Nat → List Char → Option (List (τ × Value τ) × List Char)
  | 0, _ => none
  | fuel + 1, s =>
    match s with
    | '"' :: rest =>
      match string? rest with
      | none => none
      | some (key, rest) =>
        match skipGap rest with
        | ':' :: rest =>
          match value? fuel (skipGap rest) with
          | none => none
          | some (v, rest) =>
            match skipGap rest with
            | ',' :: rest =>
              (entries? fuel (skipGap rest)).map fun (es, rest) => ((text key, v) :: es, rest)
            | '\x7d' :: rest => some ([(text key, v)], rest)
            | _ => none
        | _ => none
    | _ => none

end

def readAs (s : String) : Option (Value τ) :=
  let chars := s.toList
  match value? text (2 * chars.length + 2) (skipGap chars) with
  | some (v, rest) => if (skipGap rest).isEmpty then some v else none
  | none => none

end Values

def read? (s : String) : Option Value := readAs Points.replaceLone s

end HtmlTree.Json
