/-! The ASCII classes that HTML is written in, and its case folding, which leaves every character
outside A to Z alone. -/

namespace HtmlTree.Text

def isSpace (c : Char) : Bool :=
  c == ' ' || c == '\n' || c == '\t' || c == '\x0c' || c == '\r'

def isUpper (c : Char) : Bool := 'A' ≤ c && c ≤ 'Z'

def isLower (c : Char) : Bool := 'a' ≤ c && c ≤ 'z'

def isLetter (c : Char) : Bool := isUpper c || isLower c

def isDigit (c : Char) : Bool := '0' ≤ c && c ≤ '9'

def isHexDigit (c : Char) : Bool :=
  isDigit c || ('a' ≤ c && c ≤ 'f') || ('A' ≤ c && c ≤ 'F')

def lower (c : Char) : Char :=
  if isUpper c then Char.ofNat (c.toNat + 32) else c

def lowerAll (s : String) : String := String.ofList (s.toList.map lower)

def digitValue (c : Char) : Nat :=
  if isDigit c then c.toNat - '0'.toNat
  else if isUpper c then c.toNat - 'A'.toNat + 10
  else c.toNat - 'a'.toNat + 10

def readDigits (base : Nat) (digits : List Char) : Nat :=
  digits.foldl (fun n c => n * base + digitValue c) 0

def hex (width n : Nat) : List Char :=
  let digits := Nat.toDigits 16 n
  List.replicate (width - digits.length) '0' ++ digits

end HtmlTree.Text
