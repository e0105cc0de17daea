import HtmlTree.Text.Ascii
import HtmlTree.Text.WordClass

/-! Whether an input looks like a whole document: after blanks it opens with a doctype or with an
html, head or body start tag, whose name ends there. Text and undecoded bytes are asked the same
question with their own classes of blanks and word characters. -/

namespace HtmlTree

open Text

def documentOpenings : List (List Char) :=
  [['!', 'd', 'o', 'c', 't', 'y', 'p', 'e'], ['h', 't', 'm', 'l'], ['h', 'e', 'a', 'd'],
   ['b', 'o', 'd', 'y']]

def dropWord : List Char → List Char → Option (List Char)
  | [], rest => some rest
  | _ :: _, [] => none
  | w :: word, c :: rest => if lower c = w then dropWord word rest else none

def endsWord (word : Char → Bool) : List Char → Bool
  | [] => true
  | c :: _ => !word c

def opensDocument (blank word : Char → Bool) (s : List Char) : Bool :=
  match s.dropWhile blank with
  | '<' :: rest => documentOpenings.any fun opening =>
      match dropWord opening rest with
      | some rest => endsWord word rest
      | none => false
  | _ => false

def isDocument (s : String) : Bool := opensDocument isBlank isWord s.toList

def isByteBlank (c : Char) : Bool := c == ' ' || ('\t' ≤ c && c ≤ '\r')

def isByteWord (c : Char) : Bool := isLetter c || isDigit c || c == '_'

def isDocumentBytes (bytes : List UInt8) : Bool :=
  opensDocument isByteBlank isByteWord (bytes.map fun b => Char.ofNat b.toNat)

end HtmlTree
