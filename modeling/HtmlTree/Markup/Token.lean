import HtmlTree.Text.Ascii

/-! The tokens that a tree is written as. Texts come in pieces: white space at their ends apart from
what lies between. A problem is a remark on the tree and is not written. -/

namespace HtmlTree.Markup

abbrev Pairs := List (String × String)

inductive Token where
  | startTag (name : String) (space : Option String) (attrs : Pairs)
  | emptyTag (name : String) (space : Option String) (attrs : Pairs)
  | endTag (name : String) (space : Option String)
  | characters (text : String)
  | spaces (text : String)
  | comment (data : String)
  | doctype (name : String) (publicId systemId : Option String)
  | problem (text : String)
  deriving DecidableEq, Repr

namespace Token

open Text (isSpace)

def nonempty (make : String → Token) (text : List Char) : List Token :=
  if text.isEmpty then [] else [make (String.ofList text)]

/-- A text's pieces: the white space before, what lies between, the white space after. -/
def ofText (text : String) : List Token :=
  let chars := text.toList
  let rest := chars.dropWhile isSpace
  let middle := (rest.reverse.dropWhile isSpace).reverse
  nonempty spaces (chars.takeWhile isSpace) ++ nonempty characters middle ++
    nonempty spaces (rest.drop middle.length)

end Token

end HtmlTree.Markup
