/-! Escaping of text. -/

namespace HtmlTree.Markup

/-- An ampersand or an angle bracket as its named reference. -/
def escapeChar (c : Char) : List Char :=
  if c = '&' then ['&', 'a', 'm', 'p', ';']
  else if c = '<' then ['&', 'l', 't', ';']
  else if c = '>' then ['&', 'g', 't', ';']
  else [c]

def escapeText (text : List Char) : List Char := text.flatMap escapeChar

def escapeString (text : String) : String := String.ofList (escapeText text.toList)

end HtmlTree.Markup
