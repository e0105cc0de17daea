import HtmlTree.Journal
import HtmlTree.Markup.Filter
import HtmlTree.Markup.Style
import HtmlTree.Markup.Walk

/-! Writing tokens as markup. Between the start tag of a raw text element and the next end tag of
one, text is written as it stands. What looks wrong on the way is reported, and written all the
same. -/

namespace HtmlTree.Markup

open Text (isSpace)

inductive RenderFailure where
  | style (failure : StyleFailure)
  | unknownQuoting
  | quoteNotText
  | tree (failure : TreeFailure)
  deriving DecidableEq, Repr

namespace RenderFailure

def message : RenderFailure → Option String
  | style (.unknownOption name) =>
    some ("__init__() got an unexpected keyword argument '" ++ name ++ "'")
  | unknownQuoting => some "quote_attr_values must be one of: 'always', 'spec', or 'legacy'"
  | tree failure => failure.message
  | _ => none

end RenderFailure

structure Rendered where
  text : List Char
  problems : List String
  deriving DecidableEq, Repr

def isPlainQuoted (c : Char) : Bool :=
  isSpace c || ['"', '\'', '=', '<', '>', '\x60'].contains c

/-- Characters that old browsers take for the end of an unquoted value. -/
def isOldBreak (c : Char) : Bool :=
  let n := c.toNat
  isPlainQuoted c || n ≤ 0x20 || c = '/' || (0x2000 ≤ n && n ≤ 0x200A) ||
    [0xA0, 0x1680, 0x180E, 0x180F, 0x2028, 0x2029, 0x202F, 0x205F, 0x3000].contains n

def needsQuote (st : Style) (value : List Char) : Except RenderFailure Bool :=
  if st.quoting = .always || value.isEmpty then .ok true
  else
    match st.quoting with
    | .spec => .ok (value.any isPlainQuoted)
    | .legacy => .ok (value.any isOldBreak)
    | _ => .error .unknownQuoting

def replaceChar (c : Char) (new : List Char) (text : List Char) : List Char :=
  text.flatMap fun d => if d = c then new else [d]

def escapeValue (st : Style) (value : List Char) : List Char :=
  let value := replaceChar '&' ['&', 'a', 'm', 'p', ';'] value
  if st.escapeLtInAttrs then replaceChar '<' ['&', 'l', 't', ';'] value else value

/-- The quote for a value that is escaped already. -/
def chooseQuote (st : Style) (quote : List Char) (value : List Char) : List Char :=
  if st.bestQuote then
    if value.contains '\'' && !value.contains '"' then ['"']
    else if value.contains '"' && !value.contains '\'' then ['\'']
    else quote
  else quote

def quoteValue (quote value : List Char) : List Char :=
  let value :=
    if quote = ['\''] then replaceChar '\'' ['&', '#', '3', '9', ';'] value
    else replaceChar '"' ['&', 'q', 'u', 'o', 't', ';'] value
  quote ++ value ++ quote

def renderValue (st : Style) (value : List Char) : Except RenderFailure (List Char) := do
  let quoted ← needsQuote st value
  let escaped := escapeValue st value
  if quoted then
    match st.quote with
    | some quote => return quoteValue (chooseQuote st quote.toList escaped) escaped
    | none =>
      match chooseQuote st [] escaped with
      | [] => throw .quoteNotText
      | quote => return quoteValue quote escaped
  else return escaped

def renderAttr (st : Style) (tag : String) (attr : String × String) :
    Except RenderFailure (List Char) :=
  if st.minimizeBoolean && Tag.isBoolean tag attr.1 then .ok (' ' :: attr.1.toList)
  else (renderValue st attr.2.toList).map fun value => ' ' :: attr.1.toList ++ '=' :: value

def renderAttrs (st : Style) (tag : String) : Pairs → Except RenderFailure (List Char)
  | [] => .ok []
  | attr :: attrs => do
    let first ← renderAttr st tag attr
    let rest ← renderAttrs st tag attrs
    return first ++ rest

def solidus (st : Style) (tag : String) : List Char :=
  if Tag.isVoid tag && st.trailingSolidus then
    (if st.spaceBeforeSolidus then [' ', '/'] else ['/'])
  else []

def hasCloser : List Char → Bool
  | '<' :: '/' :: _ => true
  | _ :: rest => hasCloser rest
  | [] => false

def hasDashes : List Char → Bool
  | '-' :: '-' :: _ => true
  | _ :: rest => hasDashes rest
  | [] => false

def childInRaw : String := "Unexpected child element of a CDATA element"

def renderText (raw spaces : Bool) (text : String) : Rendered :=
  let chars := text.toList
  if spaces || raw then
    ⟨chars, if raw && hasCloser chars then ["Unexpected </ in CDATA"] else []⟩
  else ⟨escapeText chars, []⟩

def renderSystemId (systemId : String) : Rendered :=
  let chars := systemId.toList
  if chars.contains '"' then
    ⟨' ' :: '\'' :: chars ++ ['\''],
      if chars.contains '\'' then
        ["System identifier contains both single and double quote characters"]
      else []⟩
  else ⟨' ' :: '"' :: chars ++ ['"'], []⟩

def renderDoctype (name : String) (publicId systemId : Option String) : Rendered :=
  let publicPart := match publicId with
    | some p => " PUBLIC \"".toList ++ p.toList ++ ['"']
    | none => if systemId.isSome then " SYSTEM".toList else []
  let systemPart : Rendered := match systemId with
    | some system => renderSystemId system
    | none => ⟨[], []⟩
  ⟨"<!DOCTYPE ".toList ++ name.toList ++ publicPart ++ systemPart.text ++ ['>'],
    systemPart.problems⟩

def renderTag (st : Style) (raw : Bool) (name : String) (attrs : Pairs) :
    Except RenderFailure (Rendered × Bool) := do
  let opens := Tag.isRawText name && !st.escapeRaw
  let written ← renderAttrs st name attrs
  return (⟨'<' :: name.toList ++ written ++ solidus st name ++ ['>'],
    if !opens && raw then [childInRaw] else []⟩, opens || raw)

def renderToken (st : Style) (raw : Bool) : Token → Except RenderFailure (Rendered × Bool)
  | .doctype name publicId systemId => .ok (renderDoctype name publicId systemId, raw)
  | .characters text => .ok (renderText raw false text, raw)
  | .spaces text => .ok (renderText raw true text, raw)
  | .startTag name _ attrs => renderTag st raw name attrs
  | .emptyTag name _ attrs => renderTag st raw name attrs
  | .endTag name _ =>
    let closes := Tag.isRawText name
    .ok (⟨'<' :: '/' :: name.toList ++ ['>'], if !closes && raw then [childInRaw] else []⟩,
      raw && !closes)
  | .comment data =>
    .ok (⟨"<!--".toList ++ data.toList ++ "-->".toList,
      if hasDashes data.toList then ["Comment contains --"] else []⟩, raw)
  | .problem text => .ok (⟨[], [text]⟩, raw)

def renderTokens (st : Style) : Bool → List Token → Except RenderFailure Rendered
  | _, [] => .ok ⟨[], []⟩
  | raw, t :: rest => do
    let (first, raw) ← renderToken st raw t
    let others ← renderTokens st raw rest
    return ⟨first.text ++ others.text, first.problems ++ others.problems⟩

/-- The passes in their order. What a sanitizer makes of the tokens is up to it: what it allows is kept in
lists that have no place here. -/
def filterTokensBy (sanitizer : List Token → List Token) (st : Style) (ts : List Token) : List Token :=
  let ts := if st.sortAttributes then ts.map sortAttributes else ts
  let ts := if st.stripSpaces then stripSpaces 0 ts else ts
  let ts := if st.sanitize then sanitizer ts else ts
  if st.omitOptional then omitOptional ts else ts

def renderBy (sanitizer : List Token → List Token) (st : Style) (s : Store) (root : NodeId) :
    Except RenderFailure Rendered :=
  renderTokens st false (filterTokensBy sanitizer st (tokens s root (!st.escapeRaw)))

def filterTokens (st : Style) (ts : List Token) : List Token := filterTokensBy id st ts

def render (st : Style) (s : Store) (root : NodeId) : Except RenderFailure Rendered :=
  renderBy id st s root

end HtmlTree.Markup

namespace HtmlTree

open Markup

/-- Writes a node under the settings: its contents if it owns children, else itself. -/
def serializeBy (sanitizer : List Token → List Token) (c : Settings) (s : Store) (i : NodeId) :
    Except RenderFailure Rendered := do
  let st ← (Style.ofSettings c).mapError .style
  renderBy sanitizer st s i

/-- The same with a sanitizer that allows everything. -/
def serialize (c : Settings) (s : Store) (i : NodeId) : Except RenderFailure Rendered :=
  serializeBy id c s i

def serializeOperand (c : Settings) (s : Store) : Operand → Except RenderFailure (Logged Rendered)
  | .value v => .error (.tree (.cannotSerialize v.typeName))
  | .node i => do
    let r ← serialize c s i
    let records :=
      if r.problems.isEmpty then []
      else [Record.ofSerializer Level.debug ("Serializer reported " ++ toString r.problems.length ++
        " problems: " ++ (Value.list (r.problems.map .text)).describe)]
    return ⟨r, records⟩

def stringify (c : Settings) (s : Store) (i : NodeId) : Except RenderFailure String :=
  (serialize c s i).map fun r => String.ofList r.text

end HtmlTree
