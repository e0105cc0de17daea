import HtmlTree.Html.Encoding
import HtmlTree.Html.Token

/-! Where a text declares its own encoding: in a meta element near its start, which is looked for
before anything is read, and in one that is met on the way. -/

namespace HtmlTree.Html.Declaration

open Text (isSpace isLetter lower)

def after? (wanted : List Char) : List Char → Option (List Char)
  | [] => if wanted.isEmpty then some [] else none
  | c :: rest =>
    if wanted.isPrefixOf (c :: rest) then some ((c :: rest).drop wanted.length)
    else after? wanted rest

def labelIn? (content : List Char) : Option (List Char) :=
  match after? "charset".toList (content.map lower) with
  | none => none
  | some rest =>
    match rest.dropWhile isSpace with
    | '=' :: rest =>
      match rest.dropWhile isSpace with
      | [] => none
      | q :: value =>
        if q = '"' || q = '\'' then
          if value.contains q then some (value.takeWhile (· ≠ q)) else none
        else some ((q :: value).takeWhile fun c => !isSpace c)
    | _ => none

def labelOf? (t : Tag) : Option (List Char) :=
  match t.attr? "charset" with
  | some label => some label.toList
  | none =>
    match t.attr? "content", t.attr? "http-equiv" with
    | some content, some about =>
      if Text.lowerAll about = "content-type" then labelIn? content.toList else none
    | _, _ => none

/-- What is found where an attribute may stand: one, with the text after it, the end of the tag, or
the end of what is searched. -/
inductive Found where
  | attr (name value rest : List Char)
  | tagEnd (rest : List Char)
  | textEnd
  deriving DecidableEq, Repr

def isNameEnd (c : Char) : Bool := c == '=' || c == '/' || c == '>' || isSpace c

def isBareEnd (c : Char) : Bool := c == '<' || c == '>' || isSpace c

/-- A value ends at its quote or at a space or bracket; without an end it is none. -/
def attrValue (name text : List Char) : Found :=
  match text.dropWhile isSpace with
  | [] => .textEnd
  | q :: rest =>
    if q = '"' || q = '\'' then
      match rest.dropWhile (· ≠ q) with
      | _ :: after@(_ :: _) => .attr name (rest.takeWhile (· ≠ q)) after
      | _ => .textEnd
    else if q = '>' then .attr name [] (q :: rest)
    else
      match rest.dropWhile fun c => !isBareEnd c with
      | [] => .textEnd
      | after => .attr name (q :: rest.takeWhile fun c => !isBareEnd c) after

/-- The next attribute. A name may begin with an equals sign. -/
def findAttr (text : List Char) : Found :=
  match text.dropWhile fun c => isSpace c || c == '/' with
  | [] => .textEnd
  | '>' :: rest => .tagEnd rest
  | c :: rest =>
    let name := c :: rest.takeWhile fun c => !isNameEnd c
    match rest.dropWhile fun c => !isNameEnd c with
    | [] => .textEnd
    | '=' :: rest => if rest.isEmpty then .textEnd else attrValue name rest
    | d :: rest =>
      if isSpace d then
        match rest.dropWhile isSpace with
        | [] => .textEnd
        | '=' :: rest => if rest.isEmpty then .textEnd else attrValue name rest
        | rest => .attr name [] rest
      else .attr name [] (d :: rest)

/-- The outcome of a look into one tag: an encoding, or where to look on if anywhere. -/
inductive Look where
  | found (e : Encoding)
  | goOn (rest : List Char)
  | stop
  deriving DecidableEq, Repr

/-- Goes through the attributes of a meta element. An encoding in the content counts only beside an
attribute that says what the content is. -/
def lookInMeta : Nat → Bool → Option Encoding → List Char → Look
  | 0, _, _, _ => .stop
  | fuel + 1, pragma, pending, text =>
    match findAttr text with
    | .textEnd => .stop
    | .tagEnd rest => .goOn rest
    | .attr name value rest =>
      if name = "http-equiv".toList then
        let pragma := value == "content-type".toList
        match pragma, pending with
        | true, some e => .found e
        | _, _ => lookInMeta fuel pragma pending rest
      else if name = "charset".toList then
        match Encoding.ofLabel? value with
        | some e => .found e
        | none => lookInMeta fuel pragma pending rest
      else if name = "content".toList then
        match (labelIn? value).bind Encoding.ofLabel? with
        | some e => if pragma then .found e else lookInMeta fuel pragma (some e) rest
        | none => lookInMeta fuel pragma pending rest
      else lookInMeta fuel pragma pending rest

def skipAttrs : Nat → List Char → Look
  | 0, _ => .stop
  | fuel + 1, text =>
    match findAttr text with
    | .textEnd => .stop
    | .tagEnd rest => .goOn rest
    | .attr _ _ rest => skipAttrs fuel rest

/-- Goes over a tag whose name starts here. A tag within the name is looked at next. -/
def skipTag (text : List Char) : Look :=
  match text.dropWhile fun c => !isBareEnd c with
  | [] => .stop
  | '<' :: rest => .goOn ('<' :: rest)
  | rest => skipAttrs (rest.length + 1) rest

def skipTo (wanted text : List Char) : Look :=
  match after? wanted text with
  | some rest => .goOn rest
  | none => .stop

/-- One thing that begins with an opening bracket, from what follows the bracket. Of an end tag the
character after the solidus does not count as its name. -/
def lookAt (text : List Char) : Look :=
  if "!--".toList.isPrefixOf text then skipTo "-->".toList (text.drop 3)
  else if "meta".toList.isPrefixOf text then
    match text.drop 4 with
    | [] => .stop
    | c :: rest =>
      if isSpace c then lookInMeta (rest.length + 2) false none (c :: rest) else .goOn rest
  else
    match text with
    | [] => .stop
    | '/' :: [] => .stop
    | '/' :: c :: rest =>
      match rest with
      | [] => .stop
      | d :: _ => if isLetter d then skipTag rest else skipTo ['>'] (c :: rest)
    | c :: rest =>
      if c = '!' || c = '?' then skipTo ['>'] rest
      else if isLetter c then skipTag (c :: rest)
      else .goOn rest

def search : Nat → List Char → Option Encoding
  | 0, _ => none
  | fuel + 1, text =>
    match text.dropWhile (· ≠ '<') with
    | [] => none
    | _ :: rest =>
      match lookAt rest with
      | .found e => some e
      | .goOn rest => search fuel rest
      | .stop => none

def searchLimit : Nat := 1024

/-- The encoding that the first bytes declare. No text can declare that it has units of 16 bits. -/
def search? (bytes : List UInt8) : Option Encoding :=
  let bytes := if Encoding.wideMarks.contains (bytes.take 4) then bytes.drop 4 else bytes
  let text := (bytes.take searchLimit).map fun b => lower (Char.ofNat b.toNat)
  (search (text.length + 1) text).map fun e => if e.isUtf16 then .utf8 else e

end HtmlTree.Html.Declaration
