import HtmlTree.Html.Lexer.Comment

/-! Reading doctypes. -/

namespace HtmlTree.Html.Lexer

open Text (isSpace lower)

def withDoctype (l : Lexer) (f : DoctypeDraft → DoctypeDraft) : Lexer :=
  match l.draft with
  | .doctype d => { l with draft := .doctype (f d) }
  | _ => l

def putDoctype (l : Lexer) : Lexer :=
  match l.draft with
  | .doctype d =>
    (l.put (.doctype ⟨textOf d.name, d.publicId.map textOf, d.systemId.map textOf, d.correct⟩)).goto
      .data
  | _ => l.goto .data

def incorrect (l : Lexer) : Lexer := l.withDoctype fun d => { d with correct := false }

def breakDoctype (l : Lexer) (f : Fault) : Lexer := (l.fault f).incorrect.putDoctype

def spoilDoctype (l : Lexer) (f : Fault) : Lexer := ((l.fault f).incorrect).goto .bogusDoctype

def doctypeStep (l : Lexer) : Lexer :=
  let (c, l) := l.read
  match c with
  | none => l.breakDoctype .eofForDoctypeName
  | some d =>
    if isSpace d then l.goto .beforeDoctypeName
    else ((l.fault .spaceBeforeDoctypeName).unread c).goto .beforeDoctypeName

def beforeDoctypeNameStep (l : Lexer) : Lexer :=
  let (c, l) := l.read
  match c with
  | none => l.breakDoctype .eofForDoctypeName
  | some '>' => l.breakDoctype .bracketForDoctypeName
  | some '\x00' =>
    ((l.fault .invalidCodepoint).withDoctype fun d => { d with name := [lost] }).goto .doctypeName
  | some d =>
    if isSpace d then l
    else (l.withDoctype fun t => { t with name := [d] }).goto .doctypeName

def lowerName (l : Lexer) : Lexer := l.withDoctype fun d => { d with name := d.name.map lower }

def doctypeNameStep (l : Lexer) : Lexer :=
  let (c, l) := l.read
  match c with
  | none => (l.fault .eofInDoctypeName).incorrect.lowerName.putDoctype
  | some '>' => l.lowerName.putDoctype
  | some '\x00' =>
    (l.fault .invalidCodepoint).withDoctype fun d => { d with name := lost :: d.name }
  | some d =>
    if isSpace d then l.lowerName.goto .afterDoctypeName
    else l.withDoctype fun t => { t with name := d :: t.name }

def publicWord : List (List Char) :=
  [['u', 'U'], ['b', 'B'], ['l', 'L'], ['i', 'I'], ['c', 'C']]

def systemWord : List (List Char) :=
  [['y', 'Y'], ['s', 'S'], ['t', 'T'], ['e', 'E'], ['m', 'M']]

/-- Neither of the two words stands here; only the last character read can matter. -/
def noWord (l : Lexer) (last : Option Char) : Lexer :=
  ((l.unread last).fault (.expectedDoctypeEnd last)).incorrect.goto .bogusDoctype

def afterDoctypeNameStep (l : Lexer) : Lexer :=
  let (c, l) := l.read
  match c with
  | none => l.breakDoctype .eofInDoctype
  | some '>' => l.putDoctype
  | some d =>
    if isSpace d then l
    else if d = 'p' || d = 'P' then
      let (whole, done, l) := readWord publicWord [c] l
      if whole then l.goto .afterPublicWord else l.noWord (done.head?.getD c)
    else if d = 's' || d = 'S' then
      let (whole, done, l) := readWord systemWord [c] l
      if whole then l.goto .afterSystemWord else l.noWord (done.head?.getD c)
    else l.noWord c

def afterWordStep (next : LexState) (l : Lexer) : Lexer :=
  let (c, l) := l.read
  match c with
  | none => l.breakDoctype .eofInDoctype
  | some d =>
    if isSpace d then l.goto next
    else if d = '"' || d = '\'' then ((l.fault .charInDoctype).unread c).goto next
    else (l.unread c).goto next

def beginPublicId (l : Lexer) (quote : Char) : Lexer :=
  (l.withDoctype fun d => { d with publicId := some [] }).goto (.publicId quote)

def beginSystemId (l : Lexer) (quote : Char) : Lexer :=
  (l.withDoctype fun d => { d with systemId := some [] }).goto (.systemId quote)

def beforePublicIdStep (l : Lexer) : Lexer :=
  let (c, l) := l.read
  match c with
  | none => l.breakDoctype .eofInDoctype
  | some '"' => l.beginPublicId '"'
  | some '\'' => l.beginPublicId '\''
  | some '>' => l.breakDoctype .endOfDoctype
  | some d => if isSpace d then l else l.spoilDoctype .charInDoctype

/-- A character of a quoted identifier, which the step adds; the quote ends it. -/
def idStep (quote : Char) (add : Char → DoctypeDraft → DoctypeDraft) (next : LexState) (l : Lexer) :
    Lexer :=
  let (c, l) := l.read
  match c with
  | none => l.breakDoctype .eofInDoctype
  | some '\x00' => (l.fault .invalidCodepoint).withDoctype (add lost)
  | some '>' => l.breakDoctype .endOfDoctype
  | some d => if d = quote then l.goto next else l.withDoctype (add d)

def publicIdStep (quote : Char) (l : Lexer) : Lexer :=
  idStep quote (fun c d => { d with publicId := d.publicId.map (c :: ·) }) .afterPublicId l

def systemIdStep (quote : Char) (l : Lexer) : Lexer :=
  idStep quote (fun c d => { d with systemId := d.systemId.map (c :: ·) }) .afterSystemId l

def afterPublicIdStep (l : Lexer) : Lexer :=
  let (c, l) := l.read
  match c with
  | none => l.breakDoctype .eofInDoctype
  | some '>' => l.putDoctype
  | some '"' => (l.fault .charInDoctype).beginSystemId '"'
  | some '\'' => (l.fault .charInDoctype).beginSystemId '\''
  | some d => if isSpace d then l.goto .betweenIds else l.spoilDoctype .charInDoctype

def betweenIdsStep (l : Lexer) : Lexer :=
  let (c, l) := l.read
  match c with
  | none => l.breakDoctype .eofInDoctype
  | some '>' => l.putDoctype
  | some '"' => l.beginSystemId '"'
  | some '\'' => l.beginSystemId '\''
  | some d => if isSpace d then l else l.spoilDoctype .charInDoctype

def beforeSystemIdStep (l : Lexer) : Lexer :=
  let (c, l) := l.read
  match c with
  | none => l.breakDoctype .eofInDoctype
  | some '"' => l.beginSystemId '"'
  | some '\'' => l.beginSystemId '\''
  | some '>' => l.breakDoctype .charInDoctype
  | some d => if isSpace d then l else l.spoilDoctype .charInDoctype

/-- What follows the system identifier does not make a doctype incorrect. -/
def afterSystemIdStep (l : Lexer) : Lexer :=
  let (c, l) := l.read
  match c with
  | none => l.breakDoctype .eofInDoctype
  | some '>' => l.putDoctype
  | some d => if isSpace d then l else (l.fault .charInDoctype).goto .bogusDoctype

def bogusDoctypeStep (l : Lexer) : Lexer :=
  let (c, l) := l.read
  match c with
  | none | some '>' => l.putDoctype
  | some _ => l

end HtmlTree.Html.Lexer
