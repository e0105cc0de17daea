import HtmlTree.Html.Construction.Text

/-! What a doctype says about a document: whether it is one of the known ones, and whether the
document is laid out the old way. -/

namespace HtmlTree.Html

namespace Doctype

/-- The doctype of today, or one that differs only in a system identifier kept for old tools. -/
def isKnown (d : Doctype) : Bool :=
  d.name == "html" && d.publicId.isNone &&
    (d.systemId.isNone || d.systemId == some "about:legacy-compat")

def oldBeginnings : List String :=
  ["+//silmaril//dtd html pro v0r11 19970101//",
   "-//advasoft ltd//dtd html 3.0 aswedit + extensions//",
   "-//as//dtd html 3.0 aswedit + extensions//",
   "-//ietf//dtd html 2.0 level 1//",
   "-//ietf//dtd html 2.0 level 2//",
   "-//ietf//dtd html 2.0 strict level 1//",
   "-//ietf//dtd html 2.0 strict level 2//",
   "-//ietf//dtd html 2.0 strict//",
   "-//ietf//dtd html 2.0//",
   "-//ietf//dtd html 2.1e//",
   "-//ietf//dtd html 3.0//",
   "-//ietf//dtd html 3.2 final//",
   "-//ietf//dtd html 3.2//",
   "-//ietf//dtd html 3//",
   "-//ietf//dtd html level 0//",
   "-//ietf//dtd html level 1//",
   "-//ietf//dtd html level 2//",
   "-//ietf//dtd html level 3//",
   "-//ietf//dtd html strict level 0//",
   "-//ietf//dtd html strict level 1//",
   "-//ietf//dtd html strict level 2//",
   "-//ietf//dtd html strict level 3//",
   "-//ietf//dtd html strict//",
   "-//ietf//dtd html//",
   "-//metrius//dtd metrius presentational//",
   "-//microsoft//dtd internet explorer 2.0 html strict//",
   "-//microsoft//dtd internet explorer 2.0 html//",
   "-//microsoft//dtd internet explorer 2.0 tables//",
   "-//microsoft//dtd internet explorer 3.0 html strict//",
   "-//microsoft//dtd internet explorer 3.0 html//",
   "-//microsoft//dtd internet explorer 3.0 tables//",
   "-//netscape comm. corp.//dtd html//",
   "-//netscape comm. corp.//dtd strict html//",
   "-//o'reilly and associates//dtd html 2.0//",
   "-//o'reilly and associates//dtd html extended 1.0//",
   "-//o'reilly and associates//dtd html extended relaxed 1.0//",
   "-//softquad software//dtd hotmetal pro 6.0::19990601::extensions to html 4.0//",
   "-//softquad//dtd hotmetal pro 4.0::19971010::extensions to html 4.0//",
   "-//spyglass//dtd html 2.0 extended//",
   "-//sq//dtd html 2.0 hotmetal + extensions//",
   "-//sun microsystems corp.//dtd hotjava html//",
   "-//sun microsystems corp.//dtd hotjava strict html//",
   "-//w3c//dtd html 3 1995-03-24//",
   "-//w3c//dtd html 3.2 draft//",
   "-//w3c//dtd html 3.2 final//",
   "-//w3c//dtd html 3.2//",
   "-//w3c//dtd html 3.2s draft//",
   "-//w3c//dtd html 4.0 frameset//",
   "-//w3c//dtd html 4.0 transitional//",
   "-//w3c//dtd html experimental 19960712//",
   "-//w3c//dtd html experimental 970421//",
   "-//w3c//dtd w3 html//",
   "-//w3o//dtd w3 html 3.0//",
   "-//webtechs//dtd mozilla html 2.0//",
   "-//webtechs//dtd mozilla html//"]

def oldIds : List String :=
  ["-//w3o//dtd w3 html strict 3.0//en//", "-/w3c/dtd html 4.0 transitional/en", "html"]

/-- Public identifiers that call for the old layout unless a system identifier follows. -/
def halfOldBeginnings : List String :=
  ["-//w3c//dtd html 4.01 frameset//", "-//w3c//dtd html 4.01 transitional//"]

def oldSystemId : String := "http://www.ibm.com/data/dtd/v11/ibmxhtml1-transitional.dtd"

def beginsWith (text : String) (beginnings : List String) : Bool :=
  beginnings.any fun b => b.toList.isPrefixOf text.toList

def wantsOldLayout (d : Doctype) : Bool :=
  let publicId := Text.lowerAll (d.publicId.getD "")
  !d.correct || d.name != "html" || beginsWith publicId oldBeginnings ||
    oldIds.contains publicId || (beginsWith publicId halfOldBeginnings && d.systemId.isNone) ||
    d.systemId.any fun id => Text.lowerAll id == oldSystemId

end Doctype

namespace Builder

/-- A doctype as a node has no part before a colon in its name, and no empty name. -/
def insertDoctype (b : Builder) (d : Doctype) : Builder :=
  let name := if d.name.isEmpty then none else some (BuiltAttr.localPart d.name)
  let part := Part.doctype name d.publicId d.systemId
  let (i, arena) := b.arena.make part
  { b with arena := arena.append Arena.document i }

def doctype (b : Builder) (d : Doctype) : Builder :=
  match b.mode with
  | .initial =>
    let b := if d.isKnown then b else b.report .unknownDoctype
    { b.insertDoctype d with oldLayout := b.oldLayout || d.wantsOldLayout, mode := .beforeHtml }
  | _ => b.report .unexpectedDoctype

end Builder

end HtmlTree.Html
