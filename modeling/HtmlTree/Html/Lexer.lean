import HtmlTree.Html.Lexer.Doctype
import HtmlTree.Html.Lexer.Text

/-! The lexer: one step reads a character or a run of them and may put tokens and faults out. -/

namespace HtmlTree.Html.Lexer

/-- The next state of the lexer, unless the text has ended. Sections are read if the current element
is foreign. -/
def step (foreign : Bool) (l : Lexer) : Option Lexer :=
  match l.state with
  | .data => l.dataStep
  | .dataReference => some (l.textReference .data)
  | .escapableText => l.escapableStep
  | .escapableReference => some (l.textReference .escapableText)
  | .rawText => rawStep .plain l
  | .script => rawStep .script l
  | .plaintext => l.plaintextStep
  | .tagOpen => some l.tagOpenStep
  | .endTagOpen => some l.endTagOpenStep
  | .tagName => some l.tagNameStep
  | .rawLess kind => some (rawLessStep kind l)
  | .rawEndTagOpen kind => some (rawEndTagOpenStep kind l)
  | .rawEndTagName kind => some (rawEndTagNameStep kind l)
  | .scriptEscapeStart => some (escapeStartStep .scriptEscapeStartDash l)
  | .scriptEscapeStartDash => some (escapeStartStep .scriptEscapedDashDash l)
  | .scriptEscaped => some l.escapedStep
  | .scriptEscapedDash => some (escapedDashStep false l)
  | .scriptEscapedDashDash => some (escapedDashStep true l)
  | .scriptDoubleStart => some (scriptWordStep .scriptDouble .scriptEscaped l)
  | .scriptDouble => some l.doubleStep
  | .scriptDoubleDash => some (doubleDashStep false l)
  | .scriptDoubleDashDash => some (doubleDashStep true l)
  | .scriptDoubleLess => some l.doubleLessStep
  | .scriptDoubleEnd => some (scriptWordStep .scriptEscaped .scriptDouble l)
  | .beforeAttrName => some l.beforeAttrNameStep
  | .attrName => some l.attrNameStep
  | .afterAttrName => some l.afterAttrNameStep
  | .beforeAttrValue => some l.beforeAttrValueStep
  | .quotedValue quote => some (quotedValueStep quote l)
  | .bareValue => some l.bareValueStep
  | .afterAttrValue => some l.afterAttrValueStep
  | .selfClosing => some l.selfClosingStep
  | .bogusComment => some l.bogusCommentStep
  | .declaration => some (declarationStep foreign l)
  | .commentStart => some l.commentStartStep
  | .commentStartDash => some l.commentStartDashStep
  | .comment => some l.commentStep
  | .commentEndDash => some l.commentEndDashStep
  | .commentEnd => some l.commentEndStep
  | .commentEndBang => some l.commentEndBangStep
  | .doctype => some l.doctypeStep
  | .beforeDoctypeName => some l.beforeDoctypeNameStep
  | .doctypeName => some l.doctypeNameStep
  | .afterDoctypeName => some l.afterDoctypeNameStep
  | .afterPublicWord => some (afterWordStep .beforePublicId l)
  | .beforePublicId => some l.beforePublicIdStep
  | .publicId quote => some (publicIdStep quote l)
  | .afterPublicId => some l.afterPublicIdStep
  | .betweenIds => some l.betweenIdsStep
  | .afterSystemWord => some (afterWordStep .beforeSystemId l)
  | .beforeSystemId => some l.beforeSystemIdStep
  | .systemId quote => some (systemIdStep quote l)
  | .afterSystemId => some l.afterSystemIdStep
  | .bogusDoctype => some l.bogusDoctypeStep
  | .cdata => some l.cdataStep

/-- What was put out since the last call: first a fault for every forbidden code point that arrived,
then the items in order. -/
def drain (l : Lexer) : List Item × Lexer :=
  (List.replicate l.input.alerts (.fault .invalidCodepoint) ++ l.out.reverse,
    { l with out := [], input := { l.input with alerts := 0 } })

end HtmlTree.Html.Lexer
