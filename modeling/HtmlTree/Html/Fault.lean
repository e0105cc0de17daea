import HtmlTree.Text.Ascii

/-! Everything that can be wrong with an HTML text, each with a code and a sentence, and the places
where faults are reported. -/

namespace HtmlTree.Html

inductive Fault where
  | invalidCodepoint
  | numericWithoutSemicolon
  | illegalReference (number : Nat)
  | expectedNumber
  | namedWithoutSemicolon
  | expectedName
  | attributesInEndTag
  | solidusInEndTag
  | bracketForTagName
  | questionForTagName
  | expectedTagName
  | bracketForClosingTag
  | eofForClosingTag
  | charForClosingTag (c : Char)
  | eofInTagName
  | eofForAttrName
  | eofInAttrName
  | charInAttrName
  | duplicateAttr
  | eofAfterAttrName
  | eofForAttrValue
  | bracketForAttrValue
  | equalsInBareValue
  | charInBareValue
  | charAfterAttrName
  | charAfterAttrValue
  | eofAfterAttrValue
  | eofInDoubleValue
  | eofInSingleValue
  | eofInBareValue
  | eofAfterSolidus
  | charAfterSolidus
  | expectedDashesOrDoctype
  | bangInComment
  | incorrectComment
  | eofInComment
  | eofInCommentDash
  | dashInComment
  | eofInCommentDashes
  | eofInCommentBang
  | charInComment
  | spaceBeforeDoctypeName
  | bracketForDoctypeName
  | eofForDoctypeName
  | eofInDoctypeName
  | eofInDoctype
  | expectedDoctypeEnd (c : Option Char)
  | endOfDoctype
  | charInDoctype
  | eofInScript
  | unexpectedDoctype
  | rootNotFirst
  | eofForDoctype
  | unknownDoctype
  | charsForDoctype
  | startTagForDoctype (name : String)
  | endTagForDoctype (name : String)
  | endTagAfterRoot (name : String)
  | eofForEndTag (name : String)
  | secondHead
  | endTag (name : String)
  | startTagOfHead (name : String)
  | startTag (name : String)
  | startImpliesEnd (start stop : String)
  | startTreatedAs (found meant : String)
  | deprecatedTag (name : String)
  | startTagIgnored (name : String)
  | anotherEndTag (got expected : String)
  | endTagEarly (name : String)
  | endTagEarlyNamed (got expected : String)
  | endTagEarlyIgnored (name : String)
  | adoptionNotOpen (name : String)
  | adoptionNotCurrent (name : String)
  | endTreatedAs (found meant : String)
  | noEndTag (name : String)
  | hiddenInputInTable
  | formInTable
  | startTagInTable (name : String)
  | endTagInTable (name : String)
  | cellInTableBody (name : String)
  | cellEndTag (name : String)
  | endTagInTableBody (name : String)
  | impliedEndInRow (name : String)
  | endTagInRow (name : String)
  | selectInSelect
  | inputInSelect
  | startTagInSelect (name : String)
  | endTagInSelect (name : String)
  | tableStartInSelect (name : String)
  | tableEndInSelect (name : String)
  | charAfterBody
  | startTagAfterBody (name : String)
  | endTagAfterBody (name : String)
  | charInFrameset
  | startTagInFrameset (name : String)
  | framesetInFragment
  | endTagInFrameset (name : String)
  | charAfterFrameset
  | startTagAfterFrameset (name : String)
  | endTagAfterFrameset (name : String)
  | endTagAfterFragmentBody
  | charForEof
  | startTagForEof (name : String)
  | endTagForEof (name : String)
  | eofInTable
  | eofInSelect
  | eofInFrameset
  | solidusOnElement (name : String)
  | htmlInForeign (name : String)
  | endTagBeforeHtml (name : String)
  | tagInHeadNoscript (name : String)
  | eofInHeadNoscript
  | charInHeadNoscript
  | unnamed
  deriving DecidableEq, Repr

namespace Fault

def code : Fault → String
  | invalidCodepoint => "invalid-codepoint"
  | numericWithoutSemicolon => "numeric-entity-without-semicolon"
  | illegalReference _ => "illegal-codepoint-for-numeric-entity"
  | expectedNumber => "expected-numeric-entity"
  | namedWithoutSemicolon => "named-entity-without-semicolon"
  | expectedName => "expected-named-entity"
  | attributesInEndTag => "attributes-in-end-tag"
  | solidusInEndTag => "self-closing-flag-on-end-tag"
  | bracketForTagName => "expected-tag-name-but-got-right-bracket"
  | questionForTagName => "expected-tag-name-but-got-question-mark"
  | expectedTagName => "expected-tag-name"
  | bracketForClosingTag => "expected-closing-tag-but-got-right-bracket"
  | eofForClosingTag => "expected-closing-tag-but-got-eof"
  | charForClosingTag _ => "expected-closing-tag-but-got-char"
  | eofInTagName => "eof-in-tag-name"
  | eofForAttrName => "expected-attribute-name-but-got-eof"
  | eofInAttrName => "eof-in-attribute-name"
  | charInAttrName => "invalid-character-in-attribute-name"
  | duplicateAttr => "duplicate-attribute"
  | eofAfterAttrName => "expected-end-of-tag-but-got-eof"
  | eofForAttrValue => "expected-attribute-value-but-got-eof"
  | bracketForAttrValue => "expected-attribute-value-but-got-right-bracket"
  | equalsInBareValue => "equals-in-unquoted-attribute-value"
  | charInBareValue => "unexpected-character-in-unquoted-attribute-value"
  | charAfterAttrName => "invalid-character-after-attribute-name"
  | charAfterAttrValue => "unexpected-character-after-attribute-value"
  | eofAfterAttrValue => "unexpected-EOF-after-attribute-value"
  | eofInDoubleValue => "eof-in-attribute-value-double-quote"
  | eofInSingleValue => "eof-in-attribute-value-single-quote"
  | eofInBareValue => "eof-in-attribute-value-no-quotes"
  | eofAfterSolidus => "unexpected-EOF-after-solidus-in-tag"
  | charAfterSolidus => "unexpected-character-after-solidus-in-tag"
  | expectedDashesOrDoctype => "expected-dashes-or-doctype"
  | bangInComment => "unexpected-bang-after-double-dash-in-comment"
  | incorrectComment => "incorrect-comment"
  | eofInComment => "eof-in-comment"
  | eofInCommentDash => "eof-in-comment-end-dash"
  | dashInComment => "unexpected-dash-after-double-dash-in-comment"
  | eofInCommentDashes => "eof-in-comment-double-dash"
  | eofInCommentBang => "eof-in-comment-end-bang-state"
  | charInComment => "unexpected-char-in-comment"
  | spaceBeforeDoctypeName => "need-space-after-doctype"
  | bracketForDoctypeName => "expected-doctype-name-but-got-right-bracket"
  | eofForDoctypeName => "expected-doctype-name-but-got-eof"
  | eofInDoctypeName => "eof-in-doctype-name"
  | eofInDoctype => "eof-in-doctype"
  | expectedDoctypeEnd _ => "expected-space-or-right-bracket-in-doctype"
  | endOfDoctype => "unexpected-end-of-doctype"
  | charInDoctype => "unexpected-char-in-doctype"
  | eofInScript => "eof-in-script-in-script"
  | unexpectedDoctype => "unexpected-doctype"
  | rootNotFirst => "non-html-root"
  | eofForDoctype => "expected-doctype-but-got-eof"
  | unknownDoctype => "unknown-doctype"
  | charsForDoctype => "expected-doctype-but-got-chars"
  | startTagForDoctype _ => "expected-doctype-but-got-start-tag"
  | endTagForDoctype _ => "expected-doctype-but-got-end-tag"
  | endTagAfterRoot _ => "end-tag-after-implied-root"
  | eofForEndTag _ => "expected-named-closing-tag-but-got-eof"
  | secondHead => "two-heads-are-not-better-than-one"
  | endTag _ => "unexpected-end-tag"
  | startTagOfHead _ => "unexpected-start-tag-out-of-my-head"
  | startTag _ => "unexpected-start-tag"
  | startImpliesEnd _ _ => "unexpected-start-tag-implies-end-tag"
  | startTreatedAs _ _ => "unexpected-start-tag-treated-as"
  | deprecatedTag _ => "deprecated-tag"
  | startTagIgnored _ => "unexpected-start-tag-ignored"
  | anotherEndTag _ _ => "expected-one-end-tag-but-got-another"
  | endTagEarly _ => "end-tag-too-early"
  | endTagEarlyNamed _ _ => "end-tag-too-early-named"
  | endTagEarlyIgnored _ => "end-tag-too-early-ignored"
  | adoptionNotOpen _ => "adoption-agency-1.2"
  | adoptionNotCurrent _ => "adoption-agency-1.3"
  | endTreatedAs _ _ => "unexpected-end-tag-treated-as"
  | noEndTag _ => "no-end-tag"
  | hiddenInputInTable => "unexpected-hidden-input-in-table"
  | formInTable => "unexpected-form-in-table"
  | startTagInTable _ => "unexpected-start-tag-implies-table-voodoo"
  | endTagInTable _ => "unexpected-end-tag-implies-table-voodoo"
  | cellInTableBody _ => "unexpected-cell-in-table-body"
  | cellEndTag _ => "unexpected-cell-end-tag"
  | endTagInTableBody _ => "unexpected-end-tag-in-table-body"
  | impliedEndInRow _ => "unexpected-implied-end-tag-in-table-row"
  | endTagInRow _ => "unexpected-end-tag-in-table-row"
  | selectInSelect => "unexpected-select-in-select"
  | inputInSelect => "unexpected-input-in-select"
  | startTagInSelect _ => "unexpected-start-tag-in-select"
  | endTagInSelect _ => "unexpected-end-tag-in-select"
  | tableStartInSelect _ => "unexpected-table-element-start-tag-in-select-in-table"
  | tableEndInSelect _ => "unexpected-table-element-end-tag-in-select-in-table"
  | charAfterBody => "unexpected-char-after-body"
  | startTagAfterBody _ => "unexpected-start-tag-after-body"
  | endTagAfterBody _ => "unexpected-end-tag-after-body"
  | charInFrameset => "unexpected-char-in-frameset"
  | startTagInFrameset _ => "unexpected-start-tag-in-frameset"
  | framesetInFragment => "unexpected-frameset-in-frameset-innerhtml"
  | endTagInFrameset _ => "unexpected-end-tag-in-frameset"
  | charAfterFrameset => "unexpected-char-after-frameset"
  | startTagAfterFrameset _ => "unexpected-start-tag-after-frameset"
  | endTagAfterFrameset _ => "unexpected-end-tag-after-frameset"
  | endTagAfterFragmentBody => "unexpected-end-tag-after-body-innerhtml"
  | charForEof => "expected-eof-but-got-char"
  | startTagForEof _ => "expected-eof-but-got-start-tag"
  | endTagForEof _ => "expected-eof-but-got-end-tag"
  | eofInTable => "eof-in-table"
  | eofInSelect => "eof-in-select"
  | eofInFrameset => "eof-in-frameset"
  | solidusOnElement _ => "non-void-element-with-trailing-solidus"
  | htmlInForeign _ => "unexpected-html-element-in-foreign-content"
  | endTagBeforeHtml _ => "unexpected-end-tag-before-html"
  | tagInHeadNoscript _ => "unexpected-inhead-noscript-tag"
  | eofInHeadNoscript => "eof-in-head-noscript"
  | charInHeadNoscript => "char-in-head-noscript"
  | unnamed => "XXX-undefined-error"

def shownChar : Option Char → String
  | some c => String.ofList [c]
  | none => "None"

def sentence : Fault → String
  | invalidCodepoint => "Invalid codepoint in stream."
  | numericWithoutSemicolon => "Numeric entity didn't end with ';'."
  | illegalReference n =>
    "Numeric entity represents an illegal codepoint: U+" ++ String.ofList (Text.hex 8 n) ++ "."
  | expectedNumber => "Numeric entity expected but none found."
  | namedWithoutSemicolon => "Named entity didn't end with ';'."
  | expectedName => "Named entity expected. Got none."
  | attributesInEndTag => "End tag contains unexpected attributes."
  | solidusInEndTag => "End tag contains unexpected self-closing flag."
  | bracketForTagName => "Expected tag name. Got '>' instead."
  | questionForTagName =>
    "Expected tag name. Got '?' instead. (HTML doesn't support processing instructions.)"
  | expectedTagName => "Expected tag name. Got something else instead"
  | bracketForClosingTag => "Expected closing tag. Got '>' instead. Ignoring '</>'."
  | eofForClosingTag => "Expected closing tag. Unexpected end of file."
  | charForClosingTag c =>
    "Expected closing tag. Unexpected character '" ++ shownChar (some c) ++ "' found."
  | eofInTagName => "Unexpected end of file in the tag name."
  | eofForAttrName => "Unexpected end of file. Expected attribute name."
  | eofInAttrName => "Unexpected end of file in attribute name."
  | charInAttrName => "Invalid character in attribute name"
  | duplicateAttr => "Dropped duplicate attribute on tag."
  | eofAfterAttrName => "Unexpected end of file. Expected = or end of tag."
  | eofForAttrValue => "Unexpected end of file. Expected attribute value."
  | bracketForAttrValue => "Expected attribute value. Got '>' instead."
  | equalsInBareValue => "Unexpected = in unquoted attribute"
  | charInBareValue => "Unexpected character in unquoted attribute"
  | charAfterAttrName => "Unexpected character after attribute name."
  | charAfterAttrValue => "Unexpected character after attribute value."
  | eofAfterAttrValue => "Unexpected end of file after attribute value."
  | eofInDoubleValue => "Unexpected end of file in attribute value (\")."
  | eofInSingleValue => "Unexpected end of file in attribute value (')."
  | eofInBareValue => "Unexpected end of file in attribute value."
  | eofAfterSolidus => "Unexpected end of file in tag. Expected >"
  | charAfterSolidus => "Unexpected character after / in tag. Expected >"
  | expectedDashesOrDoctype => "Expected '--' or 'DOCTYPE'. Not found."
  | bangInComment => "Unexpected ! after -- in comment"
  | incorrectComment => "Incorrect comment."
  | eofInComment => "Unexpected end of file in comment."
  | eofInCommentDash => "Unexpected end of file in comment (-)"
  | dashInComment => "Unexpected '-' after '--' found in comment."
  | eofInCommentDashes => "Unexpected end of file in comment (--)."
  | eofInCommentBang => "Unexpected end of file in comment."
  | charInComment => "Unexpected character in comment found."
  | spaceBeforeDoctypeName => "No space after literal string 'DOCTYPE'."
  | bracketForDoctypeName => "Unexpected > character. Expected DOCTYPE name."
  | eofForDoctypeName => "Unexpected end of file. Expected DOCTYPE name."
  | eofInDoctypeName => "Unexpected end of file in DOCTYPE name."
  | eofInDoctype => "Unexpected end of file in DOCTYPE."
  | expectedDoctypeEnd c => "Expected space or '>'. Got '" ++ shownChar c ++ "'"
  | endOfDoctype => "Unexpected end of DOCTYPE."
  | charInDoctype => "Unexpected character in DOCTYPE."
  | eofInScript => "Unexpected end of file. Expected script content."
  | unexpectedDoctype => "Unexpected DOCTYPE. Ignored."
  | rootNotFirst => "html needs to be the first start tag."
  | eofForDoctype => "Unexpected End of file. Expected DOCTYPE."
  | unknownDoctype => "Erroneous DOCTYPE."
  | charsForDoctype => "Unexpected non-space characters. Expected DOCTYPE."
  | startTagForDoctype name => "Unexpected start tag (" ++ name ++ "). Expected DOCTYPE."
  | endTagForDoctype name => "Unexpected end tag (" ++ name ++ "). Expected DOCTYPE."
  | endTagAfterRoot name =>
    "Unexpected end tag (" ++ name ++ ") after the (implied) root element."
  | eofForEndTag name => "Unexpected end of file. Expected end tag (" ++ name ++ ")."
  | secondHead => "Unexpected start tag head in existing head. Ignored."
  | endTag name => "Unexpected end tag (" ++ name ++ "). Ignored."
  | startTagOfHead name => "Unexpected start tag (" ++ name ++ ") that can be in head. Moved."
  | startTag name => "Unexpected start tag (" ++ name ++ ")."
  | startImpliesEnd start stop =>
    "Unexpected start tag (" ++ start ++ ") implies end tag (" ++ stop ++ ")."
  | startTreatedAs found meant =>
    "Unexpected start tag (" ++ found ++ "). Treated as " ++ meant ++ "."
  | deprecatedTag name => "Unexpected start tag " ++ name ++ ". Don't use it!"
  | startTagIgnored name => "Unexpected start tag " ++ name ++ ". Ignored."
  | anotherEndTag got expected =>
    "Unexpected end tag (" ++ got ++ "). Missing end tag (" ++ expected ++ ")."
  | endTagEarly name => "End tag (" ++ name ++ ") seen too early. Expected other end tag."
  | endTagEarlyNamed got expected =>
    "Unexpected end tag (" ++ got ++ "). Expected end tag (" ++ expected ++ ")."
  | endTagEarlyIgnored name => "End tag (" ++ name ++ ") seen too early. Ignored."
  | adoptionNotOpen name =>
    "End tag (" ++ name ++ ") violates step 1, paragraph 2 of the adoption agency algorithm."
  | adoptionNotCurrent name =>
    "End tag (" ++ name ++ ") violates step 1, paragraph 3 of the adoption agency algorithm."
  | endTreatedAs found meant =>
    "Unexpected end tag (" ++ found ++ "). Treated as " ++ meant ++ "."
  | noEndTag name => "This element (" ++ name ++ ") has no end tag."
  | hiddenInputInTable => "Unexpected input with type hidden in table context."
  | formInTable => "Unexpected form in table context."
  | startTagInTable name =>
    "Unexpected start tag (" ++ name ++ ") in table context caused voodoo mode."
  | endTagInTable name =>
    "Unexpected end tag (" ++ name ++ ") in table context caused voodoo mode."
  | cellInTableBody name =>
    "Unexpected table cell start tag (" ++ name ++ ") in the table body phase."
  | cellEndTag name =>
    "Got table cell end tag (" ++ name ++ ") while required end tags are missing."
  | endTagInTableBody name =>
    "Unexpected end tag (" ++ name ++ ") in the table body phase. Ignored."
  | impliedEndInRow name => "Unexpected implied end tag (" ++ name ++ ") in the table row phase."
  | endTagInRow name => "Unexpected end tag (" ++ name ++ ") in the table row phase. Ignored."
  | selectInSelect =>
    "Unexpected select start tag in the select phase treated as select end tag."
  | inputInSelect => "Unexpected input start tag in the select phase."
  | startTagInSelect name =>
    "Unexpected start tag token (" ++ name ++ " in the select phase. Ignored."
  | endTagInSelect name => "Unexpected end tag (" ++ name ++ ") in the select phase. Ignored."
  | tableStartInSelect name =>
    "Unexpected table element start tag (" ++ name ++ ") in the select in table phase."
  | tableEndInSelect name =>
    "Unexpected table element end tag (" ++ name ++ ") in the select in table phase."
  | charAfterBody => "Unexpected non-space characters in the after body phase."
  | startTagAfterBody name =>
    "Unexpected start tag token (" ++ name ++ ") in the after body phase."
  | endTagAfterBody name => "Unexpected end tag token (" ++ name ++ ") in the after body phase."
  | charInFrameset => "Unexpected characters in the frameset phase. Characters ignored."
  | startTagInFrameset name =>
    "Unexpected start tag token (" ++ name ++ ") in the frameset phase. Ignored."
  | framesetInFragment =>
    "Unexpected end tag token (frameset) in the frameset phase (innerHTML)."
  | endTagInFrameset name =>
    "Unexpected end tag token (" ++ name ++ ") in the frameset phase. Ignored."
  | charAfterFrameset =>
    "Unexpected non-space characters in the after frameset phase. Ignored."
  | startTagAfterFrameset name =>
    "Unexpected start tag (" ++ name ++ ") in the after frameset phase. Ignored."
  | endTagAfterFrameset name =>
    "Unexpected end tag (" ++ name ++ ") in the after frameset phase. Ignored."
  | endTagAfterFragmentBody => "Unexpected end tag after body(innerHtml)"
  | charForEof => "Unexpected non-space characters. Expected end of file."
  | startTagForEof name => "Unexpected start tag (" ++ name ++ "). Expected end of file."
  | endTagForEof name => "Unexpected end tag (" ++ name ++ "). Expected end of file."
  | eofInTable => "Unexpected end of file. Expected table content."
  | eofInSelect => "Unexpected end of file. Expected select content."
  | eofInFrameset => "Unexpected end of file. Expected frameset content."
  | solidusOnElement name => "Trailing solidus not allowed on element " ++ name
  | htmlInForeign name => "Element " ++ name ++ " not allowed in a non-html context"
  | endTagBeforeHtml name => "Unexpected end tag (" ++ name ++ ") before html."
  | tagInHeadNoscript name => "Element " ++ name ++ " not allowed in a inhead-noscript context"
  | eofInHeadNoscript => "Unexpected end of file. Expected inhead-noscript content"
  | charInHeadNoscript => "Unexpected non-space character. Expected inhead-noscript content"
  | unnamed => "Undefined error (this sucks and should be fixed)"

end Fault

/-- A place in a text: its line, from one, and the characters read of that line. -/
structure Position where
  line : Nat
  column : Nat
  deriving DecidableEq, Repr

structure Report where
  position : Position
  fault : Fault
  deriving DecidableEq, Repr

namespace Report

def shown (r : Report) : String :=
  "line " ++ toString r.position.line ++ ", col " ++ toString r.position.column ++ ": " ++
    r.fault.code

end Report

end HtmlTree.Html
