/-! Sets of tag names. Names are compared as they are. -/

namespace HtmlTree.Tag

def voidTags : List String :=
  ["base", "command", "event-source", "link", "meta", "hr", "br", "img", "embed", "param", "area",
   "col", "input", "source", "track"]

def rawTextTags : List String :=
  ["style", "script", "xmp", "iframe", "noembed", "noframes", "noscript"]

def isVoid (tag : String) : Bool := voidTags.contains tag

def isRawText (tag : String) : Bool := rawTextTags.contains tag

/-- Attributes that need no value, by element; those under the empty name are for all. -/
def booleanAttributes : List (String × List String) :=
  [("", ["irrelevant", "itemscope"]),
   ("style", ["scoped"]),
   ("img", ["ismap"]),
   ("audio", ["autoplay", "controls"]),
   ("video", ["autoplay", "controls"]),
   ("script", ["defer", "async"]),
   ("details", ["open"]),
   ("datagrid", ["multiple", "disabled"]),
   ("command", ["hidden", "disabled", "checked", "default"]),
   ("hr", ["noshade"]),
   ("menu", ["autosubmit"]),
   ("fieldset", ["disabled", "readonly"]),
   ("option", ["disabled", "readonly", "selected"]),
   ("optgroup", ["disabled", "readonly"]),
   ("button", ["disabled", "autofocus"]),
   ("input", ["disabled", "readonly", "required", "autofocus", "checked", "ismap"]),
   ("select", ["disabled", "readonly", "autofocus", "multiple"]),
   ("output", ["disabled", "readonly"]),
   ("iframe", ["seamless"])]

def isBoolean (tag name : String) : Bool :=
  ((booleanAttributes.lookup tag).getD []).contains name ||
    ((booleanAttributes.lookup "").getD []).contains name

end HtmlTree.Tag
