import HtmlTree.Html.OpenElements
import HtmlTree.Text.Ascii

/-! Elements of SVG and MathML: the spelling of their names and attributes, and the places among
them where HTML goes on. -/

namespace HtmlTree.Html.Foreign

def svgTags : List (String × String) :=
  [("altglyph", "altGlyph"), ("altglyphdef", "altGlyphDef"), ("altglyphitem", "altGlyphItem"),
   ("animatecolor", "animateColor"), ("animatemotion", "animateMotion"),
   ("animatetransform", "animateTransform"), ("clippath", "clipPath"), ("feblend", "feBlend"),
   ("fecolormatrix", "feColorMatrix"), ("fecomponenttransfer", "feComponentTransfer"),
   ("fecomposite", "feComposite"), ("feconvolvematrix", "feConvolveMatrix"),
   ("fediffuselighting", "feDiffuseLighting"), ("fedisplacementmap", "feDisplacementMap"),
   ("fedistantlight", "feDistantLight"), ("feflood", "feFlood"), ("fefunca", "feFuncA"),
   ("fefuncb", "feFuncB"), ("fefuncg", "feFuncG"), ("fefuncr", "feFuncR"),
   ("fegaussianblur", "feGaussianBlur"), ("feimage", "feImage"), ("femerge", "feMerge"),
   ("femergenode", "feMergeNode"), ("femorphology", "feMorphology"), ("feoffset", "feOffset"),
   ("fepointlight", "fePointLight"), ("fespecularlighting", "feSpecularLighting"),
   ("fespotlight", "feSpotLight"), ("fetile", "feTile"), ("feturbulence", "feTurbulence"),
   ("foreignobject", "foreignObject"), ("glyphref", "glyphRef"),
   ("lineargradient", "linearGradient"), ("radialgradient", "radialGradient"),
   ("textpath", "textPath")]

def svgAttrs : List (String × String) :=
  [("attributename", "attributeName"), ("attributetype", "attributeType"),
   ("basefrequency", "baseFrequency"), ("baseprofile", "baseProfile"), ("calcmode", "calcMode"),
   ("clippathunits", "clipPathUnits"), ("contentscripttype", "contentScriptType"),
   ("contentstyletype", "contentStyleType"), ("diffuseconstant", "diffuseConstant"),
   ("edgemode", "edgeMode"), ("externalresourcesrequired", "externalResourcesRequired"),
   ("filterres", "filterRes"), ("filterunits", "filterUnits"), ("glyphref", "glyphRef"),
   ("gradienttransform", "gradientTransform"), ("gradientunits", "gradientUnits"),
   ("kernelmatrix", "kernelMatrix"), ("kernelunitlength", "kernelUnitLength"),
   ("keypoints", "keyPoints"), ("keysplines", "keySplines"), ("keytimes", "keyTimes"),
   ("lengthadjust", "lengthAdjust"), ("limitingconeangle", "limitingConeAngle"),
   ("markerheight", "markerHeight"), ("markerunits", "markerUnits"), ("markerwidth", "markerWidth"),
   ("maskcontentunits", "maskContentUnits"), ("maskunits", "maskUnits"),
   ("numoctaves", "numOctaves"), ("pathlength", "pathLength"),
   ("patterncontentunits", "patternContentUnits"), ("patterntransform", "patternTransform"),
   ("patternunits", "patternUnits"), ("pointsatx", "pointsAtX"), ("pointsaty", "pointsAtY"),
   ("pointsatz", "pointsAtZ"), ("preservealpha", "preserveAlpha"),
   ("preserveaspectratio", "preserveAspectRatio"), ("primitiveunits", "primitiveUnits"),
   ("refx", "refX"), ("refy", "refY"), ("repeatcount", "repeatCount"), ("repeatdur", "repeatDur"),
   ("requiredextensions", "requiredExtensions"), ("requiredfeatures", "requiredFeatures"),
   ("specularconstant", "specularConstant"), ("specularexponent", "specularExponent"),
   ("spreadmethod", "spreadMethod"), ("startoffset", "startOffset"),
   ("stddeviation", "stdDeviation"), ("stitchtiles", "stitchTiles"),
   ("surfacescale", "surfaceScale"), ("systemlanguage", "systemLanguage"),
   ("tablevalues", "tableValues"), ("targetx", "targetX"), ("targety", "targetY"),
   ("textlength", "textLength"), ("viewbox", "viewBox"), ("viewtarget", "viewTarget"),
   ("xchannelselector", "xChannelSelector"), ("ychannelselector", "yChannelSelector"),
   ("zoomandpan", "zoomAndPan")]

def xlink : String := "http://www.w3.org/1999/xlink"

def xml : String := "http://www.w3.org/XML/1998/namespace"

def xmlns : String := "http://www.w3.org/2000/xmlns/"

def attrSpaces : List (String × String) :=
  [("xlink:actuate", xlink), ("xlink:arcrole", xlink), ("xlink:href", xlink), ("xlink:role", xlink),
   ("xlink:show", xlink), ("xlink:title", xlink), ("xlink:type", xlink), ("xml:base", xml),
   ("xml:lang", xml), ("xml:space", xml), ("xmlns", xmlns), ("xmlns:xlink", xmlns)]

def attrNames : Space → List (String × String)
  | .svg => svgAttrs
  | .mathml => [("definitionurl", "definitionURL")]
  | _ => []

/-- The attributes of an element of HTML, or of a foreign one. -/
def builtAttrs (space : Space) (foreign : Bool) (attrs : List (String × String)) : List BuiltAttr :=
  attrs.foldl (fun done (name, value) =>
    if foreign then
      let name := ((attrNames space).lookup name).getD name
      BuiltAttr.add done ⟨name, attrSpaces.lookup name, value⟩
    else BuiltAttr.add done ⟨name, none, value⟩) []

def tagName (space : Space) (name : String) : String :=
  if space = .svg then (svgTags.lookup name).getD name else name

def breakoutTags : List String :=
  ["b", "big", "blockquote", "body", "br", "center", "code", "dd", "div", "dl", "dt", "em", "embed",
   "h1", "h2", "h3", "h4", "h5", "h6", "head", "hr", "i", "img", "li", "listing", "menu", "meta",
   "nobr", "ol", "p", "pre", "ruby", "s", "small", "span", "strong", "strike", "sub", "sup",
   "table", "tt", "u", "ul", "var"]

def breaksOut (name : String) (attrs : List (String × String)) : Bool :=
  breakoutTags.contains name ||
    (name == "font" && attrs.any fun attr => ["color", "face", "size"].contains attr.1)

/-- Whether an element's contents are HTML, going by its attributes where they decide it. -/
def isHtmlPoint (o : Open) (attrs : List BuiltAttr) : Bool :=
  if o.space = .mathml && o.name = "annotation-xml" then
    match attrs.find? fun a => a.name = "encoding" with
    | some a => ["text/html", "application/xhtml+xml"].contains (Text.lowerAll a.value)
    | none => false
  else o.space == .svg && ["foreignObject", "desc", "title"].contains o.name

end HtmlTree.Html.Foreign
