import HtmlTree.Settings.Section

/-! How markup is to be written, read from options. An option that is not given has its standard
value. -/

namespace HtmlTree.Markup

inductive Quoting where
  | always
  | spec
  | legacy
  | unknown
  deriving DecidableEq, Repr

structure Style where
  quoting : Quoting
  quote : Option String
  bestQuote : Bool
  omitOptional : Bool
  minimizeBoolean : Bool
  trailingSolidus : Bool
  spaceBeforeSolidus : Bool
  escapeLtInAttrs : Bool
  escapeRaw : Bool
  sortAttributes : Bool
  stripSpaces : Bool
  sanitize : Bool
  deriving DecidableEq, Repr

inductive StyleFailure where
  | badSection (failure : SectionFailure)
  | keyNotText
  | unknownOption (name : String)
  deriving DecidableEq, Repr

namespace Style

-- `resolve_entities` is for tokens that no tree is written as and `inject_meta_charset` for text that is
-- encoded, which it never is here: both are taken and neither has an effect.
def optionNames : List String :=
  ["quote_attr_values", "quote_char", "use_best_quote_char", "omit_optional_tags",
   "minimize_boolean_attributes", "use_trailing_solidus", "space_before_trailing_solidus",
   "escape_lt_in_attrs", "escape_rcdata", "resolve_entities", "alphabetical_attributes",
   "inject_meta_charset", "strip_whitespace", "sanitize"]

def quotingOf : Option Value → Quoting
  | none => .legacy
  | some (.text "always") => .always
  | some (.text "spec") => .spec
  | some (.text "legacy") => .legacy
  | some _ => .unknown

def quoteOf : Option Value → Option String
  | none => some "\""
  | some v => v.text?

/-- The best quote is chosen by default, but not when a quote is given. -/
def ofKnown (options : Options) : Style where
  quoting := quotingOf (options.get? "quote_attr_values")
  quote := quoteOf (options.get? "quote_char")
  bestQuote := options.flag "use_best_quote_char" (options.get? "quote_char").isNone
  omitOptional := options.flag "omit_optional_tags" true
  minimizeBoolean := options.flag "minimize_boolean_attributes" true
  trailingSolidus := options.flag "use_trailing_solidus" false
  spaceBeforeSolidus := options.flag "space_before_trailing_solidus" true
  escapeLtInAttrs := options.flag "escape_lt_in_attrs" false
  escapeRaw := options.flag "escape_rcdata" false
  sortAttributes := options.flag "alphabetical_attributes" false
  stripSpaces := options.flag "strip_whitespace" false
  sanitize := options.flag "sanitize" false

/-- The first option that is no known one. -/
def stranger (options : Options) : Option String :=
  options.findSome? fun option =>
    match option.1 with
    | .text name => if optionNames.contains name then none else some name
    | _ => none

def ofOptions (options : Options) : Except StyleFailure Style :=
  if options.any fun option => option.1.text?.isNone then .error .keyNotText
  else
    match stranger options with
    | some name => .error (.unknownOption name)
    | none => .ok (ofKnown options)

def ofSettings (c : Settings) : Except StyleFailure Style := do
  ofOptions (← c.serializerOptions.mapError .badSection)

end Style

end HtmlTree.Markup
