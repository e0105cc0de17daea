import HtmlTree.Settings

/-! A section of the settings read as options. A section may be a dictionary or anything that lists
pairs: a list of two-element lists, of texts of two characters, or of dictionaries of two keys. -/

namespace HtmlTree

inductive SectionFailure where
  | notPairs
  | badLength
  deriving DecidableEq, Repr

abbrev Options := List (Value × Value)

namespace Options

def parts : Value → Option (List Value)
  | .list items => some items
  | .text s => some (s.toList.map fun c => .text (String.ofList [c]))
  | .dict entries => some (entries.map fun entry => .text entry.1)
  | _ => none

def keyNumber : Value → Option Decimal.Binary64
  | .bool b => some (.ofDecimal false (if b then 1 else 0) 0)
  | .int n => some (.ofDecimal (n < 0) n.natAbs 0)
  | .real x => some (if x.isZero then .ofDecimal false 0 0 else x)
  | _ => none

/-- Keys are one if they are the same text or number; true and false are numbers. -/
def sameKey : Value → Value → Bool
  | .text a, .text b => a = b
  | .int a, .int b => a = b
  | .null, .null => true
  | a, b =>
    match keyNumber a, keyNumber b with
    | some x, some y => x = y && !x.isNaN
    | _, _ => false

def putOption (key value : Value) : Options → Options
  | [] => [(key, value)]
  | (k, v) :: options =>
    if sameKey k key then (k, value) :: options else (k, v) :: putOption key value options

def isKey : Value → Bool
  | .list _ | .dict _ => false
  | _ => true

def ofItems : List Value → Options → Except SectionFailure Options
  | [], options => .ok options
  | item :: items, options =>
    match parts item with
    | none => .error .notPairs
    | some [key, value] =>
      if isKey key then ofItems items (putOption key value options) else .error .notPairs
    | some _ => .error .badLength

def ofSection : Value → Except SectionFailure Options
  | .dict entries => .ok (entries.map fun entry => (.text entry.1, entry.2))
  | .list items => ofItems items []
  | .text s => if s = "" then .ok [] else .error .badLength
  | _ => .error .notPairs

def get? (options : Options) (key : String) : Option Value :=
  (options.find? fun option => sameKey option.1 (.text key)).map (·.2)

def flag (options : Options) (name : String) (standard : Bool) : Bool :=
  match options.get? name with
  | some v => v.truthy
  | none => standard

end Options

namespace Settings

def parserOptions (c : Settings) : Except SectionFailure Options :=
  Options.ofSection (c.get "parser" (.dict []))

def serializerOptions (c : Settings) : Except SectionFailure Options :=
  Options.ofSection (c.get "serializer" (.dict []))

end Settings

end HtmlTree
