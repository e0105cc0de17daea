import HtmlTree.Value

/-! Settings: a tree of dictionaries addressed by dotted keys. A key's segments lead through nested
dictionaries; an empty segment is a key like any other. Settings are here the values that they show. -/

namespace HtmlTree

/-- What stands between the dots of a key; there is always at least one segment. -/
def segmentsOf {α : Type} [DecidableEq α] (dot : α) : List α → List (List α)
  | [] => [[]]
  | c :: rest =>
    if c = dot then [] :: segmentsOf dot rest
    else
      match segmentsOf dot rest with
      | [] => [[c]]
      | first :: more => (c :: first) :: more

def segments (key : String) : List String := (segmentsOf '.' key.toList).map String.ofList

section Paths

variable {τ : Type} [DecidableEq τ]

def getPath : List τ → Entries τ → Option (Value τ)
  | [], _ => none
  | [key], entries => lookup key entries
  | key :: path, entries =>
    match lookup key entries with
    | some (.dict inner) => getPath path inner
    | _ => none

/-- Puts a value at a path. What is no dictionary on the way gives place to an empty one. -/
def setPath : List τ → Value τ → Entries τ → Entries τ
  | [], _, entries => entries
  | [key], v, entries => put key v entries
  | key :: path, v, entries =>
    match lookup key entries with
    | some (.dict inner) => put key (.dict (setPath path v inner)) entries
    | _ => put key (.dict (setPath path v [])) entries

def removePath : List τ → Entries τ → Option (Entries τ)
  | [], _ => none
  | [key], entries =>
    match lookup key entries with
    | some _ => some (erase key entries)
    | none => none
  | key :: path, entries =>
    match lookup key entries with
    | some (.dict inner) => (removePath path inner).map fun inner => put key (.dict inner) entries
    | _ => none

mutual

/-- One new value over the old one: dictionaries merge, anything else replaces. -/
def mergeValue (old : Option (Value τ)) : Value τ → Value τ
  | .dict source =>
    match old with
    | some (.dict target) => .dict (mergeEntries target source)
    | _ => .dict source
  | v => v

def mergeEntries (target : Entries τ) : List (τ × Value τ) → Entries τ
  | [] => target
  | (key, v) :: source => mergeEntries (put key (mergeValue (lookup key target) v) target) source

end

end Paths

namespace Settings

def parserDefaults : Entries :=
  [("fragment_container", .text "div"), ("strict", .bool false),
   ("namespace_html_elements", .bool true)]

def serializerDefaults : Entries :=
  [("quote_attr_values", .text "always"), ("quote_char", .text "\""),
   ("omit_optional_tags", .bool false), ("minimize_boolean_attributes", .bool false),
   ("use_trailing_solidus", .bool false), ("escape_rcdata", .bool false),
   ("escape_lt_in_attrs", .bool false), ("alphabetical_attributes", .bool false),
   ("strip_whitespace", .bool false)]

def loggingDefaults : Entries :=
  [("console_level", .text "WARNING"), ("file_level", .text "DEBUG"), ("log_file", .null)]

def defaults : Entries :=
  [("parser", .dict parserDefaults), ("serializer", .dict serializerDefaults),
   ("logging", .dict loggingDefaults)]

end Settings

structure Settings where
  entries : Entries
  path : Option String

namespace Settings

def standard : Settings := ⟨defaults, none⟩

def get (c : Settings) (key : String) (default : Value) : Value :=
  (getPath (segments key) c.entries).getD default

def set (c : Settings) (key : String) (v : Value) : Settings :=
  { c with entries := setPath (segments key) v c.entries }

def remove (c : Settings) (key : String) : Settings × Bool :=
  match removePath (segments key) c.entries with
  | some entries => ({ c with entries }, true)
  | none => (c, false)

def override (c : Settings) (overrides : Entries) : Settings :=
  (collect overrides).foldl (fun c entry => c.set entry.1 entry.2) c

def all (c : Settings) : Value := .dict c.entries

end Settings

end HtmlTree
