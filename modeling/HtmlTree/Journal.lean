/-! Records of what the library did, and values that carry the records of their making. -/

namespace HtmlTree

namespace Level

def debug : Nat := 10

def info : Nat := 20

def warning : Nat := 30

def error : Nat := 40

def critical : Nat := 50

def named : List (String × Nat) :=
  [("DEBUG", debug), ("INFO", info), ("WARNING", warning), ("ERROR", error), ("CRITICAL", critical)]

def name (level : Nat) : String :=
  match named.find? fun entry => entry.2 = level with
  | some (name, _) => name
  | none => if level = 0 then "NOTSET" else "Level " ++ toString level

end Level

/-- A reported failure: the name of its kind and its text. -/
structure Raised where
  kind : String
  text : String
  deriving DecidableEq, Repr

namespace Raised

def line (r : Raised) : String := if r.text = "" then r.kind else r.kind ++ ": " ++ r.text

end Raised

structure Record where
  logger : String
  level : Nat
  message : String
  raised : Option Raised
  deriving DecidableEq, Repr

namespace Record

def top : String := "html_ast_utils"

def ofTree (level : Nat) (message : String) : Record :=
  ⟨top ++ ".tree", level, message, none⟩

def ofParser (level : Nat) (message : String) : Record :=
  ⟨top ++ ".parser.html_parser", level, message, none⟩

def ofSerializer (level : Nat) (message : String) : Record :=
  ⟨top ++ ".parser.serializer", level, message, none⟩

def ofSettings (level : Nat) (message : String) : Record :=
  ⟨top ++ ".utils.config", level, message, none⟩

end Record

structure Logged (α : Type) where
  value : α
  records : List Record

end HtmlTree
