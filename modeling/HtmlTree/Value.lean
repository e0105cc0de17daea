import HtmlTree.Decimal.Shortest
import HtmlTree.Text.Quoted

/-! Plain values: what a settings file or a caller may hold. A dictionary lists its entries in the
order in which the keys were first put; putting a key again keeps its place. Texts are strings unless
another kind is named: lists of code points can hold surrogates that stand alone, which strings cannot. -/

namespace HtmlTree

open Decimal (Binary64)

/-- A character, or a surrogate that stands alone. -/
inductive CodePoint where
  | char (c : Char)
  | lone (unit : Nat)
  deriving DecidableEq, Repr

abbrev Points := List CodePoint

namespace Points

def ofString (s : String) : Points := s.toList.map .char

/-- The text as a string, in which surrogates that stand alone become U+FFFD. -/
def replaceLone (s : Points) : String :=
  String.ofList <| s.map fun
    | .char c => c
    | .lone _ => '\uFFFD'

end Points

inductive Value (τ : Type := String) where
  | null
  | bool (b : Bool)
  | int (n : Int)
  | real (x : Binary64)
  | text (s : τ)
  | list (items : List (Value τ))
  | dict (entries : List (τ × Value τ))
  deriving Inhabited

abbrev Entries (τ : Type := String) := List (τ × Value τ)

section Entries

variable {τ α : Type} [DecidableEq τ]

def lookup (key : τ) : List (τ × α) → Option α
  | [] => none
  | (k, v) :: entries => if k = key then some v else lookup key entries

def put (key : τ) (value : α) : List (τ × α) → List (τ × α)
  | [] => [(key, value)]
  | (k, v) :: entries => if k = key then (k, value) :: entries else (k, v) :: put key value entries

def erase (key : τ) : List (τ × α) → List (τ × α)
  | [] => []
  | (k, v) :: entries => if k = key then entries else (k, v) :: erase key entries

/-- A dictionary of pairs: of a repeated key the first place and the last value stay. -/
def collect (pairs : List (τ × α)) : List (τ × α) :=
  pairs.foldl (fun entries pair => put pair.1 pair.2 entries) []

end Entries

namespace Value

def dict? {τ : Type} : Value τ → Option (Entries τ)
  | dict entries => some entries
  | _ => none

def text? : Value → Option String
  | text s => some s
  | _ => none

/-- Whether a value counts as set: not null, false, zero or empty. -/
def truthy : Value → Bool
  | null => false
  | bool b => b
  | int n => n != 0
  | real x => !x.isZero
  | text s => s != ""
  | list items => !items.isEmpty
  | dict entries => !entries.isEmpty

def typeName : Value → String
  | null => "NoneType"
  | bool _ => "bool"
  | int _ => "int"
  | real _ => "float"
  | text _ => "str"
  | list _ => "list"
  | dict _ => "dict"

def integer (n : Int) : List Char :=
  if n < 0 then '-' :: Nat.toDigits 10 n.natAbs else Nat.toDigits 10 n.natAbs

def describeReal (x : Binary64) : String :=
  if x.isNaN then "nan"
  else if x.isInfinite then (if x.negative then "-inf" else "inf")
  else String.ofList x.written

mutual

def mapTexts {τ σ : Type} (f : τ → σ) : Value τ → Value σ
  | null => .null
  | bool b => .bool b
  | int n => .int n
  | real x => .real x
  | text s => .text (f s)
  | list items => .list (mapItems f items)
  | dict entries => .dict (mapEntries f entries)

def mapItems {τ σ : Type} (f : τ → σ) : List (Value τ) → List (Value σ)
  | [] => []
  | item :: items => item.mapTexts f :: mapItems f items

def mapEntries {τ σ : Type} (f : τ → σ) : List (τ × Value τ) → Entries σ
  | [] => []
  | (key, v) :: entries => (f key, v.mapTexts f) :: mapEntries f entries

end

mutual

def describe : Value → String
  | null => "None"
  | bool b => if b then "True" else "False"
  | int n => String.ofList (integer n)
  | real x => describeReal x
  | text s => Text.quoted s
  | list items => "[" ++ ", ".intercalate (describeItems items) ++ "]"
  | dict entries => "\x7b" ++ ", ".intercalate (describeEntries entries) ++ "\x7d"

def describeItems : List Value → List String
  | [] => []
  | item :: items => item.describe :: describeItems items

def describeEntries : List (String × Value) → List String
  | [] => []
  | (key, value) :: entries =>
    (Text.quoted key ++ ": " ++ value.describe) :: describeEntries entries

end

end Value

end HtmlTree
