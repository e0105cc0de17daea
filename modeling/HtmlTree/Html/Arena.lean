import HtmlTree.Dom.Node

/-! The tree a parse is building. A node has at most one parent at any time: putting it somewhere
takes it away from where it was. -/

namespace HtmlTree.Html

inductive Space where
  | bare
  | html
  | svg
  | mathml
  deriving DecidableEq, Repr

namespace Space

def uri : Space → Option String
  | bare => none
  | html => some htmlNamespace
  | svg => some "http://www.w3.org/2000/svg"
  | mathml => some "http://www.w3.org/1998/Math/MathML"

/-- Elements without a namespace count as HTML where names are compared. -/
def normal : Space → Space
  | bare => html
  | s => s

end Space

/-- An attribute of an element. Two attributes of one namespace with the same local name exclude
each other. -/
structure BuiltAttr where
  name : String
  space : Option String
  value : String
  deriving DecidableEq, Repr

namespace BuiltAttr

def localPart (name : String) : String :=
  match name.toList.dropWhile (· ≠ ':') with
  | _ :: rest => String.ofList rest
  | [] => name

def excludes (a b : BuiltAttr) : Bool :=
  a.name = b.name || (a.space = b.space && localPart a.name = localPart b.name)

def add (attrs : List BuiltAttr) (a : BuiltAttr) : List BuiltAttr :=
  attrs.filter (fun b => !excludes a b) ++ [a]

end BuiltAttr

inductive Part where
  | document
  | element (name : String) (space : Space) (attrs : List BuiltAttr)
  | text (value : String)
  | comment (data : String)
  /-- A doctype, with what of it was given. -/
  | doctype (name publicId systemId : Option String)
  deriving DecidableEq, Repr

structure Cell where
  part : Part
  parent : Option Nat
  children : Array Nat
  deriving DecidableEq, Repr

structure Arena where
  cells : Array Cell
  deriving DecidableEq, Repr

namespace Arena

/-- A document with nothing in it; its number is zero. -/
def initial : Arena := ⟨#[⟨.document, none, #[]⟩]⟩

def document : Nat := 0

def cell (a : Arena) (i : Nat) : Cell := a.cells[i]?.getD ⟨.document, none, #[]⟩

def parent (a : Arena) (i : Nat) : Option Nat := (a.cell i).parent

def children (a : Arena) (i : Nat) : Array Nat := (a.cell i).children

def attrs (a : Arena) (i : Nat) : List BuiltAttr :=
  match (a.cell i).part with
  | .element _ _ attrs => attrs
  | _ => []

def make (a : Arena) (part : Part) : Nat × Arena :=
  (a.cells.size, ⟨a.cells.push ⟨part, none, #[]⟩⟩)

def modify (a : Arena) (i : Nat) (f : Cell → Cell) : Arena := ⟨a.cells.modify i f⟩

def setAttrs (a : Arena) (i : Nat) (attrs : List BuiltAttr) : Arena :=
  a.modify i fun cell =>
    match cell.part with
    | .element name space _ => { cell with part := .element name space attrs }
    | _ => cell

def detach (a : Arena) (i : Nat) : Arena :=
  match a.parent i with
  | none => a
  | some p =>
    (a.modify p fun cell => { cell with children := cell.children.erase i }).modify i fun cell =>
      { cell with parent := none }

def append (a : Arena) (p i : Nat) : Arena :=
  ((a.detach i).modify p fun cell => { cell with children := cell.children.push i }).modify i
    fun cell => { cell with parent := some p }

def insertBefore (a : Arena) (p i next : Nat) : Arena :=
  let place (children : Array Nat) : Array Nat :=
    let (before, after) := children.toList.span (· ≠ next)
    (before ++ i :: after).toArray
  ((a.detach i).modify p fun cell => { cell with children := place cell.children }).modify i
    fun cell => { cell with parent := some p }

def moveChildren (a : Arena) (source target : Nat) : Arena :=
  (a.children source).foldl (fun a i => a.append target i) a

end Arena

end HtmlTree.Html
