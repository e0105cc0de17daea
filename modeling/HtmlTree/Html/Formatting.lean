import HtmlTree.Html.Builder

/-! The list of active formatting elements: what is opened again when text or elements follow an
element that was closed too early, and how such elements are closed. -/

namespace HtmlTree.Html.Builder

def pushMarker (b : Builder) : Builder := { b with formatting := b.formatting ++ [none] }

def recentFormatting (b : Builder) : List Open :=
  (b.formatting.reverse.takeWhile (·.isSome)).filterMap id

def clearToMarker (b : Builder) : Builder :=
  { b with formatting := ((b.formatting.reverse.dropWhile (·.isSome)).drop 1).reverse }

def isEntry (o : Open) (entry : Option Open) : Bool := entry.any fun p => p.id == o.id

def removeFormatting (b : Builder) (o : Open) : Builder :=
  { b with formatting := b.formatting.eraseP (isEntry o) }

def isFormatting (b : Builder) (o : Open) : Bool := b.formatting.any (isEntry o)

def findFormatting (b : Builder) (name : String) : Option Open :=
  b.recentFormatting.find? fun o => o.name == name

def sameAttrs (xs ys : List BuiltAttr) : Bool :=
  xs.length == ys.length &&
    xs.all fun x => ys.any fun y => y.name == x.name && y.value == x.value

def sameElement (b : Builder) (x y : Open) : Bool :=
  x.name == y.name && x.space == y.space && sameAttrs (b.arena.attrs x.id) (b.arena.attrs y.id)

/-- Adds the current node; of four equal entries since the last marker the oldest goes. -/
def pushFormatting (b : Builder) : Builder :=
  let o := b.current
  let equal := b.recentFormatting.filter (b.sameElement · o)
  let b := match equal[2]? with
    | some oldest => b.removeFormatting oldest
    | none => b
  { b with formatting := b.formatting ++ [some o] }

def insertFormatting (b : Builder) (t : Tag) : Builder := (b.insert t).pushFormatting

def cloneElement (b : Builder) (o : Open) : Open × Builder :=
  let (i, arena) := b.arena.make (.element o.name o.space (b.arena.attrs o.id))
  (⟨i, o.name, o.space⟩, { b with arena })

def isSettled (b : Builder) (entry : Option Open) : Bool :=
  match entry with
  | none => true
  | some o => b.holds o

def reopen : List (Option Open) → Builder → Builder
  | [], b => b
  | none :: rest, b => reopen rest b
  | some o :: rest, b =>
    let b := b.insertPart o.name o.space (b.arena.attrs o.id)
    reopen rest { b with formatting := b.formatting ++ [some b.current] }

/-- Opens the formatting elements again that are no longer open, after the last one that is. -/
def reconstruct (b : Builder) : Builder :=
  let lost := (b.formatting.reverse.takeWhile fun entry => !b.isSettled entry).reverse
  if lost.isEmpty then b
  else
    reopen lost { b with formatting := b.formatting.take (b.formatting.length - lost.length) }

end HtmlTree.Html.Builder
