import HtmlTree.Html.Formatting

/-! Closing a formatting element that still holds other open elements. The element is split: what
lies inside the outermost special element within it is moved under a copy, and the elements in
between are copied too, so that each stays properly nested. -/

namespace HtmlTree.Html.Builder

def endOther (b : Builder) (name : String) : Builder :=
  match b.stack.find? fun o => o.name == name || isSpecial o with
  | none => b
  | some o =>
    if o.name == name then
      let b := b.dropImplied (some name)
      let b := if b.isCurrent name then b else b.report (.endTag name)
      { b with stack := popThrough (fun p => p.id == o.id) b.stack }
    else b.report (.endTag name)

/-- A copy of the elements in between under way: the node that goes into the next copy, whether
there is a copy already, and the place in the formatting list for the copy of the element that is
closed. -/
structure Splice where
  builder : Builder
  last : Nat
  copied : Bool
  bookmark : Nat
  deriving Repr

/-- Copies elements from the innermost on, each around what was copied before it; those that are no
formatting elements are left out. The second component holds the elements that stay open. -/
def splice : Nat → List Open → Splice → List Open × Splice
  | 0, kept, s => (kept, s)
  | _ + 1, [], s => ([], s)
  | n + 1, o :: rest, s =>
    if s.builder.isFormatting o then
      let place := s.builder.formatting.findIdx (isEntry o)
      let (copy, b) := s.builder.cloneElement o
      let b := { b with
        arena := b.arena.append copy.id s.last
        formatting := b.formatting.set place (some copy) }
      let (kept, s) := splice n rest ⟨b, copy.id, true, if s.copied then s.bookmark else place + 1⟩
      (copy :: kept, s)
    else splice n rest s

/-- Puts the outermost copy into the element below; one that belongs to a table goes before that
table, if there is one. -/
def placeSplice (b : Builder) (around : Open) (i : Nat) : Builder :=
  if tableContextTags.contains around.name then
    match b.fosterPlace with
    | (p, some next) => { b with arena := b.arena.insertBefore p i next }
    | (_, none) => b.breakDown .noPlace
  else { b with arena := b.arena.append around.id i }

/-- The longest run of elements copied in one round. -/
def spliceLimit : Nat := 3

/-- One round for a formatting element, from the elements open inside it, the innermost first, and
those around it. The answer tells whether another round follows. -/
def adopt (b : Builder) (f : Open) (inside around : List Open) : Builder × Bool :=
  match inside.reverse.span fun o => !isSpecial o with
  | (_, []) => ({ b with stack := around }.removeFormatting f, false)
  | (between, block :: within) =>
    let bookmark := b.formatting.findIdx (isEntry f)
    let (kept, s) := splice spliceLimit between.reverse ⟨b, block.id, false, bookmark⟩
    let b := s.builder.placeSplice (around.head?.getD bottom) s.last
    let (copy, b) := b.cloneElement f
    let formatting := b.formatting.eraseP (isEntry f)
    ({ b with
        arena := (b.arena.moveChildren block.id copy.id).append block.id copy.id
        formatting := formatting.take s.bookmark ++ some copy :: formatting.drop s.bookmark
        stack := within.reverse ++ copy :: block :: kept ++ around }, true)

def adoptionRounds : Nat → String → Builder → Builder
  | 0, _, b => b
  | n + 1, name, b =>
    match b.findFormatting name with
    | none => b.endOther name
    | some f =>
      if b.holds f then
        if b.inScope .plain name then
          let b := if b.current.id == f.id then b else b.report (.adoptionNotCurrent name)
          let (inside, rest) := b.stack.span fun o => o.id != f.id
          match b.adopt f inside rest.tail with
          | (b, true) => adoptionRounds n name b
          | (b, false) => b
        else b.endOther name
      else (b.report (.adoptionNotOpen name)).removeFormatting f

def endFormatting (b : Builder) (name : String) : Builder := adoptionRounds 8 name b

end HtmlTree.Html.Builder
